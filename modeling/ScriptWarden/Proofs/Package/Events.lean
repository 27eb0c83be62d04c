import Mathlib.Data.List.Induction
import ScriptWarden.Proofs.Api.Standing
import ScriptWarden.Proofs.Package.Mail
set_option autoImplicit false

/-!
# Packages: events

Scripts register functions for events, and drop them again, whenever they run: also while the functions of an event are
being called.  What they do to the functions is written down as *changes*, and `since` says which functions that leaves
for an event, in order.  A package goes through *episodes*: turns, and dispatches, which have turns of their own.  By
each episode the functions that the services hold follow the changes (`Story.registers`).  A dispatch calls those that
its event has when it begins, and the changes made meanwhile are for the next one (`dispatches_in_order`).
-/

namespace ScriptWarden.Package

open Api (Alters Thing callbacksOf)
open Lua (Heap Value)
open Script (Result Setting Vm)
open Trust (Policy)

/-! ## Changes -/

/-- A change of the functions that are registered for an event. -/
inductive Change where
  | register (event : String) (f : Value)
  | clear (event : String)

/-- The event whose functions change. -/
def Change.event : Change → String
  | .register event _ => event
  | .clear event => event

/-- Does the change drop the functions of an event? -/
def Change.clears (event : String) : Change → Bool
  | .register .. => false
  | .clear name => name = event

/-- The function that the change registers for an event. -/
def Change.function? (event : String) : Change → Option Value
  | .register name f => if name = event then some f else none
  | .clear _ => none

/-- The functions that were registered for an event since they were last dropped, in order. -/
def since (event : String) (changes : List Change) : List Value :=
  (changes.reverse.takeWhile (!·.clears event)).reverse.filterMap (·.function? event)

theorem since_concat (event : String) (changes : List Change) (c : Change) :
    since event (changes ++ [c]) =
      if c.clears event then [] else since event changes ++ (c.function? event).toList := by
  unfold since
  rw [List.reverse_append, List.reverse_singleton, List.singleton_append, List.takeWhile_cons]
  cases hclears : c.clears event with
  | true => rfl
  | false =>
    rw [Bool.not_false, if_pos rfl, if_neg Bool.false_ne_true, List.reverse_cons, List.filterMap_append]
    cases hfunction : c.function? event <;> simp [hfunction]

/-- Changes for other events do not count. -/
theorem since_filter (event : String) (changes : List Change) :
    since event (changes.filter (·.event = event)) = since event changes := by
  induction changes using List.reverseRecOn with
  | nil => rfl
  | append_singleton changes c ih =>
    rw [List.filter_append, since_concat]
    by_cases hevent : c.event = event
    · rw [List.filter_singleton, decide_eq_true hevent, cond_true, since_concat, ih]
    · have hclears : c.clears event = false := by
        cases c with
        | register => rfl
        | clear => exact decide_eq_false hevent
      have hfunction : c.function? event = none := by
        cases c with
        | register => exact if_neg hevent
        | clear => rfl
      rw [List.filter_singleton, decide_eq_false hevent, cond_false, List.append_nil, ih, hclears, hfunction]
      simp

/-- What was registered before the event was cleared is gone, what was registered twice is there twice. -/
example (f g h : Value) : since "tick" [.register "tick" f, .clear "tick", .register "tick" g, .register "render" f,
    .register "tick" h, .clear "render", .register "tick" g] = [g, h, g] := rfl

/-! ## Turns -/

/-- The change that a method makes with some arguments. -/
def Change.ofCall? (type name : String) (argument : Nat → Bridge.Argument) : Option Change :=
  if type ≠ Api.eventsType then none
  else if name = "register" then
    match (argument 0).text?, (argument 1).function? with
    | some event, some f => some (.register event f)
    | _, _ => none
  else if name = "clear" then (argument 0).text?.map .clear
  else none

/-- The change that a turn makes, which is a call that succeeds. -/
def Turn.change? (policy : Policy) (turn : Turn) (s : Api.Services) : Option Change :=
  match turn with
  | .call heap type name args =>
    match (Bridge.bridgeCall Api.surface policy type name args ⟨heap, s, none⟩).1 with
    | .ok _ => Change.ofCall? type name fun i => Bridge.Argument.ofValue heap s.objects (args.getD (i + 1) .nil)
    | .error _ => none
  | _ => none

/-- The changes that turns make, in order. -/
def changes : List (Policy × Turn) → Api.Services → List Change
  | [], _ => []
  | (policy, turn) :: rest, s => (turn.change? policy s).toList ++ changes rest (turn.apply policy s)

theorem changes_append (turns turns' : List (Policy × Turn)) (s : Api.Services) :
    changes (turns ++ turns') s = changes turns s ++ changes turns' (play s turns) := by
  induction turns generalizing s with
  | nil => rfl
  | cons turn rest ih =>
    rw [List.cons_append, changes, ih, changes, List.append_assoc]
    rfl

/-- The services hold the functions that some changes leave. -/
def Registers (cs : List Change) (s : Api.Services) : Prop := ∀ event, callbacksOf s event = since event cs

section Turns

variable {cs : List Change} {s s' : Api.Services} {policy : Policy}

theorem Registers.of_callbacks (h : Registers cs s) (heq : s'.callbacks = s.callbacks) : Registers cs s' := by
  intro event
  rw [callbacksOf, heq]
  exact h event

theorem Registers.register (h : Registers cs s) {event : String} {f : Value}
    (heq : s'.callbacks = s.callbacks.insert event (callbacksOf s event ++ [f])) :
    Registers (cs ++ [.register event f]) s' := by
  intro name
  rw [since_concat, ← h name, callbacksOf, heq, Std.ExtTreeMap.getElem?_insert]
  by_cases hname : event = name
  · subst hname
    simp [Change.clears, Change.function?]
  · simp [Change.clears, Change.function?, hname, callbacksOf]

theorem Registers.clear (h : Registers cs s) {event : String} (heq : s'.callbacks = s.callbacks.erase event) :
    Registers (cs ++ [.clear event]) s' := by
  intro name
  rw [since_concat, ← h name, callbacksOf, heq, Std.ExtTreeMap.getElem?_erase]
  by_cases hname : event = name
  · subst hname
    simp [Change.clears]
  · simp [Change.clears, Change.function?, hname, callbacksOf]

theorem registers_of_alters (h : Registers cs s) {c : Bridge.Call} {type name : String}
    (halters : Alters c s s' type name) :
    Registers (cs ++ (Change.ofCall? type name c.argument).toList) s' := by
  have hsame (htype : type ≠ Api.eventsType ∨ name ≠ "register" ∧ name ≠ "clear")
      (hstanding : s'.callbacks = s.callbacks) :
      Registers (cs ++ (Change.ofCall? type name c.argument).toList) s' := by
    have hnone : Change.ofCall? type name c.argument = none := by
      unfold Change.ofCall?
      by_cases heq : type = Api.eventsType
      · obtain ⟨hregister, hclear⟩ := htype.resolve_left (not_not_intro heq)
        simp [hregister, hclear]
      · exact if_pos heq
    rw [hnone, Option.toList_none, List.append_nil]
    exact h.of_callbacks hstanding
  cases halters with
  | nothing hname hstanding => exact hsame (Decidable.not_or_of_imp hname) (congrArg (·.1) hstanding)
  | spawned _ hstanding => exact hsame (.inl (by decide)) (congrArg (·.1) hstanding)
  | removed _ hstanding => exact hsame (.inl (by decide)) (congrArg (·.1) hstanding)
  | requested hstanding => exact hsame (.inl (by decide)) (congrArg (·.1) hstanding)
  | @registered event f hevent hfunction hstanding =>
    have hone : Change.ofCall? Api.eventsType "register" c.argument = some (.register event f) := by
      simp [Change.ofCall?, hevent, hfunction, Bridge.Argument.function?]
    rw [hone]
    exact h.register (congrArg (·.1) hstanding)
  | @cleared event hevent hstanding =>
    have hone : Change.ofCall? Api.eventsType "clear" c.argument = some (.clear event) := by
      simp [Change.ofCall?, hevent]
    rw [hone]
    exact h.clear (congrArg (·.1) hstanding)

theorem registers_turn (h : Registers cs s) (policy : Policy) (turn : Turn) :
    Registers (cs ++ (turn.change? policy s).toList) (turn.apply policy s) := by
  cases turn_affects policy turn s with
  | spared hcall hstanding =>
    have hchange : turn.change? policy s = none := by
      cases turn with
      | call => exact absurd trivial hcall
      | _ => rfl
    rw [hchange, Option.toList_none, List.append_nil]
    exact h.of_callbacks (congrArg (·.1) hstanding)
  | @failed heap type name args e hfailed =>
    have hchange : (Turn.call heap type name args).change? policy s = none := by
      simp only [Turn.change?, hfailed]
    rw [hchange, Option.toList_none, List.append_nil]
    exact h.of_callbacks (congrArg (·.2.host.callbacks) hfailed)
  | @altered heap type name args vs w' run c hran hdone halters =>
    have hargument : (fun i => Bridge.Argument.ofValue heap s.objects (args.getD (i + 1) .nil)) = c.argument := by
      funext i
      rw [hdone.argument_eq, hdone.args_eq, List.getD_cons_succ, List.getD_eq_getElem?_getD]
      cases c.values[i]? <;> rfl
    have hchange : (Turn.call heap type name args).change? policy s = Change.ofCall? type name c.argument := by
      simp only [Turn.change?, hran, hargument]
    have happly : (Turn.call heap type name args).apply policy s = w'.host := congrArg (·.2.host) hran
    rw [happly, hchange]
    exact registers_of_alters h halters

/-- Over turns the functions follow the changes. -/
theorem registers_play (turns : List (Policy × Turn)) (h : Registers cs s) :
    Registers (cs ++ changes turns s) (play s turns) := by
  induction turns generalizing s cs with
  | nil =>
    rw [changes, List.append_nil]
    exact h
  | cons turn rest ih =>
    rw [changes, ← List.append_assoc]
    exact ih (registers_turn h turn.1 turn.2)

end Turns

/-! ## Dispatches -/

/-- A function that the host calls, and the turns that it takes. -/
structure Called where
  function : Value
  turns : List Turn

/-- Functions that are called one after the other with the same arguments: each finds the world that the one before
left, and only the last can fail. -/
inductive Calls (t : Terms) (policy : Policy) (args : List Value) :
    List Called → Vm Thing → Result Thing Unit → Prop
  | none (w : Vm Thing) : Calls t policy args [] w (.ok (), w)
  | failed {c : Called} {w w' : Vm Thing} {e : Script.Error}
    (hcall : Script.call (t.setting policy) c.function args w = (.error e, w'))
    (hturns : w'.host = play w.host (c.turns.map (policy, ·))) : Calls t policy args [c] w (.error e, w')
  | next {c : Called} {rest : List Called} {vs : List Value} {w w' : Vm Thing} {r : Result Thing Unit}
    (hcall : Script.call (t.setting policy) c.function args w = (.ok vs, w'))
    (hturns : w'.host = play w.host (c.turns.map (policy, ·))) (hrest : Calls t policy args rest w' r) :
    Calls t policy args (c :: rest) w r

/-- Calling the functions of an event, as a dispatch does. -/
def fired (t : Terms) (policy : Policy) (e : Event) (w : Vm Thing) : Result Thing Nat :=
  Script.fire (t.setting policy) e.name (Script.eventArguments e) w

/-- What calls come to, whatever their number. -/
def outcome (r : Result Thing Nat) : Result Thing Unit := (r.1.map fun _ => (), r.2)

/-- An event is dispatched to the functions `fs`: they are called in order, each with the arguments of the event, up to
the first that fails.  If none does, all of them are called, and their number is the result. -/
structure InOrder (t : Terms) (policy : Policy) (e : Event) (fs : List Value) (calls : List Called) (w : Vm Thing)
    (r : Result Thing Nat) : Prop where
  inOrder : calls.map Called.function <+: fs
  made : Calls t policy (Script.eventArguments e) calls w (outcome r)
  complete : ∀ n, r.1 = .ok n → calls.map Called.function = fs ∧ n = fs.length

section Dispatches

variable (t : Terms) (policy : Policy)

/-- Calls change the services by their turns. -/
theorem Calls.host_eq {t : Terms} {policy : Policy} {args : List Value} {calls : List Called} {w : Vm Thing}
    {r : Result Thing Unit} (h : Calls t policy args calls w r) :
    r.2.host = play w.host ((calls.flatMap Called.turns).map (policy, ·)) := by
  induction h with
  | none w => rfl
  | failed hcall hturns => simpa using hturns
  | next hcall hturns hrest ih => rw [ih, hturns, List.flatMap_cons, List.map_append, play_append]

theorem callEach_calls (args fs : List Value) (w : Vm Thing) : ∃ calls, calls.map Called.function <+: fs ∧
    Calls t policy args calls w (Script.callEach (t.setting policy) args fs w) ∧
    ((Script.callEach (t.setting policy) args fs w).1 = .ok () → calls.map Called.function = fs) := by
  induction fs generalizing w with
  | nil => exact ⟨[], List.nil_prefix, .none w, fun _ => rfl⟩
  | cons f rest ih =>
    obtain ⟨turns, -, hturns⟩ := call_rel t (admits_turnsBetween policy) f args w
    unfold Script.callEach
    cases hcall : Script.call (t.setting policy) f args w with
    | mk r w' =>
      rw [hcall] at hturns
      cases r with
      | ok vs =>
        obtain ⟨calls, hfront, hcalls, hall⟩ := ih w'
        refine ⟨⟨f, turns⟩ :: calls, (List.prefix_cons_inj f).2 hfront, .next hcall hturns hcalls, fun hok => ?_⟩
        exact congrArg (f :: ·) (hall hok)
      | error e =>
        refine ⟨[⟨f, turns⟩], (List.prefix_cons_inj f).2 List.nil_prefix, .failed hcall hturns, fun hok => ?_⟩
        cases hok

/-- A dispatch calls the functions that its event has when it begins. -/
theorem fired_inOrder (e : Event) (w : Vm Thing) :
    ∃ calls, InOrder t policy e (callbacksOf w.host e.name) calls w (fired t policy e w) := by
  obtain ⟨calls, hfront, hcalls, hall⟩ :=
    callEach_calls t policy (Script.eventArguments e) (callbacksOf w.host e.name) w
  refine ⟨calls, ?_⟩
  unfold callbacksOf at hfront hcalls hall ⊢
  unfold fired Script.fire
  simp only
  cases hran : Script.callEach (t.setting policy) (Script.eventArguments e) (w.host.callbacks[e.name]?.getD []) w with
  | mk r w' =>
    rw [hran] at hcalls hall
    cases r with
    | ok => exact ⟨hfront, hcalls, fun n hok => ⟨hall rfl, (Except.ok.inj hok).symm⟩⟩
    | error e => exact ⟨hfront, hcalls, nofun⟩

end Dispatches

/-! ## Episodes -/

/-- Something that a package goes through. -/
inductive Episode where
  | turn (turn : Turn)
  /-- Functions of an event are called. -/
  | dispatch (e : Event) (heap : Heap) (meter : Option Lua.Meter) (calls : List Called)

/-- The turns that an episode takes. -/
def Episode.turns : Episode → List Turn
  | .turn t => [t]
  | .dispatch _ _ _ calls => calls.flatMap Called.turns

/-- The event that scripts are told of. -/
def Episode.event? : Episode → Option Event
  | .turn _ => none
  | .dispatch e .. => some e

/-- The turns that episodes take, each under the policy of its episode. -/
def turnsOf (episodes : List (Policy × Episode)) : List (Policy × Turn) :=
  episodes.flatMap fun (policy, episode) => episode.turns.map (policy, ·)

/-- Services come from `s₀` by episodes.  A dispatch leaves what its calls lead to. -/
inductive Story (t : Terms) (s₀ : Api.Services) : List (Policy × Episode) → Api.Services → Prop
  | begins : Story t s₀ [] s₀
  | turn {episodes : List (Policy × Episode)} {s : Api.Services} (h : Story t s₀ episodes s) (policy : Policy)
    (turn : Turn) : Story t s₀ (episodes ++ [(policy, .turn turn)]) (turn.apply policy s)
  | dispatch {episodes : List (Policy × Episode)} {s : Api.Services} (h : Story t s₀ episodes s) {policy : Policy}
    {e : Event} {heap : Heap} {meter : Option Lua.Meter} {calls : List Called}
    (hcalls : Calls t policy (Script.eventArguments e) calls ⟨heap, s, meter⟩
      (outcome (fired t policy e ⟨heap, s, meter⟩))) :
    Story t s₀ (episodes ++ [(policy, .dispatch e heap meter calls)]) (fired t policy e ⟨heap, s, meter⟩).2.host

section Stories

variable {t : Terms} {s₀ s : Api.Services} {episodes : List (Policy × Episode)}

theorem turnsOf_concat (episodes : List (Policy × Episode)) (policy : Policy) (episode : Episode) :
    turnsOf (episodes ++ [(policy, episode)]) = turnsOf episodes ++ episode.turns.map (policy, ·) := by
  simp [turnsOf]

theorem Story.eq_play (h : Story t s₀ episodes s) : s = play s₀ (turnsOf episodes) := by
  induction h with
  | begins => rfl
  | turn _ policy turn ih =>
    rw [turnsOf_concat, play_append, ← ih]
    rfl
  | dispatch _ hcalls ih =>
    rw [turnsOf_concat, play_append, ← ih]
    exact hcalls.host_eq

/-- Through all episodes the functions follow the changes. -/
theorem Story.registers (h : Story t s₀ episodes s) (hfresh : s₀.callbacks = ∅) :
    Registers (changes (turnsOf episodes) s₀) s := by
  have hnone : Registers [] s₀ := by
    intro event
    rw [callbacksOf, hfresh]
    rfl
  rw [h.eq_play]
  exact registers_play (turnsOf episodes) hnone

end Stories

/-! ## Instances -/

/-- How scripts are told of an event: with the memory that they have then, and under an allowance. -/
structure Telling where
  event : Event
  heap : Option Heap
  meter : Option Lua.Meter

/-- How scripts are told of the event of an episode. -/
def Episode.telling? : Episode → Option Telling
  | .turn _ => none
  | .dispatch e heap meter _ => some ⟨e, some heap, meter⟩

/-- The events that scripts are told of, in order. -/
def eventsOf (episodes : List Episode) : List Event := episodes.filterMap Episode.event?

/-- How scripts are told of them. -/
def tellingsOf (episodes : List Episode) : List Telling := episodes.filterMap Episode.telling?

theorem eventsOf_eq (episodes : List Episode) : eventsOf episodes = (tellingsOf episodes).map Telling.event := by
  unfold eventsOf tellingsOf
  rw [List.map_filterMap]
  refine congrArg (List.filterMap · episodes) (funext fun episode => ?_)
  cases episode <;> rfl

/-- How the scripts of an instance are told of an event: with its own memory, under the allowance that the owner's
trust for the phase comes to. -/
def Instance.telling (policy : Policy) (i : Instance) (e : Event) : Telling :=
  ⟨e, i.heap, some (Script.meterOf e.phase (i.services.trustValue policy e.phase.capability).1)⟩

/-- However services came about, some episodes under one policy lead on to others, and tell scripts of events. -/
def Passes (t : Terms) (policy : Policy) (s : Api.Services) (tellings : List Telling) (s' : Api.Services) : Prop :=
  ∀ s₀ episodes, Story t s₀ episodes s → ∃ part : List Episode, tellingsOf part = tellings ∧
    Story t s₀ (episodes ++ part.map (policy, ·)) s'

namespace Passes

variable {t : Terms} {policy : Policy} {s s₁ s₂ s₃ : Api.Services} {tellings tellings' : List Telling}

theorem refl (s : Api.Services) : Passes t policy s [] s := by
  intro s₀ episodes hstory
  refine ⟨[], rfl, ?_⟩
  rw [List.map_nil, List.append_nil]
  exact hstory

theorem trans (h : Passes t policy s₁ tellings s₂) (h' : Passes t policy s₂ tellings' s₃) :
    Passes t policy s₁ (tellings ++ tellings') s₃ := by
  intro s₀ episodes hstory
  obtain ⟨part, rfl, hfirst⟩ := h s₀ episodes hstory
  obtain ⟨part', rfl, hrest⟩ := h' s₀ _ hfirst
  refine ⟨part ++ part', List.filterMap_append, ?_⟩
  rw [List.map_append, ← List.append_assoc]
  exact hrest

/-- What happens first tells of nothing. -/
theorem after {s' : Api.Services} (hrest : Passes t policy s' tellings s₂) (h : Passes t policy s₁ [] s') :
    Passes t policy s₁ tellings s₂ := h.trans hrest

/-- What happens then tells of nothing. -/
theorem before {s' : Api.Services} (h : Passes t policy s₁ tellings s') (hrest : Passes t policy s' [] s₂) :
    Passes t policy s₁ tellings s₂ := List.append_nil tellings ▸ h.trans hrest

theorem one (turn : Turn) (s : Api.Services) : Passes t policy s [] (turn.apply policy s) := by
  intro s₀ episodes hstory
  exact ⟨[.turn turn], rfl, hstory.turn policy turn⟩

theorem turns {kind : Turn → Prop} {s' : Api.Services} (h : Turns kind policy s s') : Passes t policy s [] s' :=
  h.closed (R := fun s s' => Passes t policy s [] s') refl trans fun turn s _ => one turn s

theorem fire (e : Event) (w : Vm Thing) :
    Passes t policy w.host [⟨e, some w.heap, w.meter⟩] (fired t policy e w).2.host := by
  intro s₀ episodes hstory
  obtain ⟨calls, hinOrder⟩ := fired_inOrder t policy e w
  exact ⟨[.dispatch e w.heap w.meter calls], rfl, hstory.dispatch hinOrder.made⟩

end Passes

section Instances

variable {t : Terms} (policy : Policy) {i : Instance}

theorem runScripts_passes {α : Type} {run : Vm Thing → Result Thing α} {heap : Heap} {tellings : List Telling}
    (hheap : i.heap = some heap)
    (hrun : Passes t policy i.services tellings (run ⟨heap, i.services, none⟩).2.host) :
    Passes t policy i.services tellings (i.runScripts (t.setting policy) run).2.services := by
  obtain ⟨source, stage, heap', services, lastError⟩ := i
  obtain rfl : heap' = some heap := hheap
  have hran : Passes t policy services tellings (Instance.handOver (run ⟨heap, services, none⟩).2).2 :=
    hrun.before (.turns (handOver_turns policy _))
  unfold Instance.runScripts
  simp only
  split
  · exact hran
  · exact hran.before (.turns (fault_turns t policy _ _))

theorem dispatch_passes (e : Event) (hruns : Runs i) :
    Passes t policy i.services [i.telling policy e] (i.dispatch t policy e).2.services := by
  obtain ⟨heap, hheap⟩ := Option.isSome_iff_exists.1 hruns.heap
  have hconsulted : Passes t policy i.services [] (i.services.trustValue policy e.phase.capability).2 :=
    .one (.consult e.phase.capability) i.services
  unfold Instance.dispatch Instance.during
  rw [if_pos hruns.stage]
  refine .after (runScripts_passes policy hheap ?_) hconsulted
  rw [Instance.telling, hheap]
  exact .fire e ⟨heap, (i.services.trustValue policy e.phase.capability).2,
    some (Script.meterOf e.phase (i.services.trustValue policy e.phase.capability).1)⟩

/-- Scripts that ran without an error can run again. -/
theorem Ends.runs {i' : Instance} (h : Ends i (.ok (), i')) (hruns : Runs i) : Runs i' := by
  generalize ho : (Except.ok (), i') = o at h
  cases h with
  | done heap services =>
    cases ho
    exact ⟨hruns.stage, rfl⟩
  | failed services e => cases ho

/-- How scripts are told of the answers that wait: each as the one before left them, up to the first that fails. -/
def Instance.waitingTellings (t : Terms) (policy : Policy) : Nat → Instance → List Telling
  | 0, _ => []
  | n + 1, i =>
    match i.services.mailbox.next? with
    | none => []
    | some (c, mailbox) =>
      let i := { i with services := { i.services with mailbox } }
      i.telling policy (answerEvent c) ::
        match i.dispatch t policy (answerEvent c) with
        | (.error _, _) => []
        | (.ok (), i) => waitingTellings t policy n i

theorem dispatchWaiting_passes (n : Nat) (hruns : Runs i) :
    (∃ answers : List Host.Completion, (i.waitingTellings t policy n).map Telling.event = answers.map answerEvent) ∧
    Passes t policy i.services (i.waitingTellings t policy n) (Instance.dispatchWaiting t policy n i).2.services := by
  induction n generalizing i with
  | zero => exact ⟨⟨[], rfl⟩, .refl _⟩
  | succ n ih =>
    unfold Instance.dispatchWaiting Instance.waitingTellings
    cases hnext : i.services.mailbox.next? with
    | none => exact ⟨⟨[], rfl⟩, .refl _⟩
    | some next =>
      obtain ⟨c, mailbox⟩ := next
      have htaken : Passes t policy i.services [] { i.services with mailbox } := by
        have h : Passes t policy i.services [] (Turn.taken.apply policy i.services) := .one .taken i.services
        simp only [Turn.apply, hnext] at h
        exact h
      have hruns' : Runs { i with services := { i.services with mailbox } } := ⟨hruns.stage, hruns.heap⟩
      have hdispatch := (dispatch_passes (t := t) policy (answerEvent c) hruns').after htaken
      have hends := dispatch_ends t policy (answerEvent c) hruns'
      simp only
      rw [show Event.networkResponse c.request c.status c.body = answerEvent c from rfl]
      cases hran : Instance.dispatch t policy (answerEvent c)
          { i with services := { i.services with mailbox } } with
      | mk r i' =>
        rw [hran] at hdispatch hends
        cases r with
        | error e => exact ⟨⟨[c], rfl⟩, hdispatch⟩
        | ok =>
          obtain ⟨⟨answers, hanswers⟩, hrest⟩ := ih (hends.runs hruns')
          exact ⟨⟨c :: answers, congrArg (answerEvent c :: ·) hanswers⟩, hdispatch.trans hrest⟩

/-- How a tick tells scripts of the answers that wait, and then of itself unless one of them fails. -/
def Instance.tickTellings (t : Terms) (policy : Policy) (i : Instance) : List Telling :=
  let i := { i with services := i.services.tickQuotas policy }
  i.waitingTellings t policy i.mostAnswers ++
    match i.dispatchWaiting t policy i.mostAnswers with
    | (.error _, _) => []
    | (.ok (), i) => [i.telling policy .tick]

theorem tick_passes (hruns : Runs i) :
    (∃ answers : List Host.Completion,
      (i.tickTellings t policy).map Telling.event = answers.map answerEvent ++ [.tick] ∨
      (i.tickTellings t policy).map Telling.event = answers.map answerEvent ∧
        ∃ e, (i.tick t policy).1 = .error e) ∧
    Passes t policy i.services (i.tickTellings t policy) (i.tick t policy).2.services := by
  have hclock : Passes t policy i.services [] (i.services.tickQuotas policy) :=
    .one .clock i.services
  have hruns' : Runs { i with services := i.services.tickQuotas policy } := ⟨hruns.stage, hruns.heap⟩
  have hends := dispatchWaiting_ends t policy
    { i with services := i.services.tickQuotas policy : Instance }.mostAnswers hruns'
  obtain ⟨⟨answers, hanswers⟩, hwaiting⟩ := dispatchWaiting_passes (t := t) policy
    { i with services := i.services.tickQuotas policy : Instance }.mostAnswers hruns'
  unfold Instance.tickTellings Instance.tick Instance.during
  rw [if_pos hruns.stage]
  simp only [List.map_append, hanswers]
  generalize Instance.dispatchWaiting t policy _ _ = o at hwaiting hends ⊢
  obtain ⟨r, i'⟩ := o
  cases r with
  | error e => exact ⟨⟨answers, .inr ⟨List.append_nil _, e, rfl⟩⟩, (hwaiting.trans (.refl _)).after hclock⟩
  | ok => exact ⟨⟨answers, .inl rfl⟩, (hwaiting.trans (dispatch_passes policy .tick (hends.runs hruns'))).after hclock⟩

theorem render_passes (delta : Float) (hruns : Runs i) :
    Passes t policy i.services [i.telling policy (.render delta)] (i.render t policy delta).2.services := by
  have hdispatch := dispatch_passes (t := t) policy (.render delta) hruns
  unfold Instance.render Instance.during
  rw [if_pos hruns.stage]
  simp only
  split
  · next heq =>
    rw [heq] at hdispatch
    exact hdispatch
  · next heq =>
    rw [heq] at hdispatch
    exact hdispatch.before (.one .upload _)

/-- The events that an operation tells scripts of: those that only a running package allows.  A tick tells them of
answers to requests, and then of itself, unless it fails before. -/
def Operation.Tells (t : Terms) (policy : Policy) (i : Instance) (op : Operation) (events : List Event) : Prop :=
  if i.stage = .running then
    match op with
    | .tick => ∃ answers : List Host.Completion, events = answers.map answerEvent ++ [.tick] ∨
      events = answers.map answerEvent ∧ ∃ e, (i.tick t policy).1 = .error e
    | .render delta => events = [.render delta]
    | .dispatch e => events = [e]
    | .start | .answer _ | .unload => events = []
  else events = []

/-- How an operation tells the scripts of an instance of events. -/
def Operation.tellings (t : Terms) (policy : Policy) (i : Instance) (op : Operation) : List Telling :=
  if i.stage = .running then
    match op with
    | .tick => i.tickTellings t policy
    | .render delta => [i.telling policy (.render delta)]
    | .dispatch e => [i.telling policy e]
    | .start | .answer _ | .unload => []
  else []

/-- Whatever is done with an instance is episodes. -/
theorem operation_passes (h : Holds i) (op : Operation) :
    op.Tells t policy i ((op.tellings t policy i).map Telling.event) ∧
      Passes t policy i.services (op.tellings t policy i) (op.apply t policy i).services := by
  by_cases hstage : i.stage = .running
  · simp only [Operation.Tells, Operation.tellings, if_pos hstage]
    have hruns := h.runs hstage
    cases op with
    | tick => exact tick_passes policy hruns
    | render delta => exact ⟨rfl, render_passes policy delta hruns⟩
    | dispatch e => exact ⟨rfl, dispatch_passes policy e hruns⟩
    | start => exact ⟨rfl, .turns (operation_turns t policy .start i)⟩
    | answer c => exact ⟨rfl, .turns (operation_turns t policy (.answer c) i)⟩
    | unload => exact ⟨rfl, .turns (operation_turns t policy .unload i)⟩
  · simp only [Operation.Tells, Operation.tellings, if_neg hstage]
    exact ⟨rfl, .turns (operation_turns t policy op i)⟩

end Instances

/-! ## Order -/

/-- **Events are dispatched in order.**  Whatever episodes a new package goes through, each event has the functions that
were registered for it since it was last cleared, whatever changed for other events.  A dispatch, under whatever trust,
memory and allowance, calls exactly those that its event has when it begins: in the order of their registration, each
as often as it was registered and with the arguments of the event, up to the first that fails.  It is an episode again,
whatever its functions do, and what they change comes after all that was changed before.  Whatever is done with the
instance is episodes, each dispatch with the memory that the instance has then and under the allowance of its phase. -/
theorem dispatches_in_order (t : Terms) (policy : Policy) (generation : Nat) (source : Source) :
    let i₀ := Instance.new t policy generation source
    (∀ (episodes : List (Policy × Episode)) (s : Api.Services), Story t i₀.services episodes s →
      let cs := changes (turnsOf episodes) i₀.services
      (∀ event, callbacksOf s event = since event cs ∧ since event (cs.filter (·.event = event)) = since event cs) ∧
      ∀ (policy : Policy) (e : Event) (heap : Heap) (meter : Option Lua.Meter),
        let r := fired t policy e ⟨heap, s, meter⟩
        ∃ calls, InOrder t policy e (since e.name cs) calls ⟨heap, s, meter⟩ r ∧
          Story t i₀.services (episodes ++ [(policy, .dispatch e heap meter calls)]) r.2.host ∧
          ∀ event, callbacksOf r.2.host event =
            since event (cs ++ changes ((calls.flatMap Called.turns).map (policy, ·)) s)) ∧
    ∀ (ops : List (Policy × Operation)) (episodes : List (Policy × Episode)),
      let i := afterAll t i₀ ops
      Story t i₀.services episodes i.services → ∀ (policy : Policy) (op : Operation), ∃ part : List Episode,
        op.Tells t policy i (eventsOf part) ∧ tellingsOf part = op.tellings t policy i ∧
        Story t i₀.services (episodes ++ part.map (policy, ·)) (op.apply t policy i).services := by
  intro i₀
  have hfresh : i₀.services.callbacks = ∅ :=
    Services.new_keeps (f := Services.callbacks) policy (fun _ _ => rfl) ..
  refine ⟨fun episodes s hstory => ?_, fun ops episodes => ?_⟩
  · intro cs
    have hregisters : Registers cs s := hstory.registers hfresh
    refine ⟨fun event => ⟨hregisters event, since_filter event cs⟩, fun policy e heap meter => ?_⟩
    intro r
    obtain ⟨calls, hinOrder⟩ := fired_inOrder t policy e ⟨heap, s, meter⟩
    have hdispatched := hstory.dispatch hinOrder.made
    refine ⟨calls, hregisters e.name ▸ hinOrder, hdispatched, fun event => ?_⟩
    have hafter := hdispatched.registers hfresh event
    rw [turnsOf_concat, changes_append, ← hstory.eq_play] at hafter
    exact hafter
  · intro i hstory policy op
    have hholds : Holds i := holds_afterAll generation source ops
    obtain ⟨htells, hpasses⟩ := operation_passes (t := t) policy hholds op
    obtain ⟨part, htold, hpart⟩ := hpasses _ _ hstory
    rw [← htold, ← eventsOf_eq] at htells
    exact ⟨part, htells, htold, hpart⟩

end ScriptWarden.Package
