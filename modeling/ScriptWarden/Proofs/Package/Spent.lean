import ScriptWarden.Proofs.Package.Lifecycle
import ScriptWarden.Proofs.Package.Spoken
import ScriptWarden.Proofs.Script.SetUp
import ScriptWarden.Proofs.Script.Spent
set_option autoImplicit false

/-!
# Packages: where the owner allows no instructions

While the owner's trust for a phase allows nothing, no instruction of a script runs in that phase outside finalizers: a
start ends before its entry module does anything, and an event ends with an error as soon as one of its functions is one
of a script.  If that is the first of them and no table has a finalizer, nothing is left of the event but the failure
(`no_script_runs_without_allowance`).  A function of the host that was registered as it stands runs all the same
(`printed_without_allowance`).
-/

namespace ScriptWarden.Package

open Api (Thing)
open Bridge (moduleOf)
open Lua (Heap Machine Native Value)
open Script (AllowsNothing Barred StopError Vm)
open Trust (Policy)

/-! ## Between two runs -/

/-- What scripts printed was handed over. -/
def HandedOver (i : Instance) : Prop := ∀ heap, i.heap = some heap → heap.printed.isEmpty = true

section HandedOver

variable (t : Terms) (policy : Policy) {i : Instance}

theorem handOver_isEmpty (w : Vm Thing) : (Instance.handOver w).1.printed.isEmpty = true := by
  obtain ⟨heap, services, meter⟩ := w
  unfold Instance.handOver
  simp only
  split
  · assumption
  · rfl

theorem handOver_marked (w : Vm Thing) : (Instance.handOver w).1.marked = w.heap.marked := by
  obtain ⟨heap, services, meter⟩ := w
  unfold Instance.handOver
  simp only
  split <;> rfl

theorem handedOver_of_none (h : i.heap = none) : HandedOver i := by
  intro heap hheap
  rw [h] at hheap
  cases hheap

theorem handedOver_fault (s : Script.Setting Thing) (e : Script.Error) : HandedOver (i.fault s e).2 := by
  obtain ⟨services, heq⟩ := fault_eq s i e
  rw [heq]
  exact handedOver_of_none rfl

theorem handedOver_runScripts {α : Type} (h : HandedOver i) (s : Script.Setting Thing)
    (run : Vm Thing → Script.Result Thing α) : HandedOver (i.runScripts s run).2 := by
  obtain ⟨source, stage, heap, services, lastError⟩ := i
  cases heap with
  | none => exact h
  | some heap =>
    unfold Instance.runScripts
    simp only
    split
    · intro heap' hheap'
      obtain rfl := Option.some.inj hheap'
      exact handOver_isEmpty _
    · exact handedOver_fault s _

theorem handedOver_dispatch (h : HandedOver i) (e : Event) : HandedOver (i.dispatch t policy e).2 := by
  have hconsulted : HandedOver { i with services := (i.services.trustValue policy e.phase.capability).2 } := h
  exact during_keeps h (handedOver_runScripts hconsulted _ _)

theorem handedOver_tick (h : HandedOver i) : HandedOver (i.tick t policy).2 :=
  tick_keeps (P := HandedOver) (fun _ h => h) (fun _ _ _ _ h => h) (fun _ e h => handedOver_dispatch t policy h e) h

theorem handedOver_render (h : HandedOver i) (delta : Float) : HandedOver (i.render t policy delta).2 :=
  render_keeps (P := HandedOver) (fun _ e h => handedOver_dispatch t policy h e) (fun _ h => h) h delta

theorem handedOver_start (h : HandedOver i) : HandedOver (i.start t policy).2 := by
  refine during_keeps h ?_
  split
  · exact h
  · next entry _ =>
    simp only
    split
    · obtain ⟨services, heq⟩ := failSetup_eq (t.setting policy) _ _
      rw [heq]
      exact handedOver_of_none rfl
    · refine handedOver_runScripts (fun heap hheap => ?_) _ _
      obtain rfl := Option.some.inj hheap
      exact handOver_isEmpty _

theorem handedOver_unload (h : HandedOver i) (s : Script.Setting Thing) : HandedOver (i.unload s) := by
  unfold Instance.unload
  split
  · exact h
  · obtain ⟨services, heq⟩ := release_eq s { i with services := i.services.shutdown }
    simp only [heq]
    exact handedOver_of_none rfl

theorem handedOver_apply (h : HandedOver i) (op : Operation) : HandedOver (op.apply t policy i) := by
  cases op with
  | start => exact handedOver_start t policy h
  | tick => exact handedOver_tick t policy h
  | render delta => exact handedOver_render t policy h delta
  | dispatch e => exact handedOver_dispatch t policy h e
  | answer c => exact h
  | unload => exact handedOver_unload h _

theorem handedOver_afterAll (h : HandedOver i) (ops : List (Policy × Operation)) : HandedOver (afterAll t i ops) := by
  induction ops generalizing i with
  | nil => exact h
  | cons o rest ih => exact ih (handedOver_apply t o.1 h o.2)

end HandedOver

/-! ## The owner -/

/-- Nothing that happens to a package gives it to another owner. -/
theorem principal_turn (turn : Turn) (policy : Policy) (s : Api.Services) :
    (turn.apply policy s).principal = s.principal := by
  have hturn := turn_mediated turn
  cases turn with
  | call heap type name args =>
    obtain hquiet | ⟨c, -, hdecided⟩ := call_cases heap type name args policy s
    · exact hquiet.principal_eq
    · unfold Api.Decided at hdecided
      split at hdecided
      · exact hdecided.principal_eq
      · obtain ⟨lines, hlines⟩ := hdecided.host_eq
        exact congrArg (·.principal) hlines
  | clock =>
    obtain ⟨lines, hlines⟩ := hturn policy s
    exact congrArg (·.principal) hlines
  | _ => exact (hturn policy s).principal_eq

theorem principal_play (turns : List (Policy × Turn)) (s : Api.Services) :
    (play s turns).principal = s.principal := by
  induction turns generalizing s with
  | nil => rfl
  | cons turn rest ih => exact (ih _).trans (principal_turn turn.2 turn.1 s)

theorem principal_turns {kind : Turn → Prop} {policy : Policy} {s s' : Api.Services} (h : Turns kind policy s s') :
    s'.principal = s.principal := by
  obtain ⟨turns, -, rfl⟩ := h
  exact principal_play _ s

/-- An instance between two runs of scripts: what they printed was handed over, and the services are the owner's. -/
structure AtRest (i : Instance) : Prop where
  printed : HandedOver i
  owner : i.services.principal = i.source.principal

theorem atRest_afterAll (t : Terms) (policy : Policy) (generation : Nat) (source : Source)
    (ops : List (Policy × Operation)) : AtRest (afterAll t (.new t policy generation source) ops) := by
  refine ⟨handedOver_afterAll t (handedOver_of_none rfl) ops, ?_⟩
  obtain ⟨parts, -, hplay⟩ := run_is_play t (.new t policy generation source) ops
  rw [hplay, principal_play, (lived_afterAll t policy generation source ops).source_eq]
  exact Services.new_keeps (f := Services.principal) policy (fun _ _ => rfl) ..

/-! ## Finalizers that are left -/

/-- No table of an instance has a finalizer. -/
def Unmarked (i : Instance) : Prop := ∀ heap, i.heap = some heap → heap.marked = []

theorem release_of_unmarked (s : Script.Setting Thing) {w : Vm Thing} (h : w.heap.marked = []) :
    Script.release s w = (.ok (), w) := if_pos (List.isEmpty_iff.2 h)

section Unmarked

variable {s : Script.Setting Thing} {i : Instance}

theorem handOver_of_isEmpty {w : Vm Thing} (h : w.heap.printed.isEmpty = true) :
    Instance.handOver w = (w.heap, w.host) := by
  obtain ⟨heap, services, meter⟩ := w
  exact if_pos h

theorem release_unmarked (hmarked : Unmarked i) (hprinted : HandedOver i) :
    i.release s = { i with heap := none } := by
  obtain ⟨source, stage, heap, services, lastError⟩ := i
  cases heap with
  | none => rfl
  | some heap =>
    have hreleased := release_of_unmarked s (w := ⟨heap, services, none⟩) (hmarked heap rfl)
    unfold Instance.release
    simp only [hreleased, handOver_of_isEmpty (w := ⟨heap, services, none⟩) (hprinted heap rfl)]
    rfl

/-- How an instance fails does not depend on its memory then. -/
theorem fault_unmarked (hmarked : Unmarked i) (hprinted : HandedOver i) (e : Script.Error) :
    i.fault s e = { i with heap := none }.fault s e := by
  have hreleased := release_unmarked (s := s) (i := i.blame e) hmarked hprinted
  rw [fault_of_blame, hreleased]
  rfl

end Unmarked

/-! ## Runs without an allowance -/

section Stopped

variable {s : Script.Setting Thing} {i : Instance} {heap : Heap} {phase : Phase} {budget : Trust.Effective}

/-- Scripts that come to nothing leave the instance as it is. -/
theorem runScripts_done {α : Type} {run : Vm Thing → Script.Result Thing α} {a : α} (hheap : i.heap = some heap)
    (hprinted : heap.printed.isEmpty = true)
    (hrun : run ⟨heap, i.services, some (Script.meterOf phase budget)⟩ =
      (.ok a, ⟨heap, i.services, some (Script.meterOf phase budget)⟩)) :
    i.runScripts s (Script.limited phase budget run) = (.ok (), i) := by
  rw [runScripts_ran hheap hrun, handOver_of_isEmpty (w := ⟨heap, i.services, none⟩) hprinted, ← hheap]

/-- Scripts that end with an error make the instance fail. -/
theorem runScripts_failed {α : Type} {run : Vm Thing → Script.Result Thing α} {e : Script.Error} {w : Vm Thing}
    (hheap : i.heap = some heap)
    (hrun : run ⟨heap, i.services, some (Script.meterOf phase budget)⟩ = (.error e, w)) :
    i.runScripts s (Script.limited phase budget run) = { i with
      heap := some (Instance.handOver ⟨w.heap, w.host, none⟩).1
      services := (Instance.handOver ⟨w.heap, w.host, none⟩).2 }.fault s e := by
  obtain ⟨source, stage, heap', services, lastError⟩ := i
  obtain rfl : heap' = some heap := hheap
  simp only [Instance.runScripts, Script.limited, hrun]

/-- The instance keeps the services as the scripts left them if they printed nothing and there is no finalizer. -/
theorem runScripts_failed_silently {α : Type} {run : Vm Thing → Script.Result Thing α} {e : Script.Error}
    {w w' : Vm Thing} (hheap : i.heap = some heap) (hprinted : heap.printed.isEmpty = true)
    (hmarked : heap.marked = []) (hrun : run ⟨heap, i.services, some (Script.meterOf phase budget)⟩ = (.error e, w))
    (hstart : w'.heap.printed = heap.printed ∧ w'.heap.marked = heap.marked) (hsame : Script.Untouched w' w) :
    i.runScripts s (Script.limited phase budget run) = { i with heap := none, services := w'.host }.fault s e := by
  have hempty : w.heap.printed.isEmpty = true :=
    (congrArg (·.isEmpty) (hsame.printed_eq.trans hstart.1)).trans hprinted
  have hnone : w.heap.marked = [] := (hsame.marked_eq.trans hstart.2).trans hmarked
  rw [runScripts_failed hheap hrun, handOver_of_isEmpty (w := ⟨w.heap, w.host, none⟩) hempty, ← hsame.host_eq]
  refine fault_unmarked (fun heap' hheap' => ?_) (fun heap' hheap' => ?_) e
  · obtain rfl := Option.some.inj hheap'
    exact hnone
  · obtain rfl := Option.some.inj hheap'
    exact hempty

end Stopped

/-! ## Events and starts -/

/-- What an event comes to while its phase allows no instructions.  As long as no table has a finalizer, nothing happens
without functions, and if the first of them is one of a script, the instance fails with its services as they were.  If
any is, it fails in any case.  Whatever the functions are, only finalizers run. -/
structure EventStopped (t : Terms) (policy : Policy) (e : Event) (i : Instance) : Prop where
  unheard : i.services.callbacks[e.name]?.getD [] = [] → Unmarked i →
    i.dispatch t policy e = (.ok (), consulted policy e.phase i)
  first : ∀ id rest, i.services.callbacks[e.name]?.getD [] = .closure id :: rest → Unmarked i → ∃ err,
    StopError (Script.meterOf e.phase none).message err ∧
      i.dispatch t policy e = (consulted policy e.phase i).fault (t.setting policy) err
  later : ∀ id, Value.closure id ∈ i.services.callbacks[e.name]?.getD [] → ∃ heap services err,
    i.dispatch t policy e = { i with heap := some heap, services }.fault (t.setting policy) err
  ran : ∀ heap, i.heap = some heap → ∃ meter, (Script.fire (t.setting policy) e.name (Script.eventArguments e)
    ⟨heap, (consulted policy e.phase i).services, some (Script.meterOf e.phase none)⟩).2.meter = some meter ∧
      meter.ran = meter.missed

/-- What a start comes to while its phase allows no instructions.  Unless the package cannot be set up, it is announced,
its entry is taken out of the modules that have not been started, and the instance fails; that is all if no table has a
finalizer yet. -/
def StartStopped (t : Terms) (policy : Policy) (entry : String) (i : Instance) : Prop :=
  match Instance.setUp (t.setting policy) t i.source.modules i.services with
  | (.error e, _) => (i.start t policy).1 = .error (.setup i.source.name e.message)
  | (.ok (), w) =>
    let announced := { i with services := (Instance.handOver w).2 }.note .info
      ("starting entry '" ++ entry ++ "' for " ++ i.source.principal)
    let services := (Bridge.takeModule (moduleOf entry) (consulted policy .init announced).services).2
    (∃ heap services err, i.start t policy = { i with heap := some heap, services }.fault (t.setting policy) err) ∧
      (w.heap.marked = [] → ∃ err,
        i.start t policy = { i with heap := none, services }.fault (t.setting policy) err)

section Laws

variable {t : Terms} {policy : Policy} {i : Instance}

theorem eventStopped (hrest : AtRest i) (hrunning : i.stage = .running) {heap : Heap} (hheap : i.heap = some heap)
    {e : Event} (hnothing : AllowsNothing (policy.resolve i.source.principal e.phase.capability)) :
    EventStopped t policy e i := by
  have hprinted := hrest.printed heap hheap
  have hregistered : (consulted policy e.phase i).services.callbacks[e.name]?.getD [] =
      i.services.callbacks[e.name]?.getD [] :=
    congrArg (·[e.name]?.getD []) (Services.trustValue_keeps (f := Services.callbacks) policy _ (fun _ _ => rfl) _)
  have hbudget : (i.services.trustValue policy e.phase.capability).1 =
      policy.resolve i.source.principal e.phase.capability := by
    rw [Api.trustValue_eq, hrest.owner]
  have hdispatch : i.dispatch t policy e = (consulted policy e.phase i).runScripts (t.setting policy)
      (Script.limited e.phase none (Script.fire (t.setting policy) e.name (Script.eventArguments e))) := by
    rw [← Script.limited_of_nothing hnothing, ← hbudget]
    exact if_pos hrunning
  have hbarred : Barred (Script.meterOf e.phase none).message
      (⟨heap, (consulted policy e.phase i).services, some (Script.meterOf e.phase none)⟩ : Vm Thing) :=
    Script.barred_meterOf Script.allowsNothing_none e.phase heap _
  have hfails {err : Script.Error} {w w' : Vm Thing} (hw : w.host = (consulted policy e.phase i).services)
      (hcalls : Script.callEach (t.setting policy) (Script.eventArguments e)
        (i.services.callbacks[e.name]?.getD []) w = (.error err, w')) :
      Script.fire (t.setting policy) e.name (Script.eventArguments e) w = (.error err, w') := by
    rw [← hregistered, ← hw] at hcalls
    exact Script.fire_of_error hcalls
  refine ⟨fun hnone _ => ?_, fun id rest hfirst hunmarked => ?_, fun id hmem => ?_, fun heap' hheap' => ?_⟩
  · rw [hdispatch]
    refine runScripts_done (a := 0) hheap hprinted ?_
    simp only [Script.fire, hregistered, hnone, Script.callEach, List.length_nil]
  · have hmarked := hunmarked heap hheap
    obtain ⟨err, w, hcalls, hstop⟩ := Script.callEach_stops t policy hbarred id (Script.eventArguments e) rest
    obtain ⟨herror, hsame⟩ := hstop hmarked
    rw [← hfirst] at hcalls
    have hfailed := runScripts_failed_silently (s := t.setting policy) (i := consulted policy e.phase i) hheap
      hprinted hmarked (hfails rfl hcalls) ⟨rfl, rfl⟩ hsame
    have hforgets := fault_unmarked (s := t.setting policy) (i := consulted policy e.phase i) hunmarked hrest.printed
      err
    exact ⟨err, herror, hdispatch.trans (hfailed.trans hforgets.symm)⟩
  · obtain ⟨err, hcalls⟩ := Script.callEach_fails t policy hbarred (Script.eventArguments e) hmem
    have hfailed := runScripts_failed (s := t.setting policy) (i := consulted policy e.phase i) hheap
      (hfails rfl (Prod.ext hcalls rfl))
    exact ⟨_, _, err, hdispatch.trans hfailed⟩
  · obtain rfl := Option.some.inj (hheap.symm.trans hheap')
    exact (hbarred.keeps (fire_rel t (Script.admits_account policy) e.name (Script.eventArguments e) _)).ran_eq

/-- The entry of an instance that was set up is taken out, and that is all if no table has a finalizer. -/
theorem enter_stopped {j : Instance} {heap : Heap} (hheap : j.heap = some heap)
    (hprinted : heap.printed.isEmpty = true) (entry : String)
    (hnothing : AllowsNothing (policy.resolve j.services.principal Phase.init.capability)) :
    (∃ heap services err,
      j.enter t policy entry = { j with heap := some heap, services }.fault (t.setting policy) err) ∧
      (heap.marked = [] → ∃ err, j.enter t policy entry = { j with
        heap := none
        services := (Bridge.takeModule (moduleOf entry) (consulted policy .init (j.note .info
          ("starting entry '" ++ entry ++ "' for " ++ j.source.principal))).services).2 }.fault
            (t.setting policy) err) := by
  unfold Instance.enter
  generalize hnoted : j.note .info _ = noted
  have hbudget : (noted.services.trustValue policy Phase.init.capability).1 =
      policy.resolve j.services.principal Phase.init.capability := by
    rw [Api.trustValue_eq, ← hnoted]
    rfl
  have hheld : (consulted policy .init noted).heap = some heap := by
    rw [← hheap, ← hnoted]
    rfl
  have hbarred : Barred (Script.meterOf .init none).message
      (⟨heap, (consulted policy .init noted).services, some (Script.meterOf .init none)⟩ : Vm Thing) :=
    Script.barred_meterOf Script.allowsNothing_none .init heap _
  obtain ⟨err, w, hstart, hstop⟩ := Script.startModule_stops t policy hbarred entry
  have hfailed := runScripts_failed (s := t.setting policy) hheld hstart
  have hsilent (hmarked : heap.marked = []) := runScripts_failed_silently (s := t.setting policy) hheld hprinted
    hmarked hstart ⟨rfl, rfl⟩ (hstop hmarked)
  rw [← Script.limited_of_nothing hnothing, ← hbudget] at hfailed hsilent
  rw [← hnoted] at hfailed hsilent ⊢
  exact ⟨⟨_, _, err, hfailed⟩, fun hmarked => ⟨err, hsilent hmarked⟩⟩

theorem startStopped (hrest : AtRest i) (hcreated : i.stage = .created) {entry : String}
    (hentry : i.source.resolveEntry = .ok entry)
    (hnothing : AllowsNothing (policy.resolve i.source.principal Phase.init.capability)) :
    StartStopped t policy entry i := by
  have howner := principal_turns (setUp_turns t policy i.source.modules i.services)
  rw [hrest.owner] at howner
  obtain ⟨source, stage, heap, services, lastError⟩ := i
  unfold StartStopped Instance.start Instance.during
  rw [if_pos hcreated]
  simp only at hentry hnothing howner ⊢
  rw [hentry]
  cases hready : Instance.setUp (t.setting policy) t source.modules services with
  | mk r w =>
    cases r with
    | error e => rfl
    | ok =>
      rw [hready] at howner
      have hprincipal : (Instance.handOver w).2.principal = source.principal :=
        (principal_turns (handOver_turns policy w)).trans howner
      obtain ⟨hfails, hsilent⟩ := enter_stopped (t := t)
        (j := ⟨source, .running, some (Instance.handOver w).1, (Instance.handOver w).2, lastError⟩)
        rfl (handOver_isEmpty w) entry (hprincipal ▸ hnothing)
      refine ⟨hfails, fun hmarked => hsilent ?_⟩
      rw [handOver_marked, hmarked]

end Laws

/-- **Without an allowance no script runs.**  An instance rests between two runs of its scripts, whatever was done with
it.  While the owner's value for a phase is undefined, zero or negative, a start in that phase takes the entry out of
the modules and fails; an event does nothing if no function is registered for it, and fails with everything as it was
if the first is a function of a script; it fails, too, if any is; and no instruction of a script runs in any case
outside finalizers.  Where some table has a finalizer, what that does may be seen besides; after the sandbox script that
is built in none has one. -/
theorem no_script_runs_without_allowance (t : Terms) :
    (∀ policy generation source ops, let i := afterAll t (.new t policy generation source) ops
      AtRest i ∧ i.source = source ∧ (i.heap.isSome ↔ i.stage = .running)) ∧
    (∀ i, AtRest i → i.stage = .running → i.heap.isSome → ∀ policy e,
      AllowsNothing (policy.resolve i.source.principal e.phase.capability) → EventStopped t policy e i) ∧
    (∀ i, AtRest i → i.stage = .created → ∀ entry, i.source.resolveEntry = .ok entry → ∀ policy,
      AllowsNothing (policy.resolve i.source.principal Phase.init.capability) → StartStopped t policy entry i) ∧
    (t.sandbox = Script.builtinSandbox → ∀ s modules services w,
      Instance.setUp s t modules services = (.ok (), w) → w.heap.marked = []) := by
  refine ⟨fun policy generation source ops => ?_, fun i hrest hrunning hheap policy e hnothing => ?_,
    fun i hrest hcreated entry hentry policy hnothing => startStopped hrest hcreated hentry hnothing,
    fun hsandbox s modules services w hready => Script.unmarked_setUp hsandbox hready⟩
  · exact ⟨atRest_afterAll t policy generation source ops, (lived_afterAll t policy generation source ops).source_eq,
      (holds_afterAll generation source ops).heap_iff⟩
  · obtain ⟨heap, hheap⟩ := Option.isSome_iff_exists.1 hheap
    exact eventStopped hrest hrunning hheap hnothing

/-- No phase of anybody has a value where nobody set one. -/
theorem default_allowsNothing (principal : String) (phase : Phase) :
    AllowsNothing ((default : Policy).resolve principal phase.capability) := by
  intro n hn
  cases hn

/-- The owner of a package whose script registered a function of its own allows no ticks any more: the next one fails
with everything as it was.  If the owner had allowed no start, the script would not have run. -/
theorem hearing_stopped : ∃ i, (Instance.new roomy default 0 (spoken hearing)).start roomy granting = (.ok (), i) ∧
    AllowsNothing ((default : Policy).resolve i.source.principal Phase.tick.capability) ∧
    (∃ err, StopError (Script.meterOf .tick none).message err ∧
      i.dispatch roomy default .tick = (consulted default .tick i).fault (roomy.setting default) err) ∧
    StartStopped roomy default "" (.new roomy default 0 (spoken hearing)) := by
  obtain ⟨cs, id, htext, hspeaks, hregistered, hmarked⟩ := hearing_chars
  have hstart := start_spoken htext hspeaks
  obtain ⟨hrests, hevents, hstarts, -⟩ := no_script_runs_without_allowance roomy
  obtain ⟨hrest, -, hheap⟩ := hrests default 0 (spoken hearing) [(granting, .start)]
  rw [afterAll_start, hstart] at hrest hheap
  have hfirst : (running hearing cs).services.callbacks[Event.tick.name]?.getD [] = [.closure id] :=
    congrArg (·.getD []) hregistered
  have hunmarked : Unmarked (running hearing cs) := by
    intro heap hheld
    rw [hheld] at hmarked
    exact Option.some.inj hmarked
  have hstopped := hevents _ hrest rfl (hheap.2 rfl) default .tick (default_allowsNothing _ .tick)
  refine ⟨running hearing cs, hstart, default_allowsNothing _ .tick, hstopped.first id [] hfirst hunmarked, ?_⟩
  · exact hstarts _ (hrests default 0 (spoken hearing) []).1 rfl "" rfl default (default_allowsNothing _ .init)

/-- A script that registers a function of the host as it stands. -/
def registering : String := "events:register('tick', print)"

theorem registering_chars : ∃ cs, registering = String.ofList cs ∧ Speaks cs ∧
    (running registering cs).services.callbacks["tick"]? = some [.host (.output "info")] ∧
    ((running registering cs).dispatch roomy default .tick).1.toBool ∧
    ((running registering cs).dispatch roomy default .tick).2.stage = .running ∧
    ((running registering cs).dispatch roomy default .tick).2.services.log = [⟨"info", "nil"⟩] := by
  refine ⟨_, rfl, ?_, ?_, ?_, ?_, ?_⟩ <;> decide +kernel

/-- The owner of a package whose script registered such a function allows no ticks any more: the next one prints all the
same, and does not fail. -/
theorem printed_without_allowance : ∃ i j,
    (Instance.new roomy default 0 (spoken registering)).start roomy granting = (.ok (), i) ∧
    AllowsNothing ((default : Policy).resolve i.source.principal Phase.tick.capability) ∧
    i.services.callbacks["tick"]? = some [.host (.output "info")] ∧
    i.dispatch roomy default .tick = (.ok (), j) ∧ j.stage = .running ∧ j.services.log = [⟨"info", "nil"⟩] := by
  obtain ⟨cs, htext, hspeaks, hregistered, hok, hstage, hlog⟩ := registering_chars
  have hstart := start_spoken htext hspeaks
  exact ⟨_, _, hstart, default_allowsNothing _ .tick, hregistered, eq_ok_of_toBool hok, hstage, hlog⟩

end ScriptWarden.Package
