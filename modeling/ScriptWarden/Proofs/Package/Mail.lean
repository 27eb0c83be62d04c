import ScriptWarden.Proofs.Api.Surface
import ScriptWarden.Proofs.Package.Lifecycle
set_option autoImplicit false

/-!
# Packages: answers to requests

The mailbox of an instance is a queue.  What happens to it is written down as *marks*: an answer was accepted, or
scripts were told of an event.  The host may answer at any time, also while scripts run (`Amid`).  Whatever a tick
comes to, the answers that waited before and those that were accepted meanwhile are those that scripts were told of
and those that wait after (`ticks_account`); and a tick that fails at no answer has told of all of them before it tells
of itself (`ticks_complete`).  What an instance does alone is such a tick too, and it does come to its end
(`tick_ticks`): each request that brings a further answer takes a unit of a budget.
-/

namespace ScriptWarden.Package

open Host (Completion)
open Trust (Policy)

/-! ## Turns and the mailbox -/

section Turns

variable {policy : Policy} {s s' : Api.Services}

/-- Steady turns only add answers that are paid for. -/
theorem turn_posts {turn : Turn} (hsteady : turn.Steady) (s : Api.Services) : Posted s (turn.apply policy s) := by
  cases turn with
  | call heap type name args => exact Api.bridgeCall_posts policy type name args ⟨heap, s, none⟩
  | field heap type name state =>
    unfold Turn.apply
    simp only
    split
    · next fieldType get hmember =>
      exact (Bridge.quiet_readField (Api.surface_mediates type name _ hmember state)).posts ⟨heap, s, none⟩
    · exact .refl s
  | method type name =>
    unfold Turn.apply
    simp only
    split
    · exact .refl s
    · exact .of_eq rfl rfl rfl
  | consult c =>
    have hkeeps := Services.trustValue_keeps (f := fun s : Api.Services => (s.generation, s.mailbox.waiting, s.gate))
      policy s (fun _ _ => rfl) c
    obtain ⟨hgeneration, hrest⟩ := Prod.mk.inj hkeeps
    obtain ⟨hwaiting, hgate⟩ := Prod.mk.inj hrest
    exact .of_eq hgeneration hwaiting hgate
  | upload =>
    have hkeeps := Services.uploadDirty_keeps (f := fun s : Api.Services => (s.generation, s.mailbox.waiting, s.gate))
      s (fun _ _ => rfl) fun _ _ => rfl
    obtain ⟨hgeneration, hrest⟩ := Prod.mk.inj hkeeps
    obtain ⟨hwaiting, hgate⟩ := Prod.mk.inj hrest
    exact .of_eq hgeneration hwaiting hgate
  | clock => exact hsteady.elim
  | taken => exact hsteady.elim
  | delivered c => exact hsteady.elim
  | drained => exact hsteady.elim
  | _ => exact .of_eq rfl rfl rfl

theorem posted_of_turns (h : Turns Turn.Steady policy s s') : Posted s s' :=
  h.closed .refl .trans fun _ s hsteady => turn_posts hsteady s

end Turns

/-! ## Marks -/

/-- Something about the answers to the requests of one load. -/
inductive Mark where
  /-- The mailbox took an answer. -/
  | accepted (c : Completion)
  /-- The scripts were told of an event. -/
  | told (e : Event)

/-- The event of an answer. -/
def answerEvent (c : Completion) : Event := .networkResponse c.request c.status c.body

/-- The answer that a mark says was accepted. -/
def Mark.accepted? : Mark → Option Completion
  | .accepted c => some c
  | .told _ => none

/-- The answer that a mark says the scripts were told of. -/
def Mark.answered? : Mark → Option Completion
  | .told (.networkResponse request status body) => some ⟨request, status, body⟩
  | _ => none

/-- The answers that were accepted, in order. -/
def accepted (marks : List Mark) : List Completion := marks.filterMap Mark.accepted?

/-- The answers that scripts were told of, in order. -/
def answered (marks : List Mark) : List Completion := marks.filterMap Mark.answered?

@[simp] theorem accepted_nil : accepted [] = [] := rfl

@[simp] theorem answered_nil : answered [] = [] := rfl

@[simp] theorem accepted_append (marks marks' : List Mark) :
    accepted (marks ++ marks') = accepted marks ++ accepted marks' := List.filterMap_append

@[simp] theorem answered_append (marks marks' : List Mark) :
    answered (marks ++ marks') = answered marks ++ answered marks' := List.filterMap_append

@[simp] theorem accepted_cons_accepted (c : Completion) (marks : List Mark) :
    accepted (.accepted c :: marks) = c :: accepted marks := rfl

@[simp] theorem answered_cons_accepted (c : Completion) (marks : List Mark) :
    answered (.accepted c :: marks) = answered marks := rfl

@[simp] theorem accepted_cons_told (e : Event) (marks : List Mark) :
    accepted (.told e :: marks) = accepted marks := rfl

@[simp] theorem answered_cons_answer (c : Completion) (marks : List Mark) :
    answered (.told (answerEvent c) :: marks) = c :: answered marks := rfl

@[simp] theorem answered_cons_tick (marks : List Mark) : answered (.told .tick :: marks) = answered marks := rfl

@[simp] theorem answered_cons_render (delta : Float) (marks : List Mark) :
    answered (.told (.render delta) :: marks) = answered marks := rfl

@[simp] theorem accepted_map (cs : List Completion) : accepted (cs.map .accepted) = cs := by
  induction cs with
  | nil => rfl
  | cons c rest ih => rw [List.map_cons, accepted_cons_accepted, ih]

@[simp] theorem answered_map (cs : List Completion) : answered (cs.map .accepted) = [] := by
  induction cs with
  | nil => rfl
  | cons c rest ih => rw [List.map_cons, answered_cons_accepted, ih]

/-! ## Answers that come meanwhile -/

namespace Instance

/-- The answers that wait. -/
def waiting (i : Instance) : List Completion := i.services.mailbox.waiting

/-- The instance with other answers that wait. -/
def withWaiting (i : Instance) (waiting : List Completion) : Instance :=
  { i with services := { i.services with mailbox := { i.services.mailbox with waiting } } }

@[simp] theorem waiting_withWaiting (i : Instance) (waiting : List Completion) :
    (i.withWaiting waiting).waiting = waiting := rfl

/-- An answer that is taken waits after all others. -/
theorem waiting_receive (i : Instance) (c : Completion) :
    (i.receive c).waiting = i.waiting ++ if (i.services.mailbox.deliver c).1 then [c] else [] := by
  change (i.services.mailbox.deliver c).2.waiting = i.services.mailbox.waiting ++ _
  unfold Host.Mailbox.deliver
  split
  · rfl
  · exact (List.append_nil _).symm

end Instance

/-- The answers that came between two states of an instance: those that wait more. -/
def arrivals (i i' : Instance) : List Completion := i'.waiting.drop i.waiting.length

/-- What becomes of an outcome if the host answers further requests meanwhile.  `came` are the answers that came, those
to requests that were answered at once among them.  Scripts see nothing of the mailbox, so nothing else changes. -/
structure Amid (i : Instance) (o : Outcome) (came : List Completion) (o' : Outcome) : Prop where
  arrivals : (arrivals i o.2).Sublist came
  /-- Only an open mailbox takes further answers. -/
  accepts : came = Package.arrivals i o.2 ∨ (i.services.mailbox.live && i.services.mailbox.isOpen) = true
  outcome : o' = (o.1, o.2.withWaiting (i.waiting ++ came))

section Amid

variable {i : Instance} {came : List Completion} {o o' : Outcome}

/-- The host may answer nothing more. -/
theorem amid_alone (ho : o = o') (h : Posted i.services o.2.services) : Amid i o (arrivals i o.2) o' := by
  subst ho
  obtain ⟨new, hwaiting, -⟩ := h.mail
  have hwaiting : o.2.waiting = i.waiting ++ new := hwaiting
  have hnew : arrivals i o.2 = new := by rw [arrivals, hwaiting, List.drop_left]
  refine ⟨.refl _, .inl rfl, ?_⟩
  rw [hnew, ← hwaiting]
  rfl

theorem Amid.waiting (h : Amid i o came o') : o'.2.waiting = i.waiting ++ came := by
  rw [h.outcome, Instance.waiting_withWaiting]

theorem Amid.generation (h : Amid i o came o') (hposted : Posted i.services o.2.services) :
    o'.2.services.generation = i.services.generation := by
  rw [h.outcome]
  exact hposted.generation

theorem Amid.source (h : Amid i o came o') : o'.2.source = o.2.source := by
  rw [h.outcome]
  rfl

theorem Amid.holds (h : Amid i o came o') (hholds : Holds o.2) : Holds o'.2 := by
  rw [h.outcome]
  exact hholds

theorem ends_withWaiting (h : Ends i o) (waiting : List Completion) : Ends i (o.1, o.2.withWaiting waiting) := by
  cases h with
  | done heap services => exact .done heap { services with mailbox := { services.mailbox with waiting } }
  | failed services e => exact .failed { services with mailbox := { services.mailbox with waiting } } e

theorem Amid.ends (h : Amid i o came o') (hends : Ends i o) : Ends i o' := by
  rw [h.outcome]
  exact ends_withWaiting hends _

end Amid

/-! ## Ticks -/

/-- The marks of telling scripts of an event, while answers come. -/
def tellMarks (e : Event) (came : List Completion) : List Mark := .told e :: came.map .accepted

@[simp] theorem accepted_tellMarks (e : Event) (came : List Completion) : accepted (tellMarks e came) = came := by
  rw [tellMarks, accepted_cons_told, accepted_map]

@[simp] theorem answered_tellMarks_answer (c : Completion) (came : List Completion) :
    answered (tellMarks (answerEvent c) came) = [c] := by
  rw [tellMarks, answered_cons_answer, answered_map]

@[simp] theorem answered_tellMarks_tick (came : List Completion) : answered (tellMarks .tick came) = [] := by
  rw [tellMarks, answered_cons_tick, answered_map]

@[simp] theorem answered_tellMarks_render (delta : Float) (came : List Completion) :
    answered (tellMarks (.render delta) came) = [] := by
  rw [tellMarks, answered_cons_render, answered_map]

/-- Telling scripts of the answers that wait, the oldest first, up to the first error. -/
inductive Serves (t : Terms) (policy : Policy) : Instance → List Mark → Outcome → Prop
  /-- Nothing waits any more. -/
  | done {i : Instance} (hnone : i.waiting = []) : Serves t policy i [] (.ok (), i)
  | failed {i i' : Instance} {c : Completion} {rest came : List Completion} {e : Failure}
    (hnext : i.waiting = c :: rest)
    (htold : Amid (i.withWaiting rest) ((i.withWaiting rest).dispatch t policy (answerEvent c)) came (.error e, i')) :
    Serves t policy i (tellMarks (answerEvent c) came) (.error e, i')
  | told {i i' : Instance} {c : Completion} {rest came : List Completion} {marks : List Mark} {o : Outcome}
    (hnext : i.waiting = c :: rest)
    (htold : Amid (i.withWaiting rest) ((i.withWaiting rest).dispatch t policy (answerEvent c)) came (.ok (), i'))
    (hrest : Serves t policy i' marks o) : Serves t policy i (tellMarks (answerEvent c) came ++ marks) o

/-- A tick, with what it does to the answers, while the host may answer further requests. -/
inductive Ticks (t : Terms) (policy : Policy) (i : Instance) : List Mark → Outcome → Prop
  /-- The scripts fail at an answer. -/
  | failed {i' : Instance} {marks : List Mark} {e : Failure}
    (hserves : Serves t policy { i with services := i.services.tickQuotas policy } marks (.error e, i')) :
    Ticks t policy i marks (.error e, i')
  /-- The scripts are told of the tick once they have been told of every answer. -/
  | told {i' : Instance} {marks : List Mark} {came : List Completion} {o : Outcome}
    (hserves : Serves t policy { i with services := i.services.tickQuotas policy } marks (.ok (), i'))
    (htold : Amid i' (i'.dispatch t policy .tick) came o) : Ticks t policy i (marks ++ tellMarks .tick came) o

section Ticks

variable {t : Terms} {policy : Policy} {i i' : Instance} {marks : List Mark} {o : Outcome}

theorem dispatch_posts (t : Terms) (policy : Policy) (i : Instance) (e : Event) :
    Posted i.services (i.dispatch t policy e).2.services :=
  posted_of_turns (dispatch_turns t policy i e)

/-- The books are balanced: what waited and what came is what was told and what waits. -/
theorem serves_account (h : Serves t policy i marks o) :
    i.waiting ++ accepted marks = answered marks ++ o.2.waiting := by
  induction h with
  | done hnone => rw [accepted_nil, answered_nil, List.append_nil, List.nil_append]
  | failed hnext htold =>
    rw [hnext, accepted_tellMarks, answered_tellMarks_answer, htold.waiting, Instance.waiting_withWaiting]
    rfl
  | @told i i' c rest came marks o hnext htold hrest ih =>
    have hwaiting : i'.waiting = rest ++ came := htold.waiting
    calc i.waiting ++ accepted (tellMarks (answerEvent c) came ++ marks)
        = [c] ++ (i'.waiting ++ accepted marks) := by
          rw [hnext, hwaiting, accepted_append, accepted_tellMarks, ← List.singleton_append]
          simp only [List.append_assoc]
      _ = answered (tellMarks (answerEvent c) came ++ marks) ++ o.2.waiting := by
          rw [ih, answered_append, answered_tellMarks_answer, List.append_assoc]

/-- Nothing waits once all answers were told of without an error. -/
theorem waiting_of_serves (h : Serves t policy i marks o) (hok : o.1 = .ok ()) : o.2.waiting = [] := by
  induction h with
  | done hnone => exact hnone
  | failed hnext htold => cases hok
  | told hnext htold hrest ih => exact ih hok

theorem serves_generation (h : Serves t policy i marks o) : o.2.services.generation = i.services.generation := by
  induction h with
  | done hnone => rfl
  | failed hnext htold => exact htold.generation (dispatch_posts t policy _ _)
  | told hnext htold hrest ih => exact ih.trans (htold.generation (dispatch_posts t policy _ _))

theorem serves_ends (h : Serves t policy i marks o) (hruns : Runs i) : Ends i o := by
  induction h with
  | done hnone => exact .ofServices hruns _
  | failed hnext htold => exact .after _ (htold.ends (dispatch_ends t policy _ ⟨hruns.stage, hruns.heap⟩))
  | told hnext htold hrest ih =>
    have hdispatch := htold.ends (dispatch_ends t policy _ ⟨hruns.stage, hruns.heap⟩)
    exact .after _ (hdispatch.then rfl ⟨hruns.stage, hruns.heap⟩ ih)

/-- A tick changes neither the answers that wait nor the load before scripts are told of anything. -/
theorem tickQuotas_mail (policy : Policy) (s : Api.Services) :
    ((s.tickQuotas policy).mailbox, (s.tickQuotas policy).generation) = (s.mailbox, s.generation) :=
  Services.tickQuotas_keeps (f := fun s : Api.Services => (s.mailbox, s.generation)) policy s (fun _ _ => rfl)
    fun _ _ => rfl

theorem waiting_tickQuotas (policy : Policy) (i : Instance) :
    ({ i with services := i.services.tickQuotas policy } : Instance).waiting = i.waiting :=
  congrArg (·.1.waiting) (tickQuotas_mail policy i.services)

theorem ticks_account (h : Ticks t policy i marks o) :
    i.waiting ++ accepted marks = answered marks ++ o.2.waiting := by
  rw [← waiting_tickQuotas policy i]
  cases h with
  | failed hserves => exact serves_account hserves
  | told hserves htold =>
    rw [accepted_append, answered_append, accepted_tellMarks, answered_tellMarks_tick, List.append_nil, htold.waiting,
      ← List.append_assoc, ← List.append_assoc, serves_account hserves]

/-- A tick that comes to its end has told of every answer that waited when it began, and only then of itself. -/
theorem ticks_complete (h : Ticks t policy i marks o) (hok : o.1 = .ok ()) :
    ∃ before after, marks = before ++ .told .tick :: after ∧ i.waiting <+: answered before ∧ answered after = [] := by
  cases h with
  | failed => cases hok
  | @told i' before came o hserves htold =>
    refine ⟨before, came.map .accepted, rfl, ?_, answered_map came⟩
    have haccount := serves_account hserves
    rw [waiting_of_serves hserves rfl, List.append_nil, waiting_tickQuotas] at haccount
    exact ⟨accepted before, haccount⟩

theorem ticks_generation (h : Ticks t policy i marks o) : o.2.services.generation = i.services.generation := by
  have hticked : (i.services.tickQuotas policy).generation = i.services.generation :=
    congrArg Prod.snd (tickQuotas_mail policy i.services)
  cases h with
  | failed hserves => exact (serves_generation hserves).trans hticked
  | told hserves htold =>
    exact (htold.generation (dispatch_posts t policy _ _)).trans ((serves_generation hserves).trans hticked)

theorem ticks_ends (h : Ticks t policy i marks o) (hruns : Runs i) : Ends i o := by
  have hticked : Runs { i with services := i.services.tickQuotas policy } := ⟨hruns.stage, hruns.heap⟩
  refine .after (i.services.tickQuotas policy) ?_
  cases h with
  | failed hserves => exact serves_ends hserves hticked
  | told hserves htold =>
    exact (serves_ends hserves hticked).then rfl hticked fun hruns => htold.ends (dispatch_ends t policy _ hruns)

/-! ## Ticks come to their end -/

theorem next?_eq_none {m : Host.Mailbox} (h : m.next? = none) : m.waiting = [] := by
  unfold Host.Mailbox.next? at h
  split at h
  · assumption
  · cases h

theorem next?_eq_some {m m' : Host.Mailbox} {c : Completion} (h : m.next? = some (c, m')) :
    ∃ rest, m.waiting = c :: rest ∧ m' = { m with waiting := rest } := by
  unfold Host.Mailbox.next? at h
  split at h
  · cases h
  · next rest hwaiting =>
    cases h
    exact ⟨rest, hwaiting, rfl⟩

/-- As many steps as answers can wait are enough: each one that comes costs a unit of the budget. -/
theorem serves_dispatchWaiting (t : Terms) (policy : Policy) (i : Instance) (n : Nat)
    (hn : i.waiting.length + i.services.units ≤ n) :
    ∃ marks, Serves t policy i marks (Instance.dispatchWaiting t policy n i) := by
  induction n generalizing i with
  | zero =>
    have hnone : i.waiting = [] := List.eq_nil_of_length_eq_zero (by omega)
    exact ⟨[], .done hnone⟩
  | succ n ih =>
    unfold Instance.dispatchWaiting
    split
    · next hnone => exact ⟨[], .done (next?_eq_none hnone)⟩
    · next c mailbox hnext =>
      obtain ⟨rest, hwaiting, rfl⟩ := next?_eq_some hnext
      have hposted := dispatch_posts t policy (i.withWaiting rest) (answerEvent c)
      split
      · next heq => exact ⟨_, .failed hwaiting (amid_alone heq hposted)⟩
      · next i' heq =>
        have hafter : (i.withWaiting rest).dispatch t policy (answerEvent c) = (.ok (), i') := heq
        obtain ⟨new, hnew, hunits⟩ := hposted.mail
        rw [hafter] at hnew hunits
        have hwaiting' : i'.waiting.length = rest.length + new.length :=
          (congrArg List.length hnew).trans List.length_append
        have hlength : i.waiting.length = rest.length + 1 := congrArg List.length hwaiting
        have hbound : new.length + i'.services.units ≤ i.services.units := hunits
        obtain ⟨marks, hserves⟩ := ih i' (by omega)
        exact ⟨_, .told hwaiting (amid_alone hafter hposted) hserves⟩

/-- What an instance does at a tick by itself is a tick in which the host does nothing more. -/
theorem tick_ticks (t : Terms) (policy : Policy) (hstage : i.stage = .running) :
    ∃ marks, Ticks t policy i marks (i.tick t policy) := by
  unfold Instance.tick Instance.during
  rw [if_pos hstage]
  obtain ⟨marks, hserves⟩ :=
    serves_dispatchWaiting t policy { i with services := i.services.tickQuotas policy } _ (Nat.le_refl _)
  simp only
  split
  · next heq => exact ⟨marks, .failed (heq ▸ hserves)⟩
  · next i' heq => exact ⟨_, .told (heq ▸ hserves) (amid_alone rfl (dispatch_posts t policy _ .tick))⟩

end Ticks

end ScriptWarden.Package
