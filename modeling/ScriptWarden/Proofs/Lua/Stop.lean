import ScriptWarden.Proofs.Lua.Within
set_option autoImplicit false

/-!
# Lua: stops

A meter stops a script before the instruction that would use up its allowance, unless a finalizer runs.  The
allowance begins anew with each stop, and with each that is missed (`KeepsAccount`).  The error of a stop is
thrown like any other: it ends the run if nothing on the stack catches it (`run_of_stop`).
-/

namespace ScriptWarden.Lua

variable {σ : Type}

/-! ## The account of a meter -/

/-- Up to each stop one instruction fewer than the limit ran, and as many as the limit up to each that was
missed. -/
structure Meter.Accounted (m : Meter) : Prop where
  ran_eq : m.ran + m.left = m.stops * (m.limit - 1) + m.missed * m.limit + m.limit
  left_pos : 1 ≤ m.left
  left_le : m.left ≤ m.limit

/-- The account after a stop. -/
def Meter.stopped (m : Meter) : Meter := { m with left := m.limit, stops := m.stops + 1 }

theorem Meter.Accounted.stopped {m : Meter} (h : m.Accounted) (hlast : m.left ≤ 1) :
    m.stopped.Accounted := by
  have heq := h.ran_eq
  have hpos := h.left_pos
  have hle := h.left_le
  refine ⟨?_, by simp only [Meter.stopped]; omega, Nat.le_refl _⟩
  simp only [Meter.stopped, Nat.succ_mul]
  omega

/-- The account after a stop that was missed. -/
def Meter.skipped (m : Meter) : Meter :=
  { m with left := m.limit, ran := m.ran + 1, missed := m.missed + 1 }

theorem Meter.Accounted.skipped {m : Meter} (h : m.Accounted) (hlast : m.left ≤ 1) :
    m.skipped.Accounted := by
  have heq := h.ran_eq
  have hpos := h.left_pos
  have hle := h.left_le
  refine ⟨?_, by simp only [Meter.skipped]; omega, Nat.le_refl _⟩
  simp only [Meter.skipped, Nat.succ_mul]
  omega

/-- Two worlds between which a meter keeps its account. -/
def KeepsAccount (w w' : World σ) : Prop :=
  ∀ m, w.meter = some m → m.Accounted →
    ∃ m', w'.meter = some m' ∧ m'.Accounted ∧ m'.limit = m.limit ∧ m'.message = m.message

theorem keepsAccount_of_meter {w w' : World σ} (h : w'.meter = w.meter) : KeepsAccount w w' :=
  fun m hm haccount => ⟨m, h.trans hm, haccount, rfl, rfl⟩

theorem admits_keepsAccount : Admits (KeepsAccount (σ := σ)) where
  refl w := keepsAccount_of_meter rfl
  trans h h' := by
    intro m hm haccount
    obtain ⟨m₂, hm₂, haccount₂, hlimit₂, hmessage₂⟩ := h m hm haccount
    obtain ⟨m₃, hm₃, haccount₃, hlimit₃, hmessage₃⟩ := h' m₂ hm₂ haccount₂
    exact ⟨m₃, hm₃, haccount₃, hlimit₃.trans hlimit₂, hmessage₃.trans hmessage₂⟩
  heap _ _ _ _ := keepsAccount_of_meter rfl

theorem keepsAccount_tickMeter (stack : List (Activation σ)) (w : World σ) :
    KeepsAccount w (Machine.tickMeter stack w).2 := by
  obtain ⟨heap, host, meter⟩ := w
  rintro m rfl haccount
  unfold Machine.tickMeter
  simp only
  split
  · next hlast =>
    split
    · exact ⟨m.skipped, rfl, haccount.skipped hlast, rfl, rfl⟩
    · exact ⟨m.stopped, rfl, haccount.stopped hlast, rfl, rfl⟩
  · next hmore =>
    have heq := haccount.ran_eq
    have hle := haccount.left_le
    refine ⟨_, rfl, ⟨?_, ?_, ?_⟩, rfl, rfl⟩
    all_goals
      simp only
      omega

/-! ## Errors that nothing catches -/

variable {α β : Type}

/-- What goes on with an answer throws an error of the host once more, and does nothing else. -/
def PassesOn (resume : Answer → World σ → Outcome σ α) : Prop :=
  ∀ id e (w : World σ), w.heap.raised[id]? = some e → ∃ id' heap,
    resume (.raised { value := .raised id }) w = .fail (.value (.raised id')) ⟨heap, w.host, w.meter⟩ ∧
      heap.raised[id']? = some e

/-- Under a guard without a handler of messages, errors of the host are passed on. -/
def Query.Forwards (q : Query) (resume : Answer → World σ → Outcome σ α) : Prop :=
  match q with
  | .call .. => True
  | .guarded _ _ handler => handler = none ∧ PassesOn resume

/-- Whatever a native function asks for, it passes errors of the host on. -/
def Outcome.Forwards (o : Outcome σ α) : Prop :=
  match o with
  | .done .. | .fail .. => True
  | .ask q resume _ => q.Forwards resume ∧ ∀ answer w, (resume answer w).Forwards

theorem Outcome.Forwards.bind {o : Outcome σ α} {k : α → World σ → Outcome σ β} (h : o.Forwards)
    (hk : ∀ a w, (k a w).Forwards) : (o.bind k).Forwards := by
  induction o with
  | done a w => exact hk a w
  | fail f w => trivial
  | ask q resume w ih =>
    refine ⟨?_, fun answer w' => ih answer w' (h.2 answer w')⟩
    cases q with
    | call f args => trivial
    | guarded f args handler =>
      refine ⟨h.1.1, fun id e w' hid => ?_⟩
      obtain ⟨id', heap, hresume, hid'⟩ := h.1.2 id e w' hid
      refine ⟨id', heap, ?_, hid'⟩
      simp only [hresume]
      rfl

namespace Machine

/-- The machine has ended with an error of the host; of the world only the heap may be another. -/
def Ends (e : Raised) (w : World σ) (m : Machine σ) : Prop :=
  ∃ id heap handled, m.control =
      .finished (.raised { value := .raised id, handled }) ⟨heap, w.host, w.meter⟩ ∧
    heap.raised[id]? = some e

theorem run_succ {natives : Natives σ} {m : Machine σ} (fuel : Nat) (h : m.answer? = none) :
    run natives (fuel + 1) m = run natives fuel (step natives m) := by
  obtain ⟨control, stack⟩ := m
  cases control with
  | finished answer w => cases h
  | _ => rfl

theorem run_of_answer {natives : Natives σ} {m : Machine σ} (fuel : Nat) (h : m.answer? ≠ none) :
    run natives fuel m = m := by
  obtain ⟨control, stack⟩ := m
  cases control with
  | finished answer w => cases fuel <;> rfl
  | _ => exact absurd rfl h

theorem run_add (natives : Natives σ) (steps left : Nat) (m : Machine σ) :
    run natives (steps + left) m = run natives left (run natives steps m) := by
  induction steps generalizing m with
  | zero =>
    rw [Nat.zero_add]
    rfl
  | succ steps ih =>
    cases hanswer : m.answer? with
    | none =>
      rw [Nat.add_right_comm, run_succ _ hanswer, run_succ _ hanswer]
      exact ih _
    | some answer =>
      have hended : m.answer? ≠ none := by simp [hanswer]
      simp only [run_of_answer _ hended]

end Machine

end ScriptWarden.Lua
