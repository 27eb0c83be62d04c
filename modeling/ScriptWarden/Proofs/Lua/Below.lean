import ScriptWarden.Lua.Machine
set_option autoImplicit false

/-!
# Lua: what is below the top of the stack

A step puts activations on the stack, or takes the one on top away; what is below stays as it is (`step_above`).  A
native function on top goes on when it is given values or an error that it guards against, and not before
(`Above.step`).  So whatever runs in between, whoever waits below is found as it was left.
-/

namespace ScriptWarden.Lua.Machine

variable {σ : Type}

/-- A machine runs above some activations. -/
structure Above (base : List (Activation σ)) (m : Machine σ) : Prop where
  below : base <:+ m.stack.top
  running : m.answer? = none

theorem above_ite {c : Prop} [Decidable c] {base : List (Activation σ)} {m m' : Machine σ} (h : Above base m)
    (h' : Above base m') : Above base (if c then m else m') := by
  split
  · exact h
  · exact h'

/-! ## Steps that leave the top where it is -/

theorem enterScript_above (s : Stack σ) (c : Closure) (args : List Value) (w : World σ) :
    Above s.top (enterScript s c args w) :=
  above_ite ⟨List.suffix_rfl, rfl⟩ (above_ite ⟨List.suffix_rfl, rfl⟩ ⟨List.suffix_cons _ _, rfl⟩)

theorem enter_above (natives : Natives σ) (s : Stack σ) (f : Value) (args : List Value) (w : World σ) :
    Above s.top (enter natives s f args w) := by
  unfold enter
  split
  · exact enterScript_above s _ args w
  · exact ⟨List.suffix_rfl, rfl⟩
  · exact ⟨List.suffix_rfl, rfl⟩
  · exact ⟨List.suffix_rfl, rfl⟩
  · exact above_ite ⟨List.suffix_rfl, rfl⟩ ⟨List.suffix_rfl, rfl⟩

theorem follow_above (s : Stack σ) (e : Effect σ) : Above s.top (follow s e) := by
  cases e with
  | replace f callee args w =>
    unfold follow
    simp only
    split
    · exact ⟨List.suffix_rfl, rfl⟩
    · exact ⟨List.suffix_cons _ _, rfl⟩
  | leave f vs w =>
    unfold follow
    simp only
    split <;> exact ⟨List.suffix_rfl, rfl⟩
  | _ => exact ⟨List.suffix_cons _ _, rfl⟩

theorem interrupt_above (s : Stack σ) (f : Frame) (id : Nat) (w : World σ) : Above s.top (interrupt s f id w) :=
  above_ite ⟨List.suffix_cons _ _, rfl⟩ ⟨List.suffix_cons _ _, rfl⟩

theorem look_above (s : Stack σ) (runner : Runner) (o : Outcome σ (List Value)) : Above s.top (look s runner o) := by
  cases o with
  | done vs w => exact ⟨List.suffix_rfl, rfl⟩
  | fail fault w => exact ⟨List.suffix_rfl, rfl⟩
  | ask q resume w =>
    refine above_ite ⟨List.suffix_cons _ _, rfl⟩ ?_
    cases q <;> exact ⟨List.suffix_cons _ _, rfl⟩

/-! ## Steps that take the top away -/

variable {s : Stack σ} {a : Activation σ} {rest : List (Activation σ)}

theorem execute_above (htop : s.top = a :: rest) (w : World σ) : Above rest (execute s w) := by
  have hrest : rest <:+ s.top := htop ▸ List.suffix_cons a rest
  unfold execute
  refine above_ite (above_ite ⟨hrest, rfl⟩ ⟨hrest, rfl⟩) ?_
  split
  · next f below depth frames natives =>
    obtain ⟨-, rfl⟩ := List.cons.inj htop
    split
    · exact follow_above ⟨below, depth, frames, natives⟩ _
    · simp only
      split
      · exact ⟨List.suffix_cons _ _, rfl⟩
      · exact follow_above ⟨below, depth, frames, natives⟩ _
  · exact ⟨hrest, rfl⟩

theorem proceed_above (collector : Collector) (htop : s.top = a :: rest) (w : World σ) :
    Above rest (proceed collector s w) := by
  unfold proceed
  split
  · next f below depth frames natives =>
    split
    · obtain ⟨-, rfl⟩ := List.cons.inj htop
      exact interrupt_above ⟨below, depth, frames, natives⟩ f _ w
    · exact execute_above htop w
  · exact execute_above htop w

theorem give_above (htop : s.top = a :: rest) (vs : List Value) (w : World σ) : Above rest (give s vs w) := by
  obtain ⟨top, depth, frames, count⟩ := s
  obtain rfl : top = a :: rest := htop
  cases a with
  | script f => exact ⟨List.suffix_cons _ _, rfl⟩
  | native p => exact ⟨List.suffix_rfl, rfl⟩

theorem unwind_above (htop : s.top = a :: rest) (t : Thrown) (w : World σ) : Above rest (unwind s t w) := by
  obtain ⟨top, depth, frames, count⟩ := s
  obtain rfl : top = a :: rest := htop
  cases a with
  | script f =>
    unfold unwind
    simp only
    split <;> exact ⟨List.suffix_rfl, rfl⟩
  | native p => exact above_ite ⟨List.suffix_rfl, rfl⟩ ⟨List.suffix_rfl, rfl⟩

theorem raise_above (htop : s.top = a :: rest) (t : Thrown) (w : World σ) : Above rest (raise s t w) := by
  have hrest : rest <:+ s.top := htop ▸ List.suffix_cons a rest
  unfold raise
  refine above_ite (unwind_above htop t w) ?_
  split
  · exact unwind_above htop _ w
  · exact above_ite ⟨hrest, rfl⟩ ⟨hrest.trans (List.suffix_cons _ _), rfl⟩

/-- What is below the top of the stack stays. -/
theorem step_above (natives : Natives σ) {m : Machine σ} (hrunning : m.answer? = none)
    (htop : m.stack.top = a :: rest) :
    Above rest (step natives m) := by
  obtain ⟨control, s⟩ := m
  have hrest : rest <:+ s.top := htop ▸ List.suffix_cons a rest
  cases control with
  | execute w => exact proceed_above natives.collector htop w
  | call f args w =>
    obtain ⟨hbelow, hruns⟩ := enter_above natives s f args w
    exact ⟨hrest.trans hbelow, hruns⟩
  | give vs w => exact give_above htop vs w
  | look runner o =>
    obtain ⟨hbelow, hruns⟩ := look_above s runner o
    exact ⟨hrest.trans hbelow, hruns⟩
  | throw t w => exact raise_above htop t w
  | finished answer w => cases hrunning

/-! ## Native functions that wait -/

/-- A machine goes on with what a native function does with an answer, or with an error that it does not guard
against. -/
inductive Answered (p : Pending σ) (rest : List (Activation σ)) : Machine σ → Prop
  | looks (answer : Answer) (w : World σ) {s : Stack σ} (htop : s.top = rest) :
    Answered p rest ⟨.look p.runner (p.resume answer w), s⟩
  | throws (t : Thrown) (w : World σ) {s : Stack σ} (htop : s.top = rest) : Answered p rest ⟨.throw t w, s⟩

variable {p : Pending σ}

theorem unwind_native (htop : s.top = .native p :: rest) (t : Thrown) (w : World σ) :
    Answered p rest (unwind s t w) := by
  obtain ⟨top, depth, frames, count⟩ := s
  obtain rfl : top = .native p :: rest := htop
  unfold unwind
  simp only
  split
  · exact .looks _ w rfl
  · exact .throws t w rfl

theorem raise_native (htop : s.top = .native p :: rest) (t : Thrown) (w : World σ) :
    Above (.native p :: rest) (raise s t w) ∨ Answered p rest (raise s t w) := by
  unfold raise
  split
  · exact .inr (unwind_native htop t w)
  · split
    · exact .inr (unwind_native htop _ w)
    · rw [← htop]
      exact .inl (above_ite ⟨List.suffix_rfl, rfl⟩ ⟨List.suffix_cons _ _, rfl⟩)

/-- On top of the stack it stays until it has an answer. -/
theorem step_native (natives : Natives σ) {m : Machine σ} (hrunning : m.answer? = none)
    (htop : m.stack.top = .native p :: rest) :
    Above (.native p :: rest) (step natives m) ∨ Answered p rest (step natives m) := by
  obtain ⟨control, s⟩ := m
  replace htop : s.top = .native p :: rest := htop
  cases control with
  | execute w =>
    obtain ⟨top, depth, frames, count⟩ := s
    obtain rfl : top = .native p :: rest := htop
    exact .inl (above_ite (above_ite ⟨List.suffix_rfl, rfl⟩ ⟨List.suffix_rfl, rfl⟩) ⟨List.suffix_rfl, rfl⟩)
  | call f args w => exact .inl (htop ▸ enter_above natives s f args w)
  | give vs w =>
    obtain ⟨top, depth, frames, count⟩ := s
    obtain rfl : top = .native p :: rest := htop
    exact .inr (.looks (.values vs) w rfl)
  | look runner o => exact .inl (htop ▸ look_above s runner o)
  | throw t w => exact raise_native htop t w
  | finished answer w => cases hrunning

/-- All the longer it stays below something else. -/
theorem Above.step (natives : Natives σ) {m : Machine σ} (h : Above (.native p :: rest) m) :
    Above (.native p :: rest) (step natives m) ∨ Answered p rest (step natives m) := by
  obtain ⟨⟨above, htop⟩, hrunning⟩ := h
  cases above with
  | nil => exact step_native natives hrunning htop.symm
  | cons a above =>
    obtain ⟨hbelow, hruns⟩ := step_above natives hrunning htop.symm
    exact .inl ⟨(List.suffix_append above _).trans hbelow, hruns⟩

end ScriptWarden.Lua.Machine
