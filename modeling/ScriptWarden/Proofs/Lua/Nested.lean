import Mathlib.Algebra.GroupWithZero.Nat
import ScriptWarden.Lua.Machine
set_option autoImplicit false

/-!
# Lua: calls under way

A call of a native function is under way while the function waits for another call that it asked for.  Then it is an
activation on the stack, or about to become one.  Only a step that calls the function can add to the calls of it that
are under way (`underWay_step_le`); everything else that a machine does leaves them as they are or ends one.
-/

namespace ScriptWarden.Lua

variable {σ : Type}

namespace Machine

/-- One for a call of a function of the host, nothing for anything else that runs outside scripts. -/
def Runner.isOf (host : HostFunction) : Runner → Nat
  | .function (.host f) => if f = host then 1 else 0
  | _ => 0

/-- One for an activation of a function of the host. -/
def Activation.isOf (host : HostFunction) : Activation σ → Nat
  | .native p => Runner.isOf host p.runner
  | .script _ => 0

/-- One if a function of the host is about to ask for a call. -/
def Control.asksFor (host : HostFunction) : Control σ → Nat
  | .look runner (.ask ..) => Runner.isOf host runner
  | _ => 0

/-- How many activations of a function of the host a stack has. -/
def waiting (host : HostFunction) (top : List (Activation σ)) : Nat := (top.map (Activation.isOf host)).sum

/-- How many calls of a function of the host are under way, one inside the other. -/
def underWay (host : HostFunction) (m : Machine σ) : Nat :=
  waiting host m.stack.top + Control.asksFor host m.control

variable {host : HostFunction}

@[simp] theorem waiting_script (f : Frame) (rest : List (Activation σ)) :
    waiting host (.script f :: rest) = waiting host rest := by
  simp [waiting, Activation.isOf]

@[simp] theorem waiting_native (p : Pending σ) (rest : List (Activation σ)) :
    waiting host (.native p :: rest) = Runner.isOf host p.runner + waiting host rest := by
  simp [waiting, Activation.isOf]

@[simp] theorem waiting_pushNative (s : Stack σ) (p : Pending σ) :
    waiting host (pushNative s p).top = Runner.isOf host p.runner + waiting host s.top := waiting_native p s.top

/-- Whatever a native function does next, of the calls above the stack no more than its own is under way. -/
theorem underWay_look_le (s : Stack σ) (runner : Runner) (o : Outcome σ (List Value)) :
    underWay host ⟨.look runner o, s⟩ ≤ waiting host s.top + Runner.isOf host runner := by
  refine Nat.add_le_add_left ?_ _
  cases o with
  | ask q resume w => exact Nat.le_refl _
  | _ => exact Nat.zero_le _

/-! ## Steps -/

theorem underWay_ite {c : Prop} [Decidable c] {m m' : Machine σ} {n : Nat} (h : underWay host m = n)
    (h' : underWay host m' = n) : underWay host (if c then m else m') = n := by
  split
  · exact h
  · exact h'

theorem underWay_enterScript (s : Stack σ) (c : Closure) (args : List Value) (w : World σ) :
    underWay host (enterScript s c args w) = waiting host s.top := by
  unfold enterScript
  exact underWay_ite rfl (underWay_ite rfl (waiting_script _ _))

/-- A call of something else than the function. -/
theorem underWay_enter {natives : Natives σ} {f : Value} (hf : f ≠ .host host) (s : Stack σ) (args : List Value)
    (w : World σ) : underWay host (enter natives s f args w) ≤ waiting host s.top := by
  have hrunner : Runner.isOf host (.function f) = 0 := by
    unfold Runner.isOf
    split
    · next g heq =>
      cases heq
      exact if_neg fun hg => hf (congrArg Value.host hg)
    · rfl
  have hlook (w : World σ) : underWay host ⟨.look (.function f) (natives f args w), s⟩ ≤ waiting host s.top := by
    refine Nat.le_trans (underWay_look_le s _ _) ?_
    rw [hrunner]
    exact Nat.le_refl _
  unfold enter
  split
  · exact Nat.le_of_eq (underWay_enterScript s _ args w)
  · exact hlook w
  · exact hlook w
  · exact hlook _
  · simp only
    split <;> exact Nat.le_refl _

theorem underWay_follow (s : Stack σ) (e : Effect σ) : underWay host (follow s e) ≤ waiting host s.top := by
  have htop (f : Frame) : waiting host (withTop s f).top = waiting host s.top := waiting_script f s.top
  cases e with
  | next f w => exact Nat.le_of_eq (htop f)
  | operate f o =>
    rw [← htop f]
    exact underWay_look_le _ .operation o
  | enter f callee args w => exact Nat.le_of_eq (htop f)
  | replace f callee args w =>
    unfold follow
    simp only
    split
    · exact Nat.le_refl _
    · exact Nat.le_of_eq (htop _)
  | leave f vs w =>
    unfold follow
    simp only
    split
    · exact Nat.le_refl _
    · exact underWay_look_le (without s f) .operation _

theorem underWay_execute (s : Stack σ) (w : World σ) : underWay host (execute s w) ≤ waiting host s.top := by
  unfold execute
  split
  · simp only
    split <;> exact Nat.le_refl _
  · split
    · next f rest depth frames natives =>
      have hfollow (e : Effect σ) : underWay host (follow ⟨rest, depth, frames, natives⟩ e) ≤ waiting host rest :=
        underWay_follow _ e
      simp only [waiting_script]
      split
      · exact hfollow _
      · split
        · exact Nat.le_of_eq (waiting_script _ rest)
        · exact hfollow _
    · exact Nat.le_refl _

theorem underWay_interrupt (s : Stack σ) (f : Frame) (id : Nat) (w : World σ) :
    underWay host (interrupt s f id w) ≤ waiting host s.top := by
  unfold interrupt
  simp only
  split
  · exact Nat.le_of_eq (waiting_script f s.top)
  · refine Nat.le_trans (underWay_look_le _ .collector _) (Nat.le_of_eq ?_)
    exact waiting_script _ s.top

theorem underWay_proceed (collector : Collector) (s : Stack σ) (w : World σ) :
    underWay host (proceed collector s w) ≤ waiting host s.top := by
  unfold proceed
  split
  · next f rest depth frames natives =>
    split
    · rw [waiting_script]
      exact underWay_interrupt _ f _ w
    · exact underWay_execute _ w
  · exact underWay_execute _ w

theorem underWay_give (s : Stack σ) (vs : List Value) (w : World σ) :
    underWay host (give s vs w) ≤ waiting host s.top := by
  unfold give
  split
  · exact Nat.le_refl _
  · next f rest depth frames natives =>
    rw [waiting_script]
    exact Nat.le_of_eq (waiting_script _ rest)
  · next p rest depth frames natives =>
    rw [waiting_native, Nat.add_comm]
    exact underWay_look_le _ p.runner _

theorem underWay_look (s : Stack σ) (runner : Runner) (o : Outcome σ (List Value)) :
    underWay host (look s runner o) ≤ underWay host ⟨.look runner o, s⟩ := by
  cases o with
  | done vs w => exact Nat.le_refl _
  | fail fault w => exact Nat.le_refl _
  | ask q resume w =>
    have hpush {p : Pending σ} (hp : p.runner = runner) : waiting host (pushNative s p).top ≤
        underWay host ⟨.look runner (.ask q resume w), s⟩ := by
      rw [waiting_pushNative, hp, Nat.add_comm]
      exact Nat.le_refl _
    unfold look
    simp only
    split
    · exact hpush (p := { runner, resume }) rfl
    · split
      · exact hpush (p := { runner, resume }) rfl
      · next handler => exact hpush (p := { runner, guarded := true, handler, resume }) rfl

theorem underWay_unwind (s : Stack σ) (t : Thrown) (w : World σ) :
    underWay host (unwind s t w) ≤ waiting host s.top := by
  unfold unwind
  split
  · exact Nat.le_refl _
  · next f rest depth frames natives =>
    simp only [waiting_script]
    split
    · exact Nat.le_refl _
    · exact underWay_look_le (without ⟨rest, depth, frames, natives⟩ f) (.function .nil) _
  · next p rest depth frames natives =>
    simp only [waiting_native]
    split
    · rw [Nat.add_comm]
      exact underWay_look_le _ p.runner _
    · exact Nat.le_add_left _ _

theorem underWay_raise (s : Stack σ) (t : Thrown) (w : World σ) :
    underWay host (raise s t w) ≤ waiting host s.top := by
  unfold raise
  split
  · exact underWay_unwind s t w
  · split
    · exact underWay_unwind s _ w
    · split
      · exact Nat.le_refl _
      · refine Nat.le_of_eq ((waiting_pushNative s _).trans ?_)
        exact Nat.zero_add _

/-- Only a call of the function adds to the calls of it that are under way. -/
theorem underWay_step_le {natives : Natives σ} {m : Machine σ}
    (hcall : ∀ args w, m.control ≠ .call (.host host) args w) : underWay host (m.step natives) ≤ underWay host m := by
  obtain ⟨control, stack⟩ := m
  cases control with
  | execute w => exact underWay_proceed natives.collector stack w
  | call f args w => exact underWay_enter (fun hf => hcall args w (hf ▸ rfl)) stack args w
  | give vs w => exact underWay_give stack vs w
  | look runner o => exact underWay_look stack runner o
  | throw t w => exact underWay_raise stack t w
  | finished answer w => exact Nat.le_refl _

end Machine

end ScriptWarden.Lua
