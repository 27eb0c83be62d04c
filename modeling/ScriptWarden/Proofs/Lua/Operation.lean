import ScriptWarden.Lua.Machine
set_option autoImplicit false

/-!
# Lua: operations of instructions

What an instruction does to values may be for a metatable to say.  If no function is called for it, the script goes on
at once; otherwise its frame waits for so many values.  The instructions that do this differ only in what they make of
the result, so they are one operation (`operation`), and what holds of them is shown once.
-/

namespace ScriptWarden.Lua.Machine

variable {σ α : Type}

/-- Run an operation for a frame, which goes on as `next` says at once, and with the values that `give` says later. -/
def operation (f : Frame) (w : World σ) (n : Native Unit α) (next : α → Frame) (wanted : Nat)
    (give : α → List Value) : Effect σ :=
  match n.lift w with
  | .done a w => .next (next a) w
  | .fail e w => .operate f (.fail e w)
  | .ask q resume w =>
    .operate { f with want := .exactly wanted } (.ask q (fun a w => (resume a w).bind fun a w => .done (give a) w) w)

theorem operate1_eq (f : Frame) (w : World σ) (n : Native Unit Value) :
    operate1 f w n = operation f w n f.push 1 fun v => [v] := by
  unfold operate1 operation
  cases n.lift w <;> rfl

theorem operate0_eq (f : Frame) (w : World σ) (n : Native Unit Unit) :
    operate0 f w n = operation f w n (fun _ => f) 0 fun _ => [] := by
  unfold operate0 operation
  cases n.lift w <;> rfl

/-- A method is read as a member, and its object is kept behind it. -/
theorem instruct_method (f : Frame) (w : World σ) (obj : Operand) (name : Bytes) (origin : Origin) :
    instruct f w (.method obj name origin) =
      operation (read f w.heap obj).2 w (Access.index (read f w.heap obj).1 (.str name) origin)
        (fun m => ((read f w.heap obj).2.push m).push (read f w.heap obj).1) 2
        fun m => [m, (read f w.heap obj).1] := by
  unfold instruct operation
  simp only
  cases (Access.index (read f w.heap obj).1 (.str name) origin).lift w <;> rfl

end ScriptWarden.Lua.Machine
