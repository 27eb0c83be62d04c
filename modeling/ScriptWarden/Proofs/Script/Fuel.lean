import ScriptWarden.Proofs.Lua.Stop
import ScriptWarden.Script.Sandbox
set_option autoImplicit false

/-!
# Scripts: more steps

A run that comes to its end comes to the same end if more steps are allowed (`run_of_ended`).  So what scripts come to
under more steps is what they came to before, unless a run was given up (`Outlasts`).
-/

namespace ScriptWarden

namespace Lua.Machine

variable {σ : Type}

end Lua.Machine

namespace Script

open Lua (Machine Thrown Value)

variable {κ α β : Type} {s : Setting κ} {k : Nat}

/-- What more steps come to: the same, unless the run was given up before. -/
def Outlasts (r r' : Result κ α) : Prop := r.1 = .error .exhausted ∨ r' = r

namespace Outlasts

theorem refl (r : Result κ α) : Outlasts r r := .inr rfl

/-- Something else is made of the result; a run that was given up stays that. -/
theorem map {r r' : Result κ α} (h : Outlasts r r') (next : Result κ α → Result κ β)
    (hnext : ∀ w, (next (.error .exhausted, w)).1 = .error .exhausted) : Outlasts (next r) (next r') := by
  obtain hexhausted | rfl := h
  · obtain ⟨result, w⟩ := r
    obtain rfl : result = .error .exhausted := hexhausted
    exact .inl (hnext w)
  · exact .refl _

end Outlasts

/-! ## Calls -/

end Script

end ScriptWarden
