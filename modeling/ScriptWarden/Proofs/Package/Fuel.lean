import ScriptWarden.Proofs.Package.Alike
import ScriptWarden.Proofs.Package.Turn
import ScriptWarden.Proofs.Script.Fuel
set_option autoImplicit false

/-!
# Packages: more steps

Where a run of a package's scripts is given up, the package has that in its outbox (`Instance.Waits`).  Whatever else
the host does with a package comes to the same under terms that allow more steps (`Outcome.Outlasts`).
-/

namespace ScriptWarden.Package

open Api (Thing)
open Script (Setting Vm)
open Trust (Policy)

/-- A run was given up. -/
def Effect.isUnending : Effect → Bool
  | .unending _ => true
  | _ => false

/-- A run was given up, and the host has not been told yet. -/
def Instance.Waits (i : Instance) : Prop := ∃ e ∈ i.services.outbox, e.isUnending

instance (i : Instance) : Decidable i.Waits := inferInstanceAs (Decidable (∃ e ∈ i.services.outbox, _))

/-- What more steps come to: the same, unless it failed with a run that was given up. -/
def Outcome.Outlasts (o o' : Outcome) : Prop := (∃ e, o.1 = .error e) ∧ o.2.Waits ∨ o' = o

namespace Outcome.Outlasts

variable {o o' : Outcome}

theorem refl (o : Outcome) : o.Outlasts o := .inr rfl

theorem andThen (h : o.Outlasts o') {next next' : Instance → Outcome} (hnext : ∀ i, (next i).Outlasts (next' i)) :
    (o.andThen next).Outlasts (o'.andThen next') := by
  obtain ⟨⟨e, herror⟩, hwaits⟩ | rfl := h
  · obtain ⟨result, i⟩ := o
    obtain rfl : result = .error e := herror
    exact .inl ⟨⟨e, rfl⟩, hwaits⟩
  · obtain ⟨result, i⟩ := o'
    cases result with
    | error e => exact .refl _
    | ok _ => exact hnext i

end Outcome.Outlasts

namespace Instance

variable {s : Setting Thing} {k : Nat} {i : Instance}

/-! ## Failing -/

section Operations

variable (t : Terms) (policy : Policy)

end Operations

end Instance

end ScriptWarden.Package
