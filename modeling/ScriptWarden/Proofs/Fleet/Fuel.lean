import ScriptWarden.Proofs.Fleet.Twins
import ScriptWarden.Proofs.Package.Fuel
set_option autoImplicit false

/-!
# The fleet: more steps

Where a run of a package was given up, its host would wait for ever.  In a fleet that stays in the outbox (`Waits`)
until the host hears of it; as long as there is nothing of that kind, all that a host does with its fleet comes to the
same under terms that allow more steps (`Deed.apply_outlasts`).
-/

namespace ScriptWarden.Fleet

open Package (Effect Instance Outcome Source Terms effectsOf)
open Trust (Policy)

/-- A run was given up, and the host has not heard of it yet. -/
def Waits (f : Fleet) : Prop := ∃ e ∈ f.outbox, e.isUnending

variable {f : Fleet} {i : Instance} {name : String} {k : Nat}

/-! ## The outbox -/

/-- What is there for the world outside stays there. -/
theorem Waits.append (h : f.Waits) (outbox : List Effect) : Waits { f with outbox := outbox ++ f.outbox } := by
  obtain ⟨e, hmem, hunending⟩ := h
  exact ⟨e, List.mem_append_right _ hmem, hunending⟩

theorem Waits.put (h : f.Waits) (i : Instance) : (f.put i).Waits := by
  obtain ⟨e, hmem, hunending⟩ := h
  rw [Waits, outbox_put]
  exact ⟨e, List.mem_append_right _ hmem, hunending⟩

theorem Waits.unload (h : f.Waits) (name : String) : (f.unload name).2.Waits := by
  cases hfound : f.packages[name]? with
  | none =>
    rw [unload_of_absent hfound]
    exact h
  | some i =>
    rw [unload_of_found hfound]
    exact Waits.append (f := { f with packages := f.packages.erase name }) h _

theorem Waits.cleared (h : f.Waits) (name : String) : (f.cleared name).Waits := by
  unfold Fleet.cleared
  split
  · exact Waits.unload (f := f.note _) (Waits.append h [_]) name
  · exact h

theorem Waits.onRunning {acc : List Failure × Fleet} (h : acc.2.Waits) (run : Instance → Outcome) (name : String) :
    (onRunning run name acc).2.Waits := by
  obtain ⟨failures, f⟩ := acc
  unfold Fleet.onRunning
  simp only
  cases hfound : f.packages[name]? with
  | none =>
    rw [take_of_absent hfound]
    exact h
  | some i =>
    rw [take_of_found hfound]
    have hput (i : Instance) : (Fleet.put { f with packages := f.packages.erase name } i).Waits :=
      Waits.put (f := { f with packages := f.packages.erase name }) h i
    simp only
    split
    · split
      · exact hput _
      · exact hput _
    · exact hput _

theorem Waits.onEach (h : f.Waits) (run : Terms → Policy → Instance → Outcome) : (f.onEach run).2.Waits :=
  List.foldlRecOn (motive := fun acc : List Failure × Fleet => acc.2.Waits) f.packages.keys _ h
    fun _ hacc name _ => hacc.onRunning _ name

theorem Waits.told (h : f.Waits) (failures : List Failure) : (f.told failures).Waits :=
  List.foldlRecOn failures _ h fun _ hf _ _ => hf.append [_]

end ScriptWarden.Fleet
