import Mathlib.Algebra.GroupWithZero.Nat
import Mathlib.Algebra.BigOperators.Group.List.Basic
import Std.Data.ExtTreeMap
set_option autoImplicit false

/-!
# Texture: totals

The total weight of the entries of a map, and what each change of the map does to it.  Everything comes
from `total_eq_erase`: an entry counts apart from all others.
-/

namespace ScriptWarden.Texture

variable {κ α : Type} [Ord κ] [Std.TransOrd κ]

/-- The sum of the weights of all entries. -/
def total (m : Std.ExtTreeMap κ α) (weight : α → Nat) : Nat :=
  (m.toList.map fun entry => weight entry.2).sum

/-- The weight of an entry that may be missing. -/
def weightAt (m : Std.ExtTreeMap κ α) (weight : α → Nat) (k : κ) : Nat :=
  m[k]?.elim 0 weight

theorem weightAt_some {m : Std.ExtTreeMap κ α} {weight : α → Nat} {k : κ} {a : α}
    (h : m[k]? = some a) : weightAt m weight k = weight a := by
  rw [weightAt, h, Option.elim_some]

theorem weightAt_none {m : Std.ExtTreeMap κ α} {weight : α → Nat} {k : κ} (h : m[k]? = none) :
    weightAt m weight k = 0 := by
  rw [weightAt, h, Option.elim_none]

@[simp] theorem total_empty (weight : α → Nat) : total (∅ : Std.ExtTreeMap κ α) weight = 0 := rfl

/-! ## Entries as a list -/

variable [Std.LawfulEqOrd κ]

theorem nodup_toList (m : Std.ExtTreeMap κ α) : m.toList.Nodup := by
  refine Std.ExtTreeMap.distinct_keys_toList.imp ?_
  intro a b hdistinct hsame
  exact hdistinct (hsame ▸ Std.ReflCmp.compare_self)

/-- An entry stands apart from all others. -/
theorem toList_perm_erase {m : Std.ExtTreeMap κ α} {k : κ} {a : α} (h : m[k]? = some a) :
    m.toList.Perm ((k, a) :: (m.erase k).toList) := by
  have hfresh : (k, a) ∉ (m.erase k).toList := by simp
  refine (List.perm_ext_iff_of_nodup (nodup_toList m) ?_).2 ?_
  · exact List.nodup_cons.2 ⟨hfresh, nodup_toList _⟩
  · intro ⟨k', a'⟩
    by_cases hk : k = k'
    · subst hk
      simp [h, eq_comm]
    · simp [Std.ExtTreeMap.getElem?_erase, hk, Ne.symm hk]

theorem erase_eq_self {m : Std.ExtTreeMap κ α} {k : κ} (h : m[k]? = none) : m.erase k = m := by
  refine Std.ExtTreeMap.ext_getElem? fun k' => ?_
  rw [Std.ExtTreeMap.getElem?_erase]
  split
  · next hk => rw [← Std.LawfulEqOrd.eq_of_compare hk, h]
  · rfl

/-! ## Changes -/

/-- What an entry weighs comes on top of the rest. -/
theorem total_eq_erase (m : Std.ExtTreeMap κ α) (weight : α → Nat) (k : κ) :
    total m weight = weightAt m weight k + total (m.erase k) weight := by
  cases h : m[k]? with
  | none => rw [weightAt_none h, erase_eq_self h, Nat.zero_add]
  | some a =>
    rw [weightAt_some h, total, ((toList_perm_erase h).map _).sum_eq]
    rfl

/-- No entry weighs more than all together. -/
theorem weight_le_total {m : Std.ExtTreeMap κ α} {k : κ} {a : α} (weight : α → Nat)
    (h : m[k]? = some a) : weight a ≤ total m weight := by
  have hsplit := total_eq_erase m weight k
  rw [weightAt_some h] at hsplit
  omega

/-- Two maps that differ in one entry only. -/
theorem total_of_erase_eq {m m' : Std.ExtTreeMap κ α} {k : κ} (weight : α → Nat)
    (h : m'.erase k = m.erase k) :
    total m' weight + weightAt m weight k = total m weight + weightAt m' weight k := by
  rw [total_eq_erase m' weight k, total_eq_erase m weight k, h]
  omega

theorem erase_insert (m : Std.ExtTreeMap κ α) (k : κ) (a : α) :
    (m.insert k a).erase k = m.erase k := by
  refine Std.ExtTreeMap.ext_getElem? fun k' => ?_
  rw [Std.ExtTreeMap.getElem?_erase, Std.ExtTreeMap.getElem?_erase, Std.ExtTreeMap.getElem?_insert]
  split <;> rfl

theorem erase_modify (m : Std.ExtTreeMap κ α) (k : κ) (f : α → α) :
    (m.modify k f).erase k = m.erase k := by
  refine Std.ExtTreeMap.ext_getElem? fun k' => ?_
  rw [Std.ExtTreeMap.getElem?_erase, Std.ExtTreeMap.getElem?_erase, Std.ExtTreeMap.getElem?_modify]
  split <;> rfl

/-- A new value takes the place of what the key had. -/
theorem total_insert (m : Std.ExtTreeMap κ α) (weight : α → Nat) (k : κ) (a : α) :
    total (m.insert k a) weight + weightAt m weight k = total m weight + weight a := by
  have h := total_of_erase_eq weight (erase_insert m k a)
  rwa [weightAt_some Std.ExtTreeMap.getElem?_insert_self] at h

/-- A change that keeps the weight keeps the total. -/
theorem total_modify {m : Std.ExtTreeMap κ α} {weight : α → Nat} {k : κ} {f : α → α}
    (h : ∀ a, m[k]? = some a → weight (f a) = weight a) :
    total (m.modify k f) weight = total m weight := by
  have hsum := total_of_erase_eq weight (erase_modify m k f)
  have hsame : weightAt (m.modify k f) weight k = weightAt m weight k := by
    rw [weightAt, Std.ExtTreeMap.getElem?_modify_self]
    cases ha : m[k]? with
    | none => rw [weightAt_none ha, Option.map_none, Option.elim_none]
    | some a => rw [weightAt_some ha, Option.map_some, Option.elim_some, h a ha]
  omega

/-- Only the weights of the entries matter. -/
theorem total_congr {m : Std.ExtTreeMap κ α} {weight weight' : α → Nat}
    (h : ∀ (k : κ) (a : α), m[k]? = some a → weight a = weight' a) : total m weight = total m weight' := by
  refine congrArg List.sum (List.map_congr_left ?_)
  intro ⟨k, a⟩ hmem
  exact h k a (Std.ExtTreeMap.mem_toList_iff_getElem?_eq_some.1 hmem)

/-- Without entries that weigh anything the total is zero. -/
theorem total_eq_zero {m : Std.ExtTreeMap κ α} {weight : α → Nat}
    (h : ∀ (k : κ) (a : α), m[k]? = some a → weight a = 0) : total m weight = 0 := by
  refine List.sum_eq_zero ?_
  simp only [List.mem_map, forall_exists_index, and_imp]
  rintro _ ⟨k, a⟩ hmem rfl
  exact h k a (Std.ExtTreeMap.mem_toList_iff_getElem?_eq_some.1 hmem)

end ScriptWarden.Texture
