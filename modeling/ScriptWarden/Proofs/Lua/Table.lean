import ScriptWarden.Lua.Table
set_option autoImplicit false

/-!
# Lua: what a table holds

Keys are ordered as a map wants them, so a table holds after a change what it held before and what was put in
(`Table.Only.set`).  What is read from it, or met on a walk over it, is something that it holds.
-/

namespace ScriptWarden.Text

/-! ## The order of byte strings -/

theorem getElem?_toList_data (a : ByteArray) (i : Nat) : a.data.toList[i]? = a[i]? := by
  rw [Array.getElem?_toList]
  by_cases h : i < a.size
  · rw [getElem?_pos a i h, getElem?_pos a.data i h]
    rfl
  · rw [getElem?_neg a i h, getElem?_neg a.data i h]

theorem drop_data (a : ByteArray) (i : Nat) :
    a.data.toList.drop i = a[i]?.toList ++ a.data.toList.drop (i + 1) := by
  rw [List.drop_eq_getElem?_toList_append, getElem?_toList_data]

theorem drop_data_of_le {a : ByteArray} {i : Nat} (h : a.size ≤ i) : a.data.toList.drop i = [] :=
  List.drop_of_length_le h

theorem compareFrom_eq (a b : ByteArray) (fuel i : Nat) (h : i + fuel = min a.size b.size) :
    compareFrom a b fuel i =
      List.compareLex compare (a.data.toList.drop i) (b.data.toList.drop i) := by
  induction fuel generalizing i with
  | zero =>
    -- one of the two ends here
    unfold compareFrom
    rcases Nat.lt_trichotomy a.size b.size with hlt | heq | hgt
    · rw [drop_data_of_le (by omega), drop_data b, getElem?_pos b i (by omega)]
      exact Nat.compare_eq_lt.2 hlt
    · rw [drop_data_of_le (by omega), drop_data_of_le (by omega), heq]
      exact Nat.compare_eq_eq.2 rfl
    · rw [drop_data_of_le (a := b) (by omega), drop_data a, getElem?_pos a i (by omega)]
      exact Nat.compare_eq_gt.2 hgt
  | succ fuel ih =>
    unfold compareFrom
    rw [drop_data a, drop_data b, getElem?_pos a i (by omega), getElem?_pos b i (by omega)]
    simp only [Option.toList_some, List.singleton_append, List.compareLex_cons_cons]
    rw [← ih (i + 1) (by omega)]
    split
    · next hlt => rw [Std.compare_eq_lt.2 hlt, Ordering.lt_then]
    · next hle =>
      split
      · next hgt => rw [Std.compare_eq_gt.2 hgt, Ordering.gt_then]
      · next hge =>
        have heq : compare a[i] b[i] = .eq :=
          Std.compare_eq_iff_eq.2 (UInt8.le_antisymm (UInt8.not_lt.1 hge) (UInt8.not_lt.1 hle))
        rw [heq, Ordering.eq_then]

theorem compareBytes_eq (a b : ByteArray) :
    compareBytes a b = compare a.data.toList b.data.toList :=
  compareFrom_eq a b _ 0 (Nat.zero_add _)

end ScriptWarden.Text

namespace ScriptWarden.Lua

theorem Key.compare_eq : (compare : Key → Key → Ordering) =
    compareLex (compareOn kind) (compareLex (compareOn number) (compareOn (·.bytes.data.toList))) := by
  funext a b
  change order a b = _
  rw [order, Text.compareBytes_eq]
  rfl

instance : Std.TransOrd Key where
  toOrientedCmp := by
    rw [Key.compare_eq]
    infer_instance
  isLE_trans := by
    rw [Key.compare_eq]
    exact Std.TransCmp.isLE_trans

namespace Table

/-! ## What a table holds -/

/-- Every element, key and value of a table is of a kind. -/
structure Only (P : Value → Prop) (t : Table) : Prop where
  elements : ∀ v ∈ t.array, P v
  fields : ∀ (k : Key) (p : Value × Value), t.fields[k]? = some p → P p.1 ∧ P p.2

variable {P : Value → Prop} {t : Table}

theorem only_empty : Only P {} where
  elements v hv := by simp at hv
  fields k p hp := by simp at hp

theorem Only.withMetatable (h : t.Only P) (m : Option Nat) : Only P { t with metatable := m } :=
  ⟨h.elements, h.fields⟩

/-! ## Reading -/

theorem Only.element (h : t.Only P) (hnil : P .nil) (i : Nat) : P (t.array[i]?.getD .nil) := by
  cases hi : t.array[i]? with
  | none => exact hnil
  | some v => exact h.elements v (Array.mem_of_getElem? hi)

theorem Only.getKey (h : t.Only P) (hnil : P .nil) (k : Key) : P (t.getKey k) := by
  unfold Table.getKey
  split
  · exact h.element hnil _
  · split
    · next hk => exact (h.fields _ _ hk).2
    · exact hnil

theorem Only.get (h : t.Only P) (hnil : P .nil) (key : Value) : P (t.get key) := by
  unfold Table.get
  split
  · exact h.getKey hnil _
  · exact hnil

/-! ## Changes -/

theorem Only.pushArray (h : t.Only P) {v : Value} (hv : P v) : Only P { t with array := t.array.push v } where
  elements x hx := by
    rcases Array.mem_push.1 hx with hold | rfl
    · exact h.elements x hold
    · exact hv
  fields := h.fields

theorem Only.setArray (h : t.Only P) (i : Nat) {v : Value} (hv : P v) :
    Only P { t with array := t.array.setIfInBounds i v } where
  elements x hx := by
    rcases Array.mem_or_eq_of_mem_setIfInBounds hx with hold | rfl
    · exact h.elements x hold
    · exact hv
  fields := h.fields

theorem Only.eraseField (h : t.Only P) (k : Key) : Only P { t with fields := t.fields.erase k } where
  elements := h.elements
  fields k' p hp := by
    rw [Std.TreeMap.getElem?_erase] at hp
    split at hp
    · cases hp
    · exact h.fields k' p hp

theorem Only.insertField (h : t.Only P) (k : Key) {original v : Value} (ho : P original) (hv : P v) :
    Only P { t with fields := t.fields.insert k (original, v) } where
  elements := h.elements
  fields k' p hp := by
    rw [Std.TreeMap.getElem?_insert] at hp
    split at hp
    · cases hp
      exact ⟨ho, hv⟩
    · exact h.fields k' p hp

theorem Only.absorb (h : t.Only P) (fuel : Nat) : (absorb fuel t).Only P := by
  induction fuel generalizing t with
  | zero => exact h
  | succ fuel ih =>
    unfold Table.absorb
    simp only
    split
    · next hk =>
      split
      · exact h
      · exact ih ((h.eraseField _).pushArray (h.fields _ _ hk).2)
    · exact h

theorem Only.push (h : t.Only P) {v : Value} (hv : P v) : (t.push v).Only P := by
  unfold Table.push
  split
  · exact h.pushArray hv
  · exact ((h.eraseField _).pushArray hv).absorb _

theorem Only.append (h : t.Only P) {v : Value} (hv : P v) : (t.append v).Only P :=
  (h.eraseField _).pushArray hv

theorem Only.setKey (h : t.Only P) (hnil : P .nil) (k : Key) {original v : Value} (ho : P original)
    (hv : P v) : (t.setKey k original v).Only P := by
  unfold Table.setKey
  split
  · exact h.setArray _ hv
  · split
    · exact h.push hv
    · split
      · split
        · exact h.insertField k ho hnil
        · exact h
      · exact h.insertField k ho hv

/-- Keys are shown as they are or as integers. -/
theorem shownKey_cases (key : Value) : shownKey key = key ∨ ∃ n, shownKey key = .int n := by
  unfold shownKey
  split
  · split
    · exact .inr ⟨_, rfl⟩
    · exact .inl rfl
  · exact .inl rfl

theorem Only.set (h : t.Only P) (hnil : P .nil) (hint : ∀ n, P (.int n)) {key v : Value} (hkey : P key)
    (hv : P v) : (t.set key v).Only P := by
  have hshown : P (shownKey key) := by
    obtain heq | ⟨n, heq⟩ := shownKey_cases key
    · rwa [heq]
    · rw [heq]
      exact hint n
  unfold Table.set
  split
  · exact h.setKey hnil _ hshown hv
  · exact h

/-! ## The metatable -/

theorem metatable_absorb (fuel : Nat) (t : Table) : (absorb fuel t).metatable = t.metatable := by
  induction fuel generalizing t with
  | zero => rfl
  | succ fuel ih =>
    unfold absorb
    simp only
    split
    · split
      · rfl
      · rw [ih]
    · rfl

theorem metatable_setKey (t : Table) (k : Key) (original v : Value) :
    (t.setKey k original v).metatable = t.metatable := by
  unfold Table.setKey
  split
  · rfl
  · split
    · unfold Table.push
      split
      · rfl
      · exact metatable_absorb _ _
    · split
      · split <;> rfl
      · rfl

theorem metatable_set (t : Table) (key v : Value) : (t.set key v).metatable = t.metatable := by
  unfold Table.set
  split
  · exact metatable_setKey _ _ _ _
  · rfl

/-! ## Walks -/

section Tree

open Std.DTreeMap.Internal (Impl)

/-- A search for the entry behind a key ends with the best one so far or with one of the tree. -/
theorem mem_of_getEntryGT?_go {k : Key} (tree : Impl Key fun _ => Value × Value)
    {best : Option (Key × (Value × Value))} {e : Key × (Value × Value)}
    (h : Impl.Const.getEntryGT?.go k best tree = some e) :
    best = some e ∨ e ∈ Impl.Const.toList tree := by
  rw [Impl.Const.toList_eq_toListModel_map]
  induction tree generalizing best with
  | leaf => exact .inl h
  | inner size key v left right ihl ihr =>
    unfold Impl.Const.getEntryGT?.go at h
    simp only [Impl.toListModel, List.map_append, List.map_cons, List.mem_append, List.mem_cons]
    split at h
    · rcases ihl h with hbest | hmem
      · exact .inr (.inr (.inl (Option.some.inj hbest).symm))
      · exact .inr (.inl hmem)
    · rcases ihr h with hbest | hmem
      · exact .inl hbest
      · exact .inr (.inr (.inr hmem))

theorem mem_of_least_tree (tree : Impl Key fun _ => Value × Value) {e : Key × (Value × Value)}
    (h : Impl.Const.minEntry? tree = some e) : e ∈ Impl.Const.toList tree := by
  rw [Impl.Const.toList_eq_toListModel_map]
  induction tree with
  | leaf =>
    rw [Impl.Const.minEntry?] at h
    cases h
  | inner size key v left right ihl ihr =>
    simp only [Impl.toListModel, List.map_append, List.map_cons, List.mem_append, List.mem_cons]
    cases left with
    | leaf =>
      rw [Impl.Const.minEntry?] at h
      exact .inr (.inl (Option.some.inj h).symm)
    | inner size' key' v' left' right' =>
      rw [Impl.Const.minEntry?] at h
      exact .inl (ihl h)

end Tree

theorem mem_of_getEntryGT? {fields : Std.TreeMap Key (Value × Value)} {k : Key}
    {e : Key × (Value × Value)} (h : fields.getEntryGT? k = some e) : e ∈ fields.toList := by
  rcases mem_of_getEntryGT?_go fields.inner.inner h with hnone | hmem
  · cases hnone
  · exact hmem

theorem mem_of_least {fields : Std.TreeMap Key (Value × Value)}
    {e : Key × (Value × Value)} (h : fields.minEntry? = some e) : e ∈ fields.toList :=
  mem_of_least_tree fields.inner.inner h

theorem Only.entry (h : t.Only P) {k : Key} {p : Value × Value} (hmem : (k, p) ∈ t.fields.toList) :
    P p.1 ∧ P p.2 :=
  h.fields k p (Std.TreeMap.mem_toList_iff_getKey?_eq_some_and_getElem?_eq_some.1 hmem).2

/-- What a table holds can be looked through. -/
instance Only.decidable [DecidablePred P] : Decidable (t.Only P) :=
  decidable_of_iff ((∀ v ∈ t.array.toList, P v) ∧ ∀ e ∈ t.fields.toList, P e.2.1 ∧ P e.2.2) <| by
    constructor
    · rintro ⟨helements, hfields⟩
      refine ⟨fun v hv => helements v (Array.mem_toList_iff.2 hv), fun k p hp => ?_⟩
      obtain ⟨k', -, hmem⟩ :=
        Std.TreeMap.getElem?_eq_some_iff_exists_compare_eq_eq_and_mem_toList.1 hp
      exact hfields (k', p) hmem
    · intro h
      exact ⟨fun v hv => h.elements v (Array.mem_toList_iff.1 hv), fun e he => h.entry he⟩

theorem Only.fieldAfter (h : t.Only P) (fuel : Nat) (k : Key) {p : Value × Value}
    (hp : fieldAfter t.fields fuel k = some p) : P p.1 ∧ P p.2 := by
  induction fuel generalizing k with
  | zero => cases hp
  | succ fuel ih =>
    unfold Table.fieldAfter at hp
    split at hp
    · cases hp
    · exact ih _ hp
    · next hentry =>
      cases hp
      exact h.entry (mem_of_getEntryGT? hentry)

theorem Only.firstField (h : t.Only P) {p : Value × Value} (hp : t.firstField = some p) :
    P p.1 ∧ P p.2 := by
  unfold Table.firstField at hp
  split at hp
  · cases hp
  · exact h.fieldAfter _ _ hp
  · next hentry =>
    cases hp
    exact h.entry (mem_of_least hentry)

theorem Only.arrayFrom (h : t.Only P) (hint : ∀ n, P (.int n)) (fuel i : Nat) {p : Value × Value}
    (hp : arrayFrom t.array fuel i = some p) : P p.1 ∧ P p.2 := by
  induction fuel generalizing i with
  | zero => cases hp
  | succ fuel ih =>
    unfold Table.arrayFrom at hp
    split at hp
    · cases hp
    · exact ih _ hp
    · next hi =>
      cases hp
      exact ⟨hint _, h.elements _ (Array.mem_of_getElem? hi)⟩

theorem Only.from (h : t.Only P) (hint : ∀ n, P (.int n)) (fuel i : Nat) {p : Value × Value}
    (hp : (Table.arrayFrom t.array fuel i <|> t.firstField) = some p) : P p.1 ∧ P p.2 := by
  cases harray : Table.arrayFrom t.array fuel i with
  | none =>
    rw [harray] at hp
    exact h.firstField hp
  | some pair =>
    rw [harray] at hp
    cases hp
    exact h.arrayFrom hint _ _ harray

theorem Only.next (h : t.Only P) (hint : ∀ n, P (.int n)) (key : Value) {p : Value × Value}
    (hp : t.next key = some (some p)) : P p.1 ∧ P p.2 := by
  unfold Table.next at hp
  split at hp
  · exact h.from hint _ _ (Option.some.inj hp)
  · split at hp
    · cases hp
    · split at hp
      · exact h.from hint _ _ (Option.some.inj hp)
      · split at hp
        · exact h.fieldAfter _ _ (Option.some.inj hp)
        · cases hp

end Table

end ScriptWarden.Lua
