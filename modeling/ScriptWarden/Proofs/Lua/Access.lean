import ScriptWarden.Proofs.Lua.Keeps
set_option autoImplicit false

/-!
# Lua: operations keep the guard

The operations that metatables can change, one after the other: what they read from tables and metatables is
public, and so is what they hand to the functions they call.
-/

namespace ScriptWarden.Lua.Access

open ScriptWarden.Lua.Native

variable {σ α : Type} [HasPublic α] {ward : Ward σ}

theorem keeps_metafield (v : Value) (name : String) :
    (heap (·.metafield v name) : Native σ Value).Keeps ward :=
  keeps_heap fun _ _ hh => hh.public_metafield v name

theorem keeps_table (id : Nat) : (heap (·.table id) : Native σ Table).Keeps ward :=
  keeps_heap fun _ _ hh => hh.tables id

/-! ## Faults -/

theorem keeps_badType (v : Value) (what : String) (origin : Origin) :
    (badType v what origin : Native σ α).Keeps ward :=
  (keeps_look _).bind fun _ _ => keeps_failHere _

theorem keeps_endless (event : String) : (endless event : Native σ α).Keeps ward := keeps_failHere _

/-! ## Fields -/

theorem keeps_indexFrom (fuel : Nat) {obj key : Value} (hobj : IsPublic obj) (hkey : IsPublic key)
    (origin : Origin) : (indexFrom fuel obj key origin : Native σ Value).Keeps ward := by
  have hargs : IsPublic [obj, key] := by simp [hobj, hkey]
  induction fuel generalizing obj origin with
  | zero => exact keeps_endless _
  | succ fuel ih =>
    unfold indexFrom
    split
    · next id =>
      refine (keeps_table id).bind fun t ht => ?_
      simp only
      split
      · exact keeps_pure (ht.get isPublic_nil key)
      · split
        · exact keeps_pure isPublic_nil
        · next m hm =>
          refine (keeps_heap fun _ h hh => hh.public_getText m _).bind fun handler hhandler => ?_
          refine keeps_ite (keeps_pure isPublic_nil) (keeps_ite (keeps_call1 hhandler hargs) ?_)
          exact ih hhandler _ (by simp [hhandler, hkey])
    · refine (keeps_metafield obj _).bind fun handler hhandler => ?_
      refine keeps_ite (keeps_badType _ _ _) (keeps_ite (keeps_call1 hhandler hargs) ?_)
      exact ih hhandler _ (by simp [hhandler, hkey])

theorem keeps_index {obj key : Value} (hobj : IsPublic obj) (hkey : IsPublic key) (origin : Origin) :
    (index obj key origin : Native σ Value).Keeps ward := keeps_indexFrom _ hobj hkey origin

theorem keeps_checkKey (key : Value) : (checkKey key : Native σ Unit).Keeps ward := by
  unfold checkKey
  split
  · exact keeps_failHere _
  · exact keeps_ite (keeps_failHere _) (keeps_pure trivial)
  · exact keeps_pure trivial

theorem keeps_rawSet (id : Nat) {key v : Value} (hkey : IsPublic key) (hv : IsPublic v) :
    (modifyHeap (·.rawSet id key v) : Native σ Unit).Keeps ward :=
  keeps_modifyHeap (fun _ _ hh => hh.rawSet id hkey hv) (fun _ => rfl) fun _ => rfl

theorem keeps_storeFrom (fuel : Nat) {obj key v : Value} (hobj : IsPublic obj) (hkey : IsPublic key)
    (hv : IsPublic v) (origin : Origin) :
    (storeFrom fuel obj key v origin : Native σ Unit).Keeps ward := by
  induction fuel generalizing obj origin with
  | zero => exact keeps_endless _
  | succ fuel ih =>
    have hargs : IsPublic [obj, key, v] := by simp [hobj, hkey, hv]
    unfold storeFrom
    split
    · next id =>
      refine Keeps.bind (keeps_heap fun _ h hh => ?_) fun handler hhandler => ?_
      · simp only
        split
        · exact isPublic_nil
        · split
          · exact hh.public_getText _ _
          · exact isPublic_nil
      · refine keeps_ite ?_ (keeps_ite ?_ (ih hhandler _))
        · exact (keeps_checkKey key).bind fun _ _ => keeps_rawSet id hkey hv
        · exact (keeps_call hhandler hargs).bind fun _ _ => keeps_pure trivial
    · refine (keeps_metafield obj _).bind fun handler hhandler => ?_
      refine keeps_ite (keeps_badType _ _ _) (keeps_ite ?_ (ih hhandler _))
      exact (keeps_call hhandler hargs).bind fun _ _ => keeps_pure trivial

theorem keeps_store {obj key v : Value} (hobj : IsPublic obj) (hkey : IsPublic key) (hv : IsPublic v)
    (origin : Origin) : (store obj key v origin : Native σ Unit).Keeps ward :=
  keeps_storeFrom _ hobj hkey hv origin

/-! ## Arithmetic -/

theorem keeps_handler2 (a b : Value) (event : String) :
    (handler2 a b event : Native σ Value).Keeps ward :=
  (keeps_metafield a event).bind fun _ hf => keeps_ite (keeps_metafield b event) (keeps_pure hf)

theorem keeps_badArith (op : Arith) (a b : Value) (oa ob : Origin) :
    (badArith op a b oa ob : Native σ α).Keeps ward := by
  unfold badArith
  refine keeps_ite (keeps_ite (keeps_failHere _) ?_) ?_
  · exact keeps_badType _ _ _
  · exact keeps_badType _ _ _

@[simp] theorem isPublic_number (n : Number) : IsPublic n.toValue := by
  cases n <;> exact trivial

theorem keeps_arith (op : Arith) {a b : Value} (ha : IsPublic a) (hb : IsPublic b) (oa ob : Origin) :
    (arith op a b oa ob : Native σ Value).Keeps ward := by
  unfold arith
  split
  · exact keeps_pure (isPublic_number _)
  · exact keeps_failHere _
  · refine (keeps_handler2 a b _).bind fun f hf => ?_
    exact keeps_ite (keeps_badArith _ _ _ _ _) (keeps_call1 hf (by simp [ha, hb]))

/-! ## Strings -/

theorem keeps_concat {a b : Value} (ha : IsPublic a) (hb : IsPublic b) (oa ob : Origin) :
    (concat a b oa ob : Native σ Value).Keeps ward := by
  unfold concat
  split
  · exact keeps_makeString _ _
  · refine (keeps_handler2 a b _).bind fun f hf => ?_
    refine keeps_ite (keeps_ite (keeps_badType _ _ _) (keeps_badType _ _ _)) ?_
    exact keeps_call1 hf (by simp [ha, hb])

theorem keeps_len {v : Value} (hv : IsPublic v) (origin : Origin) :
    (len v origin : Native σ Value).Keeps ward := by
  unfold len
  split
  · exact keeps_pure (isPublic_nat _)
  · refine (keeps_metafield v _).bind fun f hf => ?_
    refine keeps_ite (keeps_call1 hf (by simp [hv])) ?_
    split
    · exact keeps_heap fun _ _ _ => isPublic_nat _
    · exact keeps_badType _ _ _

theorem keeps_text {v : Value} (hv : IsPublic v) : (text v : Native σ Bytes).Keeps ward := by
  refine (keeps_metafield v _).bind fun f hf => keeps_ite (keeps_look _) ?_
  refine (keeps_call1 hf (by simp [hv])).bind fun r _ => ?_
  split
  · exact keeps_pure trivial
  · exact keeps_failText _

/-! ## Comparison -/

theorem keeps_equal {a b : Value} (ha : IsPublic a) (hb : IsPublic b) :
    (equal a b : Native σ Bool).Keeps ward := by
  unfold equal
  refine keeps_ite (keeps_pure trivial) ?_
  simp only
  refine keeps_ite (keeps_pure trivial) ((keeps_handler2 a b _).bind fun f hf => ?_)
  refine keeps_ite (keeps_pure trivial) ?_
  exact (keeps_call1 hf (by simp [ha, hb])).bind fun _ _ => keeps_pure trivial

theorem keeps_badOrder (a b : Value) : (badOrder a b : Native σ α).Keeps ward :=
  (keeps_look _).bind fun _ _ => (keeps_look _).bind fun _ _ =>
    keeps_ite (keeps_failHere _) (keeps_failHere _)

theorem keeps_ordered (orEqual : Bool) {a b : Value} (ha : IsPublic a) (hb : IsPublic b) :
    (ordered orEqual a b : Native σ Bool).Keeps ward := by
  unfold ordered
  split
  · exact keeps_pure trivial
  · split
    · exact keeps_pure trivial
    · refine (keeps_handler2 a b _).bind fun f hf => keeps_ite (keeps_badOrder a b) ?_
      exact (keeps_call1 hf (by simp [ha, hb])).bind fun _ _ => keeps_pure trivial

theorem keeps_compare (op : Comparison) {a b : Value} (ha : IsPublic a) (hb : IsPublic b) :
    (compare op a b : Native σ Bool).Keeps ward := by
  cases op with
  | eq => exact keeps_equal ha hb
  | ne => exact (keeps_equal ha hb).bind fun _ _ => keeps_pure trivial
  | lt => exact keeps_ordered _ ha hb
  | le => exact keeps_ordered _ ha hb
  | gt => exact keeps_ordered _ hb ha
  | ge => exact keeps_ordered _ hb ha

end ScriptWarden.Lua.Access
