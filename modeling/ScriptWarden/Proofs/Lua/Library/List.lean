import ScriptWarden.Lua.Library.List
import ScriptWarden.Proofs.Lua.Library.Base
set_option autoImplicit false

/-!
# Lua: functions on lists keep the guard

Lists are read and written through `Access` alone, so that each function is a chain of operations that keep the
guard.
-/

namespace ScriptWarden.Lua.Library

open ScriptWarden.Lua.Native

variable {σ α : Type} [HasPublic α] {ward : Ward σ} {args : List Value} {list order pivot : Value}

/-! ## Access -/

theorem keeps_listArg (hargs : IsPublic args) (i : Nat) (use : ListUse) :
    (listArg args i use : Native σ Value).Keeps ward := by
  unfold listArg
  simp only
  split
  · exact keeps_pure (public_arg hargs i)
  · have hoffers : ∀ (needed : Bool) (event : String), (do
        return !needed || !(← heap (·.metafield (arg args i) event)).isNil : Native σ Bool).Keeps ward :=
      fun _ _ => (Access.keeps_metafield _ _).bind fun _ _ => keeps_pure trivial
    refine (keeps_look _).bind fun known _ => (hoffers _ _).bind fun _ _ => (hoffers _ _).bind
      fun _ _ => (hoffers _ _).bind fun _ _ => ?_
    exact keeps_ite (keeps_pure (public_arg hargs i)) (keeps_wrongType _ _)

theorem keeps_lengthOf {v : Value} (hv : IsPublic v) : (lengthOf v : Native σ Int64).Keeps ward := by
  refine (Access.keeps_len hv _).bind fun n _ => ?_
  split
  · exact keeps_pure trivial
  · split
    · exact keeps_pure trivial
    · exact keeps_failText _

theorem keeps_element (hlist : IsPublic list) (i : Int64) :
    (element list i : Native σ Value).Keeps ward :=
  Access.keeps_index hlist (isPublic_int i) _

theorem keeps_setElement (hlist : IsPublic list) (i : Int64) {v : Value} (hv : IsPublic v) :
    (setElement list i v : Native σ Unit).Keeps ward :=
  Access.keeps_store hlist (isPublic_int i) hv _

/-! ## Lists -/

theorem keeps_joinFrom (hlist : IsPublic list) (separator : Bytes) (fuel : Nat) (i last : Int64)
    (got : Bytes) : (joinFrom list separator fuel i last got : Native σ Bytes).Keeps ward := by
  induction fuel generalizing i got with
  | zero => exact keeps_pure trivial
  | succ fuel ih =>
    refine (keeps_element hlist i).bind fun v _ => ?_
    split
    · exact keeps_failText _
    · exact keeps_ite (keeps_pure trivial) (ih _ _)

theorem keeps_concatList (hargs : IsPublic args) :
    (concatList args : Native σ (List Value)).Keeps ward := by
  refine (keeps_listArg hargs 1 _).bind fun list hlist => (keeps_lengthOf hlist).bind fun length _ => ?_
  refine (keeps_optStr 2 _).bind fun separator _ => (keeps_optInt 3 _).bind fun first _ => ?_
  refine (keeps_optInt 4 _).bind fun last _ => (keeps_joinFrom hlist _ _ _ _ _).bind fun s _ => ?_
  exact (keeps_newString s).bind fun v hv => keeps_pure (by simp [hv])

theorem keeps_shift (hlist : IsPublic list) (fuel : Nat) (source target step : Int64) :
    (shift list fuel source target step : Native σ Unit).Keeps ward := by
  induction fuel generalizing source target with
  | zero => exact keeps_pure trivial
  | succ fuel ih =>
    refine (keeps_element hlist source).bind fun v hv => ?_
    exact (keeps_setElement hlist target hv).bind fun _ _ => ih _ _

theorem keeps_insertElement (hargs : IsPublic args) :
    (insertElement args : Native σ (List Value)).Keeps ward := by
  refine (keeps_listArg hargs 1 _).bind fun list hlist => (keeps_lengthOf hlist).bind fun length _ => ?_
  split
  · exact (keeps_setElement hlist _ (public_arg hargs 2)).bind fun _ _ => keeps_pure isPublic_emptyList
  · refine (keeps_intArg 2).bind fun position _ => (keeps_require _ _ _).bind fun _ _ => ?_
    refine (keeps_shift hlist _ _ _ _).bind fun _ _ => ?_
    exact (keeps_setElement hlist _ (public_arg hargs 3)).bind fun _ _ => keeps_pure isPublic_emptyList
  · exact keeps_failText _

theorem keeps_removeElement (hargs : IsPublic args) :
    (removeElement args : Native σ (List Value)).Keeps ward := by
  refine (keeps_listArg hargs 1 _).bind fun list hlist => (keeps_lengthOf hlist).bind fun size _ => ?_
  refine (keeps_optInt 2 _).bind fun position _ => ?_
  have htake : (do
      let v ← element list position
      let last := if position.toInt < size.toInt then size else position
      shift list (span (position + 1) size) (position + 1) position 1
      setElement list last .nil
      return [v] : Native σ (List Value)).Keeps ward := by
    refine (keeps_element hlist position).bind fun v hv => (keeps_shift hlist _ _ _ _).bind fun _ _ => ?_
    exact (keeps_setElement hlist _ isPublic_nil).bind fun _ _ => keeps_pure (by simp [hv])
  exact keeps_ite ((keeps_require _ _ _).bind fun _ _ => htake) htake

theorem keeps_moveElements (hargs : IsPublic args) :
    (moveElements args : Native σ (List Value)).Keeps ward := by
  refine (keeps_intArg 2).bind fun first _ => (keeps_intArg 3).bind fun last _ => ?_
  refine (keeps_intArg 4).bind fun target _ => (keeps_listArg hargs 1 _).bind fun source hsource => ?_
  refine (keeps_listArg hargs _ _).bind fun destination hdestination => ?_
  have hcopy : ∀ k : Nat, (do
      setElement destination (target + Int64.ofNat k) (← element source (first + Int64.ofNat k)) :
        Native σ Unit).Keeps ward :=
    fun k => (keeps_element hsource _).bind fun v hv => keeps_setElement hdestination _ hv
  have hresult : (pure [destination] : Native σ (List Value)).Keeps ward :=
    keeps_pure (by simp [hdestination])
  refine keeps_ite ?_ hresult
  refine (keeps_require _ _ _).bind fun _ _ => (keeps_require _ _ _).bind fun _ _ => ?_
  refine (Access.keeps_equal hsource hdestination).bind fun same _ => keeps_ite ?_ ?_
  · exact (keeps_forM hcopy _).bind fun _ _ => hresult
  · exact (keeps_forM hcopy _).bind fun _ _ => hresult

/-- A new list of public values. -/
theorem guarded_newList {guard : Closure} {shared : Nat → Prop} {h : Heap}
    (hh : h.Guarded guard shared) {vs : List Value} (hvs : IsPublic vs) :
    (h.newList vs).2.Guarded guard shared := by
  refine hh.newTable ⟨fun v hv => hvs v (by simpa using hv), fun k p hp => ?_⟩
  simp at hp

theorem keeps_packArgs (hargs : IsPublic args) : (packArgs args : Native σ (List Value)).Keeps ward := by
  refine Keeps.bind (keeps_create fun shared h hh => ?_) fun id _ => ?_
  · exact ⟨trivial, shared, .of_cells rfl rfl, guarded_newList hh hargs⟩
  · exact (Access.keeps_rawSet id (isPublic_text _) (isPublic_nat _)).bind fun _ _ => keeps_pure (by simp)

theorem keeps_unpackList (hargs : IsPublic args) :
    (unpackList args : Native σ (List Value)).Keeps ward := by
  have hlist := public_arg hargs 1
  refine (keeps_optInt 2 _).bind fun first _ => ?_
  have hall : ∀ last : Int64, (do
      if last.toInt < first.toInt then return []
      let n := span first last
      if resultLimit ≤ n then failText "too many results to unpack"
      (List.range n).mapM fun k => element (arg args 1) (first + Int64.ofNat k) :
        Native σ (List Value)).Keeps ward := by
    intro last
    have hread : ((List.range (span first last)).mapM fun k =>
        element (arg args 1) (first + Int64.ofNat k) : Native σ (List Value)).Keeps ward :=
      keeps_mapM (fun k => keeps_element hlist (first + Int64.ofNat k)) _
    exact keeps_ite (keeps_pure isPublic_emptyList) (keeps_ite ((keeps_failText _).bind fun _ _ => hread) hread)
  exact keeps_ite ((keeps_lengthOf hlist).bind fun last _ => hall last)
    ((keeps_intArg 3).bind fun last _ => hall last)

/-! ## Sorting -/

theorem keeps_comesBefore (horder : IsPublic order) {a b : Value} (ha : IsPublic a) (hb : IsPublic b) :
    (comesBefore order a b : Native σ Bool).Keeps ward :=
  keeps_ite (Access.keeps_ordered _ ha hb)
    ((keeps_call1 horder (by simp [ha, hb])).bind fun _ _ => keeps_pure trivial)

theorem keeps_badOrder : (badOrder : Native σ α).Keeps ward := keeps_failText _

theorem keeps_climb (hlist : IsPublic list) (horder : IsPublic order) (hpivot : IsPublic pivot)
    (fuel : Nat) (i high : Int64) :
    (climb list order pivot fuel i high : Native σ (Int64 × Value)).Keeps ward := by
  induction fuel generalizing i with
  | zero => exact keeps_badOrder
  | succ fuel ih =>
    refine (keeps_element hlist _).bind fun v hv => (keeps_comesBefore horder hv hpivot).bind fun _ _ => ?_
    exact keeps_ite (keeps_ite keeps_badOrder (ih _)) (keeps_pure ⟨trivial, hv⟩)

theorem keeps_descend (hlist : IsPublic list) (horder : IsPublic order) (hpivot : IsPublic pivot)
    (fuel : Nat) (i j : Int64) :
    (descend list order pivot fuel i j : Native σ (Int64 × Value)).Keeps ward := by
  induction fuel generalizing j with
  | zero => exact keeps_badOrder
  | succ fuel ih =>
    refine (keeps_element hlist _).bind fun v hv => (keeps_comesBefore horder hpivot hv).bind fun _ _ => ?_
    exact keeps_ite (keeps_ite keeps_badOrder (ih _)) (keeps_pure ⟨trivial, hv⟩)

theorem keeps_partition (hlist : IsPublic list) (horder : IsPublic order) (hpivot : IsPublic pivot)
    (fuel : Nat) (i j high : Int64) :
    (partition list order pivot fuel i j high : Native σ Int64).Keeps ward := by
  induction fuel generalizing i j with
  | zero => exact keeps_badOrder
  | succ fuel ih =>
    refine (keeps_climb hlist horder hpivot _ _ _).bind fun ⟨i, a⟩ ha => ?_
    refine (keeps_descend hlist horder hpivot _ _ _).bind fun ⟨j, b⟩ hb => keeps_ite ?_ ?_
    · refine (keeps_setElement hlist _ ha.2).bind fun _ _ => ?_
      exact (keeps_setElement hlist _ hpivot).bind fun _ _ => keeps_pure trivial
    · refine (keeps_setElement hlist _ hb.2).bind fun _ _ => ?_
      exact (keeps_setElement hlist _ ha.2).bind fun _ _ => ih _ _

theorem keeps_sortPair (hlist : IsPublic list) (horder : IsPublic order) (i j : Int64) :
    (sortPair list order i j : Native σ Unit).Keeps ward := by
  refine (keeps_element hlist i).bind fun a ha => (keeps_element hlist j).bind fun b hb => ?_
  refine (keeps_comesBefore horder hb ha).bind fun _ _ => keeps_ite ?_ (keeps_pure trivial)
  exact (keeps_setElement hlist i hb).bind fun _ _ => keeps_setElement hlist j ha

theorem keeps_sortBetween (hlist : IsPublic list) (horder : IsPublic order) (fuel : Nat)
    (low high : Int64) : (sortBetween list order fuel low high : Native σ Unit).Keeps ward := by
  induction fuel generalizing low high with
  | zero => exact keeps_pure trivial
  | succ fuel ih =>
    refine keeps_ite ?_ (keeps_pure trivial)
    refine (keeps_sortPair hlist horder low high).bind fun _ _ => keeps_ite (keeps_pure trivial) ?_
    refine (keeps_element hlist _).bind fun m hm => (keeps_element hlist _).bind fun l hl => ?_
    refine (keeps_comesBefore horder hm hl).bind fun _ _ => ?_
    extract_lets rest
    have hrest : ∀ u, (rest u : Native σ Unit).Keeps ward := by
      intro u
      refine keeps_ite (keeps_pure trivial) ?_
      refine (keeps_element hlist _).bind fun pivot hpivot => (keeps_element hlist _).bind fun v hv => ?_
      refine (keeps_setElement hlist _ hv).bind fun _ _ => ?_
      refine (keeps_setElement hlist _ hpivot).bind fun _ _ => ?_
      refine (keeps_partition hlist horder hpivot _ _ _ _).bind fun p _ => keeps_ite ?_ ?_
      · exact (ih _ _).bind fun _ _ => ih _ _
      · exact (ih _ _).bind fun _ _ => ih _ _
    refine keeps_ite ?_ ?_
    · exact (keeps_setElement hlist _ hl).bind fun _ _ => (keeps_setElement hlist _ hm).bind
        fun _ _ => hrest ()
    · refine (keeps_element hlist _).bind fun v hv => (keeps_comesBefore horder hv hm).bind
        fun _ _ => keeps_ite ?_ (hrest ())
      exact (keeps_setElement hlist _ hv).bind fun _ _ => (keeps_setElement hlist _ hm).bind
        fun _ _ => hrest ()

theorem keeps_sortList (hargs : IsPublic args) :
    (sortList args : Native σ (List Value)).Keeps ward := by
  refine (keeps_listArg hargs 1 _).bind fun list hlist => (keeps_lengthOf hlist).bind fun n _ => ?_
  have hresult : (pure [] : Native σ (List Value)).Keeps ward := keeps_pure isPublic_emptyList
  refine keeps_ite ((keeps_require _ _ _).bind fun _ _ => ?_) hresult
  have hsort : ∀ order : Value, IsPublic order → (do
      sortBetween list order n.toInt.toNat 1 n
      return [] : Native σ (List Value)).Keeps ward :=
    fun order horder => (keeps_sortBetween hlist horder _ _ _).bind fun _ _ => hresult
  exact keeps_ite (hsort _ isPublic_nil) ((keeps_functionArg hargs 2).bind hsort)

theorem keeps_list (f : Builtin) (hargs : IsPublic args) :
    (Library.list f args : Native σ (List Value)).Keeps ward := by
  unfold Library.list
  split
  · exact keeps_concatList hargs
  · exact keeps_insertElement hargs
  · exact keeps_moveElements hargs
  · exact keeps_packArgs hargs
  · exact keeps_removeElement hargs
  · exact keeps_sortList hargs
  · exact keeps_unpackList hargs
  · exact keeps_pure isPublic_emptyList

end ScriptWarden.Lua.Library
