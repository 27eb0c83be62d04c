import ScriptWarden.Lua.Library.Base
import ScriptWarden.Proofs.Lua.Access
import ScriptWarden.Proofs.Lua.Compiler
set_option autoImplicit false

/-!
# Lua: base functions keep the guard

All but the one behind the guard do.  That one does, too, unless it is called with the global table
(`keeps_setMetatable`).
-/

namespace ScriptWarden.Lua.Library

open ScriptWarden.Lua.Native

variable {σ α : Type} [HasPublic α] {ward : Ward σ} {args : List Value}

/-! ## Arguments -/

theorem public_arg? (hargs : IsPublic args) (i : Nat) : IsPublic (arg? args i) :=
  hargs.getElem? _

theorem public_arg (hargs : IsPublic args) (i : Nat) : IsPublic (arg args i) :=
  (public_arg? hargs i).getD

theorem IsPublic.tail (hargs : IsPublic args) : IsPublic args.tail :=
  hargs.sublist (List.tail_sublist args)

theorem IsPublic.drop (hargs : IsPublic args) (n : Nat) : IsPublic (args.drop n) :=
  hargs.sublist (List.drop_sublist n args)

theorem keeps_wrongType (i : Nat) (expected : String) :
    (wrongType args i expected : Native σ α).Keeps ward :=
  (keeps_look _).bind fun _ _ => keeps_fail (isPublic_argument _ _)

theorem keeps_anyArg (hargs : IsPublic args) (i : Nat) : (anyArg args i : Native σ Value).Keeps ward := by
  unfold anyArg
  split
  · next v hv => exact keeps_pure (public_arg? hargs i v hv)
  · exact keeps_failArgument _ _

theorem keeps_intArg (i : Nat) : (intArg args i : Native σ Int64).Keeps ward := by
  unfold intArg
  simp only
  split
  · exact keeps_wrongType _ _
  · split
    · exact keeps_pure trivial
    · exact keeps_failArgument _ _

theorem keeps_optInt (i : Nat) (default : Int64) : (optInt args i default : Native σ Int64).Keeps ward :=
  keeps_ite (keeps_pure trivial) (keeps_intArg i)

theorem keeps_numberArg (i : Nat) : (numberArg args i : Native σ Number).Keeps ward := by
  unfold numberArg
  split
  · exact keeps_pure trivial
  · exact keeps_wrongType _ _

theorem keeps_floatArg (i : Nat) : (floatArg args i : Native σ Float).Keeps ward :=
  (keeps_numberArg i).bind fun _ _ => keeps_pure trivial

theorem keeps_strArg (i : Nat) : (strArg args i : Native σ Bytes).Keeps ward := by
  unfold strArg
  split
  · exact keeps_pure trivial
  · exact keeps_wrongType _ _

theorem keeps_optStr (i : Nat) (default : Bytes) : (optStr args i default : Native σ Bytes).Keeps ward :=
  keeps_ite (keeps_pure trivial) (keeps_strArg i)

theorem keeps_tableArg (i : Nat) : (tableArg args i : Native σ Nat).Keeps ward := by
  unfold tableArg
  split
  · exact keeps_pure trivial
  · exact keeps_wrongType _ _

theorem keeps_functionArg (hargs : IsPublic args) (i : Nat) :
    (functionArg args i : Native σ Value).Keeps ward :=
  keeps_ite (keeps_pure (public_arg hargs i)) (keeps_wrongType _ _)

theorem keeps_require (condition : Bool) (i : Nat) (message : String) :
    (require condition i message : Native σ Unit).Keeps ward :=
  keeps_ite (keeps_pure trivial) (keeps_failArgument _ _)

/-! ## Errors -/

theorem keeps_raiseAt {v : Value} (hv : IsPublic v) (level : Int64) :
    (raiseAt v level : Native σ α).Keeps ward := by
  unfold raiseAt
  split
  · exact keeps_ite (keeps_fail (isPublic_above _ _)) (keeps_fail hv)
  · exact keeps_fail hv

theorem keeps_assertTrue (hargs : IsPublic args) :
    (assertTrue args : Native σ (List Value)).Keeps ward := by
  refine (keeps_anyArg hargs 1).bind fun v _ => keeps_ite (keeps_pure hargs) (keeps_raiseAt ?_ _)
  cases h : arg? args 2 with
  | none => exact isPublic_text _
  | some message => exact public_arg? hargs 2 message h

theorem keeps_raiseError (hargs : IsPublic args) :
    (raiseError args : Native σ (List Value)).Keeps ward :=
  (keeps_optInt 2 1).bind fun _ _ => keeps_raiseAt (public_arg hargs 1) _

theorem keeps_protectedCall (hargs : IsPublic args) :
    (protectedCall args : Native σ (List Value)).Keeps ward := by
  refine (keeps_anyArg hargs 1).bind fun f hf => ?_
  refine (keeps_guarded hf (IsPublic.tail hargs) isPublic_none).bind fun answer hanswer => ?_
  cases answer with
  | values vs => exact keeps_pure ((isPublic_cons _ vs).2 ⟨trivial, hanswer⟩)
  | raised t => exact keeps_pure (by simpa using hanswer)

theorem keeps_handledCall (hargs : IsPublic args) :
    (handledCall args : Native σ (List Value)).Keeps ward := by
  refine (keeps_functionArg hargs 2).bind fun handler hhandler => ?_
  have hsome : IsPublic (some handler) := (isPublic_some handler).2 hhandler
  refine (keeps_guarded (public_arg hargs 1) (IsPublic.drop hargs 2) hsome).bind fun answer hanswer => ?_
  cases answer with
  | values vs => exact keeps_pure ((isPublic_cons _ vs).2 ⟨trivial, hanswer⟩)
  | raised t => exact keeps_pure (by simpa using hanswer)

/-! ## Metatables -/

theorem keeps_getMetatable (hargs : IsPublic args) :
    (getMetatable args : Native σ (List Value)).Keeps ward := by
  refine (keeps_anyArg hargs 1).bind fun v _ => (Access.keeps_metafield v _).bind fun shown hshown => ?_
  refine keeps_ite (keeps_pure (by simpa using hshown)) ?_
  refine Keeps.bind (keeps_heap fun _ _ _ _ _ => trivial) fun m _ => ?_
  cases m with
  | none => exact keeps_pure (by simp)
  | some id => exact keeps_pure (by simp)

/-- Beside the table, a new metatable changes only what is marked. -/
theorem setMetatable_eq (h : Heap) (id : Nat) (metatable : Option Nat) : ∃ marked, h.setMetatable id metatable =
    { h.modifyTable id fun t => { t with metatable } with marked } := by
  unfold Heap.setMetatable Heap.mark
  simp only
  split
  · exact ⟨h.marked, rfl⟩
  · split
    · exact ⟨h.marked, rfl⟩
    · exact ⟨id :: h.marked, rfl⟩

theorem grows_setMetatable (shared : Nat → Prop) (h : Heap) (id : Nat) (m : Option Nat) :
    Heap.Grows shared shared h (h.setMetatable id m) := by
  obtain ⟨marked, heq⟩ := setMetatable_eq h id m
  rw [heq]
  exact .of_cells rfl rfl

theorem guarded_setMetatable {shared : Nat → Prop} {guard : Closure} {h : Heap}
    (hh : h.Guarded guard shared) {id : Nat} (hid : id ≠ h.globals) (m : Option Nat) :
    (h.setMetatable id m).Guarded guard shared := by
  have hmodified : (h.modifyTable id fun t => { t with metatable := m }).Guarded guard shared :=
    hh.modify id (fun _ ht => ht.withMetatable m) fun heq => absurd heq hid
  obtain ⟨marked, heq⟩ := setMetatable_eq h id m
  rw [heq]
  exact hmodified.of_eq rfl rfl rfl rfl rfl

/-! ## Tables -/

theorem keeps_nextPair : (nextPair args : Native σ (List Value)).Keeps ward := by
  refine (keeps_tableArg 1).bind fun id _ => ?_
  have hnext : (heap fun h => (h.table id).next (arg args 2) :
      Native σ (Option (Option (Value × Value)))).Keeps ward := by
    refine keeps_heap fun shared h hh => ?_
    rintro _ hfound p rfl
    exact (hh.tables id).next isPublic_int _ hfound
  refine hnext.bind fun found hfound => ?_
  cases found with
  | none => exact keeps_failHere _
  | some pair? =>
    cases pair? with
    | none => exact keeps_pure (by simp)
    | some pair =>
      obtain ⟨k, v⟩ := pair
      exact keeps_pure (by simpa using hfound)

theorem keeps_beginPairs (hargs : IsPublic args) :
    (beginPairs args : Native σ (List Value)).Keeps ward := by
  refine (keeps_anyArg hargs 1).bind fun v hv => (Access.keeps_metafield v _).bind fun f hf => ?_
  refine keeps_ite (keeps_pure (by simp [hv])) ?_
  refine (keeps_call hf (by simp [hv])).bind fun vs hvs => keeps_pure ?_
  have hget : ∀ i : Nat, IsPublic (vs[i]?.getD .nil) := fun i => (hvs.getElem? i).getD
  simp only [isPublic_cons]
  exact ⟨hget 0, hget 1, hget 2, isPublic_emptyList⟩

theorem keeps_beginList (hargs : IsPublic args) :
    (beginList args : Native σ (List Value)).Keeps ward :=
  (keeps_anyArg hargs 1).bind fun v hv => keeps_pure (by simp [hv])

theorem keeps_listStep (hargs : IsPublic args) :
    (listStep args : Native σ (List Value)).Keeps ward := by
  refine (keeps_intArg 2).bind fun i _ => ?_
  refine (Access.keeps_index (public_arg hargs 1) (isPublic_int _) _).bind fun v hv => keeps_pure ?_
  split <;> simp [hv]

theorem keeps_sameValue (hargs : IsPublic args) :
    (sameValue args : Native σ (List Value)).Keeps ward :=
  (keeps_anyArg hargs 1).bind fun _ _ => (keeps_anyArg hargs 2).bind fun _ _ => keeps_pure (by simp)

theorem keeps_rawLength : (rawLength args : Native σ (List Value)).Keeps ward := by
  unfold rawLength
  split
  · exact (keeps_look _).bind fun _ _ => keeps_pure (by simp)
  · exact keeps_pure (by simp)
  · exact keeps_wrongType _ _

theorem keeps_getRaw (hargs : IsPublic args) : (getRaw args : Native σ (List Value)).Keeps ward := by
  refine (keeps_tableArg 1).bind fun id _ => (keeps_anyArg hargs 2).bind fun k _ => ?_
  exact (keeps_heap fun _ _ hh => hh.public_get id k).bind fun v hv => keeps_pure (by simp [hv])

theorem keeps_setRaw (hargs : IsPublic args) : (setRaw args : Native σ (List Value)).Keeps ward := by
  refine (keeps_tableArg 1).bind fun id _ => (keeps_anyArg hargs 2).bind fun k hk => ?_
  refine (keeps_anyArg hargs 3).bind fun v hv => (Access.keeps_checkKey k).bind fun _ _ => ?_
  exact (Access.keeps_rawSet id hk hv).bind fun _ _ => keeps_pure (by simp)

theorem keeps_selectArgs (hargs : IsPublic args) :
    (selectArgs args : Native σ (List Value)).Keeps ward := by
  have hplaces : (do
      let n := (← intArg args 1).toInt
      let count : Int := args.tail.length
      if n < 0 then
        require (0 ≤ count + n) 1 "index out of range"
        return args.tail.drop (count + n).toNat
      else
        require (1 ≤ n) 1 "index out of range"
        return args.tail.drop (n.toNat - 1) : Native σ (List Value)).Keeps ward := by
    refine (keeps_intArg 1).bind fun n _ => keeps_ite ?_ ?_
    · exact (keeps_require _ _ _).bind fun _ _ => keeps_pure (IsPublic.drop (IsPublic.tail hargs) _)
    · exact (keeps_require _ _ _).bind fun _ _ => keeps_pure (IsPublic.drop (IsPublic.tail hargs) _)
  unfold selectArgs
  simp only
  split
  · exact keeps_ite (keeps_pure (by simp)) hplaces
  · exact hplaces

/-! ## Text and numbers -/

theorem keeps_write (s : String) : (printAll.write s : Native σ Unit).Keeps ward :=
  keeps_modifyHeap (fun _ _ hh => hh.of_eq rfl rfl rfl rfl rfl) (fun _ => rfl) fun _ => rfl

theorem keeps_printAll (hargs : IsPublic args) (first : Bool) :
    (printAll args first : Native σ (List Value)).Keeps ward := by
  induction args generalizing first with
  | nil => exact (keeps_write _).bind fun _ _ => keeps_pure isPublic_emptyList
  | cons v rest ih =>
    have hv := ((isPublic_cons v rest).1 hargs).1
    have hrest := ih ((isPublic_cons v rest).1 hargs).2 false
    have hshow : (do
        let s ← Access.text v
        modifyHeap fun h => { h with printed := h.printed ++ s }
        printAll rest false : Native σ (List Value)).Keeps ward := by
      refine (Access.keeps_text hv).bind fun s _ => Keeps.bind ?_ fun _ _ => hrest
      exact keeps_modifyHeap (fun _ _ hh => hh.of_eq rfl rfl rfl rfl rfl) (fun _ => rfl) fun _ => rfl
    exact keeps_ite ((keeps_write _).bind fun _ _ => hshow) hshow

theorem keeps_toText (hargs : IsPublic args) : (toText args : Native σ (List Value)).Keeps ward := by
  refine (keeps_anyArg hargs 1).bind fun v hv => (Access.keeps_text hv).bind fun s _ => ?_
  exact (keeps_newString s).bind fun v hv => keeps_pure (by simp [hv])

theorem keeps_typeOf (hargs : IsPublic args) : (typeOf args : Native σ (List Value)).Keeps ward :=
  (keeps_anyArg hargs 1).bind fun _ _ => keeps_pure (by simp)

theorem keeps_toNumber (hargs : IsPublic args) :
    (toNumber args : Native σ (List Value)).Keeps ward := by
  refine keeps_ite ((keeps_anyArg hargs 1).bind fun v _ => keeps_pure ?_) ?_
  · cases v.toNumber? with
    | none => simp
    | some n => simp
  · split
    · refine (keeps_intArg 2).bind fun base _ => (keeps_require _ _ _).bind fun _ _ => keeps_pure ?_
      cases intInBase? base.toInt.toNat _ with
      | none => simp
      | some n => simp
    · exact (keeps_intArg 2).bind fun _ _ => keeps_wrongType _ _

/-! ## Chunks -/

/-- A loaded chunk is public code over one new variable, its environment. -/
theorem guarded_loadSource {guard : Closure} {shared : Nat → Prop} {h : Heap}
    (hh : h.Guarded guard shared) (chunk source : Bytes) {env : Option Value} (henv : IsPublic env) :
    IsPublic (loadSource chunk source env h).1 ∧
      ∃ shared', Heap.Grows shared shared' h (loadSource chunk source env h).2 ∧
        (loadSource chunk source env h).2.Guarded guard shared' := by
  have hstay : ∃ shared', Heap.Grows shared shared' h h ∧ h.Guarded guard shared' :=
    ⟨shared, .refl shared h, hh⟩
  unfold loadSource
  split
  · exact ⟨isPublic_error _, hstay⟩
  · split
    · exact ⟨isPublic_error _, hstay⟩
    · next program _ =>
      simp only
      split
      · exact ⟨isPublic_error _, hstay⟩
      · next proto hproto =>
        have hv : IsPublic (env.getD (.table h.globals)) := by
          cases env with
          | none => exact isPublic_table _
          | some v => exact henv v rfl
        have hprotos := Compiler.public_compile program
        have hguarded := (hh.newCell hv).newClosure (c := ⟨Compiler.compile program, proto,
          proto.captures.map fun _ => h.cells.size⟩)
          { code := hprotos proto (Array.mem_of_back? hproto)
            image := hprotos
            captured := fun id hid => by
              obtain ⟨_, _, rfl⟩ := Array.mem_map.1 hid
              exact .inr rfl }
        refine ⟨?_, _, (Heap.Guarded.grows_newCell h _).trans (.of_cells rfl rfl), hguarded⟩
        exact (isPublic_ok _).2 (Nat.ne_of_gt hh.started)

theorem keeps_readPieces {reader : Value} (hreader : IsPublic reader) (fuel : Nat) (got : Bytes) :
    (readPieces reader fuel got : Native σ (Except Bytes Bytes)).Keeps ward := by
  induction fuel generalizing got with
  | zero => exact keeps_pure (fun _ _ => trivial)
  | succ fuel ih =>
    refine (keeps_call1 hreader isPublic_emptyList).bind fun v _ => ?_
    split
    · exact keeps_pure (fun _ _ => trivial)
    · split
      · exact keeps_pure (fun _ _ => trivial)
      · exact keeps_ite (keeps_pure fun _ _ => trivial) (ih _)

theorem isPublic_refused (message : Bytes) : IsPublic [Value.nil, .str message] := by simp

theorem keeps_loaded (hargs : IsPublic args) (chunk source : Bytes) : (do
    match ← create (loadSource chunk source (arg? args 4)) with
    | .ok f => return [f]
    | .error message => return [Value.nil, .str message] : Native σ (List Value)).Keeps ward := by
  refine (keeps_create fun _ _ hh => guarded_loadSource hh chunk source (public_arg? hargs 4)).bind
    fun r hr => ?_
  cases r with
  | ok f => exact keeps_pure (by simpa using hr)
  | error message => exact keeps_pure (isPublic_refused message)

theorem keeps_loadChunk (hargs : IsPublic args) :
    (loadChunk args : Native σ (List Value)).Keeps ward := by
  refine (keeps_optStr 3 _).bind fun mode _ => ?_
  simp only
  split
  · refine (keeps_optStr 2 _).bind fun chunk _ => keeps_ite (keeps_pure (isPublic_refused _)) (keeps_loaded hargs _ _)
  · refine (keeps_optStr 2 _).bind fun chunk _ => (keeps_functionArg hargs 1).bind fun reader hr => ?_
    refine (keeps_readPieces hr _ _).bind fun r _ => ?_
    cases r with
    | ok source => exact keeps_ite (keeps_pure (isPublic_refused _)) (keeps_loaded hargs _ _)
    | error message => exact keeps_pure (isPublic_refused message)

theorem keeps_noFile : (noFile args : Native σ Bytes).Keeps ward :=
  (keeps_optStr 1 _).bind fun _ _ => keeps_pure trivial

/-! ## Housekeeping -/

theorem keeps_collect : (collect args : Native σ (List Value)).Keeps ward := by
  refine (keeps_optStr 1 _).bind fun option _ => ?_
  split
  · exact keeps_fail (isPublic_argument _ _)
  · exact keeps_heap fun _ _ _ => by simp
  all_goals exact keeps_pure (by simp)

theorem keeps_warn : (warn args : Native σ (List Value)).Keeps ward := by
  refine (keeps_strArg 1).bind fun _ _ => ?_
  refine (keeps_mapM (fun i => keeps_strArg (i + 1)) _).bind fun _ _ => keeps_pure isPublic_emptyList

theorem keeps_base {f : Builtin} (hf : f ≠ .setmetatable) (hargs : IsPublic args) :
    (base f args : Native σ (List Value)).Keeps ward := by
  unfold base
  split
  · exact keeps_assertTrue hargs
  · exact keeps_collect
  · exact keeps_noFile.bind fun _ _ => keeps_fail (isPublic_above _ _)
  · exact keeps_raiseError hargs
  · exact keeps_getMetatable hargs
  · exact keeps_beginList hargs
  · exact keeps_listStep hargs
  · exact keeps_loadChunk hargs
  · exact keeps_noFile.bind fun _ _ => keeps_pure (by simp)
  · exact keeps_nextPair
  · exact keeps_beginPairs hargs
  · exact keeps_protectedCall hargs
  · exact keeps_printAll hargs true
  · exact keeps_sameValue hargs
  · exact keeps_getRaw hargs
  · exact keeps_rawLength
  · exact keeps_setRaw hargs
  · exact keeps_selectArgs hargs
  · exact absurd rfl hf
  · exact keeps_toNumber hargs
  · exact keeps_toText hargs
  · exact keeps_typeOf hargs
  · exact keeps_warn
  · exact keeps_handledCall hargs
  · exact keeps_pure isPublic_emptyList

end ScriptWarden.Lua.Library
