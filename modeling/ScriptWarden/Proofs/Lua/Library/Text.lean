import ScriptWarden.Lua.Library.Install
import ScriptWarden.Proofs.Lua.Library.Base
set_option autoImplicit false

/-!
# Lua: functions on strings keep the guard

Patterns, formats and packing make strings and numbers; only a replacement calls functions and reads tables.
-/

namespace ScriptWarden.Lua.Library

open ScriptWarden.Lua.Native

variable {σ α : Type} [HasPublic α] {ward : Ward σ} {args : List Value}

/-! ## Bytes -/

/-- A new string as the only result. -/
theorem keeps_oneString (s : Bytes) :
    (do return [← newString s] : Native σ (List Value)).Keeps ward :=
  (keeps_newString s).bind fun _ hv => keeps_pure (by simp [hv])

theorem keeps_mapBytes (f : UInt8 → UInt8) : (mapBytes args f : Native σ (List Value)).Keeps ward :=
  (keeps_strArg 1).bind fun _ _ => keeps_oneString _

theorem keeps_byteNumbers : (byteNumbers args : Native σ (List Value)).Keeps ward := by
  refine (keeps_strArg 1).bind fun s _ => (keeps_optInt 2 _).bind fun start _ => ?_
  refine (keeps_optInt 3 _).bind fun last _ => keeps_pure fun v hv => ?_
  obtain ⟨b, _, rfl⟩ := List.mem_map.1 hv
  exact isPublic_nat _

theorem keeps_fromNumbers : (fromNumbers args : Native σ (List Value)).Keeps ward := by
  have hbyte : ∀ i : Nat, (do
      let n ← intArg args (i + 1)
      require (0 ≤ n.toInt ∧ n.toInt ≤ 255) (i + 1) "value out of range"
      return n.toUInt64.toUInt8 : Native σ UInt8).Keeps ward :=
    fun i => (keeps_intArg _).bind fun _ _ => (keeps_require _ _ _).bind fun _ _ => keeps_pure trivial
  exact (keeps_mapM hbyte _).bind fun _ _ => keeps_oneString _

theorem keeps_repeatString : (repeatString args : Native σ (List Value)).Keeps ward := by
  refine (keeps_strArg 1).bind fun s _ => (keeps_intArg 2).bind fun n _ => ?_
  refine (keeps_optStr 3 _).bind fun separator _ => keeps_ite (keeps_pure (by simp)) ?_
  have hmake : ∀ (room : Nat) (make : Unit → Bytes),
      (do return [← makeString room make] : Native σ (List Value)).Keeps ward :=
    fun room make => (keeps_makeString room make).bind fun _ hv => keeps_pure (by simp [hv])
  exact keeps_ite ((keeps_failText _).bind fun _ _ => hmake _ _) (hmake _ _)

/-! ## Patterns -/

theorem keeps_orFault {r : Except String α} (hr : IsPublic r) : (orFault r : Native σ α).Keeps ward := by
  cases r with
  | ok a => exact keeps_pure ((isPublic_ok a).1 hr)
  | error e => exact keeps_failText e

theorem isPublic_captureValue (subject : Bytes) (start : Nat) (m : Pattern.Match) (i : Nat) :
    IsPublic (Pattern.captureValue subject start m i) := by
  unfold Pattern.captureValue
  split
  · split
    · exact (isPublic_ok _).2 (isPublic_str _)
    · exact isPublic_error _
  · split
    · exact isPublic_error _
    · exact (isPublic_ok _).2 (isPublic_nat _)
    · exact (isPublic_ok _).2 (isPublic_str _)

/-- Reading captures one after the other. -/
theorem isPublic_mapM {γ ε : Type} {f : γ → Except ε Value} (hf : ∀ c, IsPublic (f c)) (cs : List γ) :
    IsPublic (cs.mapM f) := by
  induction cs with
  | nil => exact (isPublic_ok _).2 isPublic_emptyList
  | cons c cs ih =>
    rw [List.mapM_cons]
    have hc := hf c
    cases hhead : f c with
    | error e => exact isPublic_error e
    | ok v =>
      rw [hhead] at hc
      cases htail : cs.mapM f with
      | error e => exact isPublic_error e
      | ok vs =>
        rw [htail] at ih
        exact (isPublic_ok _).2 ((isPublic_cons v vs).2 ⟨(isPublic_ok v).1 hc, (isPublic_ok vs).1 ih⟩)

theorem isPublic_captureValues (subject : Bytes) (start : Nat) (m : Pattern.Match) (whole : Bool) :
    IsPublic (Pattern.captureValues subject start m whole) :=
  isPublic_mapM (isPublic_captureValue subject start m) _

theorem keeps_captures (subject : Bytes) (start : Nat) (m : Pattern.Match) (whole : Bool) :
    (orFault (Pattern.captureValues subject start m whole) : Native σ (List Value)).Keeps ward :=
  keeps_orFault (isPublic_captureValues subject start m whole)

/-- A search gives places and no values. -/
theorem keeps_found (r : Except String (Option (Nat × Pattern.Match))) :
    (orFault r : Native σ (Option (Nat × Pattern.Match))).Keeps ward :=
  keeps_orFault fun _ _ _ _ => ⟨trivial, trivial⟩

theorem keeps_findPattern (find : Bool) : (findPattern args find : Native σ (List Value)).Keeps ward := by
  refine (keeps_strArg 1).bind fun s _ => (keeps_strArg 2).bind fun pat _ => ?_
  refine (keeps_optInt 3 _).bind fun first _ => keeps_ite (keeps_pure (by simp)) (keeps_ite ?_ ?_)
  · split
    · exact keeps_pure (by simp)
    · exact keeps_pure (by simp)
  · refine (keeps_found _).bind fun found _ => ?_
    cases found with
    | none => exact keeps_pure (by simp)
    | some at_ =>
      refine (keeps_captures _ _ _ _).bind fun captures hcaptures => keeps_pure ?_
      split
      · simpa using hcaptures
      · exact hcaptures

theorem keeps_beginMatches : (beginMatches args : Native σ (List Value)).Keeps ward := by
  refine (keeps_strArg 1).bind fun subject _ => (keeps_strArg 2).bind fun pattern _ => ?_
  refine (keeps_optInt 3 _).bind fun first _ => Keeps.bind ?_ fun id _ => keeps_pure (by simp)
  exact keeps_create fun shared h hh =>
    ⟨trivial, shared, .of_cells rfl rfl, hh.of_eq rfl rfl rfl rfl rfl⟩

theorem keeps_matchStep (id : Nat) : (matchStep id : Native σ (List Value)).Keeps ward := by
  refine (keeps_look _).bind fun m _ => (keeps_found _).bind fun found _ => ?_
  cases found with
  | none => exact keeps_pure (by simp)
  | some at_ =>
    refine Keeps.bind ?_ fun _ _ => keeps_captures _ _ _ _
    exact keeps_modifyHeap (fun _ _ hh => hh.of_eq rfl rfl rfl rfl rfl) (fun _ => rfl) fun _ => rfl

/-! ## Replacing -/

theorem keeps_settled (subject : Bytes) (start stop : Nat) (v : Value) : (
    if !v.truthy then pure (subject.extract start stop)
    else
      match v.toBytes? with
      | some s => pure s
      | none => failText ("invalid replacement value (a " ++ v.typeName ++ ")") :
    Native σ Bytes).Keeps ward := by
  refine keeps_ite (keeps_pure trivial) ?_
  split
  · exact keeps_pure trivial
  · exact keeps_failText _

theorem keeps_replacement (subject : Bytes) (start : Nat) (m : Pattern.Match) {by_ : Value}
    (hby : IsPublic by_) : (replacement subject start m by_ : Native σ Bytes).Keeps ward := by
  unfold replacement
  simp only
  split
  · refine (keeps_orFault (isPublic_captureValue _ _ _ _)).bind fun key hkey => ?_
    exact (Access.keeps_index hby hkey _).bind fun v _ => keeps_settled subject start m.stop v
  · split
    · exact keeps_orFault fun _ _ => trivial
    · refine (keeps_captures _ _ _ _).bind fun captures hcaptures => ?_
      exact (keeps_call1 hby hcaptures).bind fun v _ => keeps_settled subject start m.stop v

theorem keeps_replaceFrom (subject pat : Bytes) (p : Nat) {by_ : Value} (hby : IsPublic by_)
    (limit fuel s count : Nat) (last : Option Nat) (got : Bytes) :
    (replaceFrom subject pat p by_ limit fuel s count last got : Native σ (Bytes × Nat)).Keeps ward := by
  have hresult : ∀ r : Bytes × Nat, (pure r : Native σ (Bytes × Nat)).Keeps ward :=
    fun _ => keeps_pure ⟨trivial, trivial⟩
  induction fuel generalizing s count last got with
  | zero => exact hresult _
  | succ fuel ih =>
    have hskip : ∀ got : Bytes, (
        if s < subject.size then
          if p = 1 then pure (got.push (Pattern.byteAt subject s) ++ subject.extract (s + 1) subject.size, count)
          else replaceFrom subject pat p by_ limit fuel (s + 1) count last
            (got.push (Pattern.byteAt subject s))
        else pure (got, count) : Native σ (Bytes × Nat)).Keeps ward :=
      fun got => keeps_ite (keeps_ite (hresult _) (ih _ _ _ _)) (hresult _)
    unfold replaceFrom
    refine keeps_ite (hresult _) ?_
    simp only
    split
    · exact keeps_failText _
    · exact hskip got
    · refine keeps_ite (hskip got) ((keeps_replacement _ _ _ hby).bind fun r _ => ?_)
      exact keeps_ite (hresult _) (ih _ _ _ _)

theorem keeps_replace (hargs : IsPublic args) : (replace args : Native σ (List Value)).Keeps ward := by
  refine (keeps_strArg 1).bind fun subject _ => (keeps_strArg 2).bind fun pat _ => ?_
  have hreplace : (do
      let limit ← optInt args 4 (Int64.ofNat (subject.size + 1))
      let anchored := Pattern.byteAt pat 0 = 0x5E ∧ pat.size ≠ 0
      let r ← replaceFrom subject pat (if anchored then 1 else 0) (arg args 3) limit.toInt.toNat
        (2 * subject.size + 2) 0 0 none ByteArray.empty
      return [← newString r.1, .nat r.2] : Native σ (List Value)).Keeps ward := by
    refine (keeps_optInt 4 _).bind fun limit _ => ?_
    refine (keeps_replaceFrom _ _ _ (public_arg hargs 3) _ _ _ _ _ _).bind fun r _ => ?_
    exact (keeps_newString r.1).bind fun v hv => keeps_pure (by simp [hv])
  simp only
  split
  · exact hreplace
  · exact hreplace
  · exact hreplace
  · exact hreplace
  · exact keeps_ite ((keeps_wrongType _ _).bind fun _ _ => hreplace) hreplace

theorem keeps_stringArith (op : Arith) (hargs : IsPublic args) :
    (stringArith op args : Native σ (List Value)).Keeps ward := by
  have ha := public_arg hargs 1
  have hb := public_arg hargs 2
  have hrefused : ∀ handler : Value, IsPublic handler → (do
      if handler.isNil then
        let s ← heap (·.typeName (arg args 1))
        let t ← heap (·.typeName (arg args 2))
        fail (.above 1 (Text.bytes ("attempt to " ++ op.event ++ " a '") ++ s
          ++ Text.bytes "' with a '" ++ t ++ Text.bytes "'"))
      else return [← call1 handler [arg args 1, arg args 2]] : Native σ (List Value)).Keeps ward := by
    intro handler hhandler
    refine keeps_ite ?_ ?_
    · exact (keeps_look _).bind fun _ _ => (keeps_look _).bind fun _ _ => keeps_fail (isPublic_above _ _)
    · exact (keeps_call1 hhandler (by simp [ha, hb])).bind fun v hv => keeps_pure (by simp [hv])
  unfold stringArith
  simp only
  split
  · refine (Access.keeps_arith op (Access.isPublic_number _) (Access.isPublic_number _) _ _).bind fun v hv => ?_
    exact keeps_pure (by simp [hv])
  · split
    · exact hrefused _ isPublic_nil
    · exact (Access.keeps_metafield _ _).bind hrefused

/-! ## Formatted text -/

theorem keeps_checked (spec allowed : List Char) (precise : Bool) (message : String) : (
    match layout? allowed precise spec with
    | some l => pure l
    | none => failText message : Native σ Layout).Keeps ward := by
  split
  · exact keeps_pure trivial
  · exact keeps_failText _

theorem keeps_literal (v : Value) (place : Nat) : (
    match literal? v with
    | some s => return s
    | none => failArgument place "value has no literal form" : Native σ Bytes).Keeps ward := by
  split
  · exact keeps_pure trivial
  · exact keeps_failArgument _ _

theorem keeps_convert (hargs : IsPublic args) (place : Nat) (spec : List Char) :
    (convert args place spec : Native σ Bytes).Keeps ward := by
  have hresult : ∀ s : Bytes, (pure s : Native σ Bytes).Keeps ward := fun _ => keeps_pure trivial
  have hint : ∀ {layout : Native σ Layout} (write : Int64 → Layout → Bytes), layout.Keeps ward →
      (do let n ← intArg args place; let l ← layout; return write n l : Native σ Bytes).Keeps ward :=
    fun _ hlayout => (keeps_intArg _).bind fun _ _ => hlayout.bind fun _ _ => hresult _
  have hfloat : ∀ {layout : Native σ Layout} (write : Float → Layout → Bytes), layout.Keeps ward →
      (do let x ← floatArg args place; let l ← layout; return write x l : Native σ Bytes).Keeps ward :=
    fun _ hlayout => (keeps_floatArg _).bind fun _ _ => hlayout.bind fun _ _ => hresult _
  unfold convert
  simp only
  split
  · exact (keeps_checked _ _ _ _).bind fun _ _ => (keeps_intArg _).bind fun _ _ => hresult _
  · exact hint _ (keeps_checked _ _ _ _)
  · exact hint _ (keeps_checked _ _ _ _)
  · exact hint _ (keeps_checked _ _ _ _)
  · exact hint _ (keeps_checked _ _ _ _)
  · exact hint _ (keeps_checked _ _ _ _)
  · exact hint _ (keeps_checked _ _ _ _)
  · exact (keeps_checked _ _ _ _).bind fun _ _ => (keeps_floatArg _).bind fun _ _ => hresult _
  · exact (keeps_checked _ _ _ _).bind fun _ _ => (keeps_floatArg _).bind fun _ _ => hresult _
  · exact hfloat _ (keeps_checked _ _ _ _)
  · exact hfloat _ (keeps_checked _ _ _ _)
  · exact hfloat _ (keeps_checked _ _ _ _)
  · exact hfloat _ (keeps_checked _ _ _ _)
  · exact hfloat _ (keeps_checked _ _ _ _)
  · refine (keeps_anyArg hargs _).bind fun _ _ => (keeps_checked _ _ _ _).bind fun _ _ => ?_
    exact (keeps_look _).bind fun _ _ => hresult _
  · refine keeps_ite ((keeps_failText _).bind fun _ _ => ?_) ?_
    · exact (keeps_anyArg hargs _).bind fun v _ => keeps_literal v place
    · exact (keeps_anyArg hargs _).bind fun v _ => keeps_literal v place
  · refine (keeps_anyArg hargs _).bind fun v hv => (Access.keeps_text hv).bind fun s _ => ?_
    refine keeps_ite (hresult _) ((keeps_require _ _ _).bind fun _ _ => ?_)
    exact (keeps_checked _ _ _ _).bind fun _ _ => hresult _
  · exact keeps_failText _

theorem keeps_formatFrom (hargs : IsPublic args) (fuel place : Nat) (input : List UInt8) (got : Bytes) :
    (formatFrom args fuel place input got : Native σ Bytes).Keeps ward := by
  induction fuel generalizing place input got with
  | zero =>
    unfold formatFrom
    exact keeps_pure trivial
  | succ fuel ih =>
    unfold formatFrom
    split
    · exact keeps_pure trivial
    · exact keeps_pure trivial
    · next heq =>
      cases heq
      exact ih _ _ _
    · next rest _ heq =>
      cases heq
      have hwrite : ∀ (spec : List Char) (left : List UInt8), (do
          let s ← convert args (place + 1) spec
          formatFrom args fuel (place + 1) left (got ++ s) : Native σ Bytes).Keeps ward :=
        fun _ _ => (keeps_convert hargs _ _).bind fun _ _ => ih _ _ _
      have hpiece : (do
          let chars := rest.map fun b => Char.ofNat b.toNat
          let modifiers := chars.takeWhile isModifier
          if conversionLimit ≤ modifiers.length + 1 then failText "invalid format string to 'format'"
          let letter := chars[modifiers.length]?.getD (Char.ofNat 0)
          let s ← convert args (place + 1) (modifiers ++ [letter])
          formatFrom args fuel (place + 1) (rest.drop (modifiers.length + 1)) (got ++ s) :
            Native σ Bytes).Keeps ward :=
        keeps_ite ((keeps_failText _).bind fun _ _ => hwrite _ _) (hwrite _ _)
      exact keeps_ite ((keeps_failArgument _ _).bind fun _ _ => hpiece) hpiece
    · next heq =>
      cases heq
      exact ih _ _ _

theorem keeps_format (hargs : IsPublic args) : (format args : Native σ (List Value)).Keeps ward :=
  (keeps_strArg 1).bind fun _ _ => (keeps_formatFrom hargs _ _ _ _).bind fun _ _ => keeps_oneString _

/-! ## Values as bytes -/

/-- What a format is refused with is public. -/
def Refused {β : Type} (r : Except Fault β) : Prop := ∀ e, r = .error e → IsPublic e

section Refused

variable {β γ : Type}

theorem refused_ok (b : β) : Refused (.ok b) := fun _ h => nomatch h

theorem refused_error {e : Fault} (he : IsPublic e) : Refused (.error e : Except Fault β) :=
  fun _ h => Except.error.inj h ▸ he

theorem Refused.bind {r : Except Fault β} {k : β → Except Fault γ} (h : Refused r)
    (hk : ∀ b, Refused (k b)) : Refused (r >>= k) := by
  cases r with
  | ok b => exact hk b
  | error e => exact refused_error (h e rfl)

theorem refused_ite {c : Prop} [Decidable c] {r r' : Except Fault β} (h : Refused r) (h' : Refused r') :
    Refused (if c then r else r') := by
  split
  · exact h
  · exact h'

end Refused

theorem refused_widthOr (default : Nat) (input : List UInt8) : Refused (widthOr default input) :=
  refused_ite (refused_error (isPublic_above _ _)) (refused_ok _)

theorem refused_takeOption (s : FormatState) : Refused (takeOption s) := by
  unfold takeOption
  split
  · exact refused_ok _
  · simp only
    split
    -- most options stand for themselves
    any_goals exact refused_ok _
    · exact (refused_widthOr _ _).bind fun _ => refused_ok _
    · exact (refused_widthOr _ _).bind fun _ => refused_ok _
    · exact (refused_widthOr _ _).bind fun _ => refused_ok _
    · split
      · exact refused_ite (refused_ok _) (refused_error (isPublic_above _ _))
      · exact refused_error (isPublic_above _ _)
    · exact (refused_widthOr _ _).bind fun _ => refused_ok _
    · exact refused_error (isPublic_above _ _)

theorem refused_takeDetails (s : FormatState) (total : Nat) : Refused (takeDetails s total) := by
  have hbad : ∀ message : Bytes, IsPublic (Fault.argument 1 message) := fun _ => isPublic_argument _ _
  refine (refused_takeOption s).bind fun ⟨o, size, s⟩ => ?_
  have halign : ∀ (align : Nat) (s : FormatState), Refused (do
      if align ≤ 1 ∨ o = .fixed then return (o, size, 0, s)
      else
        let align := min align s.maxAlign
        if align &&& (align - 1) ≠ 0 then
          throw (.argument 1 (Text.bytes "format asks for alignment not power of 2"))
        return (o, size, (align - total % align) % align, s) :
          Except Fault (Field × Nat × Nat × FormatState)) :=
    fun _ _ => refused_ite (refused_ok _) (refused_ite (refused_error (hbad _)) (refused_ok _))
  refine refused_ite (refused_ite (refused_error (hbad _)) ?_) (halign _ _)
  refine (refused_takeOption s).bind fun ⟨next, n, s⟩ => ?_
  exact refused_ite (refused_error (hbad _)) (halign _ _)

theorem keeps_packOne (o : Field) (size : Nat) (little : Bool) (place : Nat) :
    (packOne o size little args place : Native σ Bytes).Keeps ward := by
  have hresult : ∀ s : Bytes, (pure s : Native σ Bytes).Keeps ward := fun _ => keeps_pure trivial
  cases o with
  | int => exact (keeps_intArg _).bind fun _ _ => (keeps_require _ _ _).bind fun _ _ => hresult _
  | word => exact (keeps_intArg _).bind fun _ _ => (keeps_require _ _ _).bind fun _ _ => hresult _
  | float => exact (keeps_floatArg _).bind fun _ _ => hresult _
  | number => exact (keeps_floatArg _).bind fun _ _ => hresult _
  | double => exact (keeps_floatArg _).bind fun _ _ => hresult _
  | fixed => exact (keeps_strArg _).bind fun _ _ => (keeps_require _ _ _).bind fun _ _ => hresult _
  | counted => exact (keeps_strArg _).bind fun _ _ => (keeps_require _ _ _).bind fun _ _ => hresult _
  | terminated => exact (keeps_strArg _).bind fun _ _ => (keeps_require _ _ _).bind fun _ _ => hresult _
  | padding => exact hresult _
  | alignment => exact hresult _
  | nothing => exact hresult _

theorem keeps_packFrom (fuel : Nat) (s : FormatState) (place : Nat) (got : Bytes) :
    (packFrom args fuel s place got : Native σ Bytes).Keeps ward := by
  induction fuel generalizing s place got with
  | zero => exact keeps_pure trivial
  | succ fuel ih =>
    unfold packFrom
    refine keeps_ite (keeps_pure trivial) ?_
    split
    · next e he => exact keeps_fail (refused_takeDetails _ _ e he)
    · exact (keeps_packOne _ _ _ _).bind fun _ _ => ih _ _ _

theorem keeps_pack : (pack args : Native σ (List Value)).Keeps ward :=
  (keeps_strArg 1).bind fun _ _ => (keeps_packFrom _ _ _ _).bind fun _ _ => keeps_oneString _

theorem refused_packedSize (fuel : Nat) (s : FormatState) (total : Nat) :
    Refused (packedSize fuel s total) := by
  have hbad : ∀ message : Bytes, IsPublic (Fault.argument 1 message) := fun _ => isPublic_argument _ _
  induction fuel generalizing s total with
  | zero => exact refused_ok _
  | succ fuel ih =>
    refine refused_ite (refused_ok _) ?_
    refine (refused_takeDetails s total).bind fun ⟨o, size, padding, s⟩ => ?_
    exact refused_ite (refused_error (hbad _)) (refused_ite (refused_error (hbad _)) (ih _ _))

theorem keeps_packSize : (packSize args : Native σ (List Value)).Keeps ward := by
  refine (keeps_strArg 1).bind fun format _ => ?_
  split
  · exact keeps_pure (by simp)
  · next e he => exact keeps_fail (refused_packedSize _ _ _ e he)

theorem keeps_unpackInt (little signed : Bool) (size : Nat) (bs : List UInt8) :
    (unpackInt little signed size bs : Native σ Value).Keeps ward :=
  keeps_ite ((keeps_failText _).bind fun _ _ => keeps_pure (isPublic_int _)) (keeps_pure (isPublic_int _))

theorem keeps_unpackOne (o : Field) (size : Nat) (little : Bool) (data : Bytes) (i : Nat) :
    (unpackOne o size little data i : Native σ (Option Value × Nat)).Keeps ward := by
  have hone : ∀ {v : Value} {n : Nat}, IsPublic v →
      (pure (some v, n) : Native σ (Option Value × Nat)).Keeps ward :=
    fun hv => keeps_pure ⟨(isPublic_some _).2 hv, trivial⟩
  have hnone : ∀ n : Nat, (pure (none, n) : Native σ (Option Value × Nat)).Keeps ward :=
    fun _ => keeps_pure ⟨isPublic_none, trivial⟩
  cases o with
  | int => exact (keeps_unpackInt _ _ _ _).bind fun _ hv => hone hv
  | word => exact (keeps_unpackInt _ _ _ _).bind fun _ hv => hone hv
  | float => exact hone (isPublic_float _)
  | number => exact hone (isPublic_float _)
  | double => exact hone (isPublic_float _)
  | fixed => exact hone (isPublic_str _)
  | counted => exact (keeps_require _ _ _).bind fun _ _ => hone (isPublic_str _)
  | terminated => exact (keeps_require _ _ _).bind fun _ _ => hone (isPublic_str _)
  | padding => exact hnone _
  | alignment => exact hnone _
  | nothing => exact hnone _

theorem keeps_unpackFrom (data : Bytes) (fuel : Nat) (s : FormatState) (i : Nat) {got : List Value}
    (hgot : IsPublic got) : (unpackFrom data fuel s i got : Native σ (List Value)).Keeps ward := by
  have hresult : ∀ (i : Nat) (got : List Value), IsPublic got →
      (pure (Value.nat (i + 1) :: got).reverse : Native σ (List Value)).Keeps ward := by
    refine fun i got hgot => keeps_pure fun v hv => ?_
    exact (isPublic_cons _ got).2 ⟨isPublic_nat _, hgot⟩ v (List.mem_reverse.1 hv)
  induction fuel generalizing s i got with
  | zero => exact hresult i got hgot
  | succ fuel ih =>
    unfold unpackFrom
    refine keeps_ite (hresult i got hgot) ?_
    split
    · next e he => exact keeps_fail (refused_takeDetails _ _ e he)
    · refine (keeps_require _ _ _).bind fun _ _ => (keeps_unpackOne _ _ _ _ _).bind fun ⟨v, j⟩ hv => ?_
      refine ih _ _ ((isPublic_append _ _).2 ⟨fun w hw => ?_, hgot⟩)
      exact hv.1 w (Option.mem_toList.1 hw)

theorem keeps_unpack : (unpack args : Native σ (List Value)).Keeps ward := by
  refine (keeps_strArg 1).bind fun format _ => (keeps_strArg 2).bind fun data _ => ?_
  refine (keeps_optInt 3 _).bind fun first _ => (keeps_require _ _ _).bind fun _ _ => ?_
  exact keeps_unpackFrom _ _ _ _ isPublic_emptyList

theorem keeps_string (f : Builtin) (hargs : IsPublic args) :
    (string f args : Native σ (List Value)).Keeps ward := by
  unfold string
  split
  · exact keeps_byteNumbers
  · exact keeps_fromNumbers
  · exact keeps_failText _
  · exact keeps_findPattern true
  · exact keeps_format hargs
  · exact keeps_beginMatches
  · exact keeps_replace hargs
  · exact (keeps_strArg 1).bind fun _ _ => keeps_pure (by simp)
  · exact keeps_mapBytes _
  · exact keeps_findPattern false
  · exact keeps_pack
  · exact keeps_packSize
  · exact keeps_repeatString
  · exact (keeps_strArg 1).bind fun _ _ => keeps_oneString _
  · refine (keeps_strArg 1).bind fun s _ => (keeps_intArg 2).bind fun first _ => ?_
    exact (keeps_optInt 3 _).bind fun last _ => keeps_oneString _
  · exact keeps_unpack
  · exact keeps_mapBytes _
  · exact keeps_stringArith _ hargs
  · exact keeps_pure isPublic_emptyList

end ScriptWarden.Lua.Library
