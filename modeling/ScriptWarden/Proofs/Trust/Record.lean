import ScriptWarden.Proofs.Json.Members
import ScriptWarden.Trust.Record
set_option autoImplicit false

/-!
# Records and their text

A record holds values under the *names* of capabilities, and a file holds records as JSON.  Both
steps can be undone: the values under their names stand for the values they came from
(`overrides_named`), and an archive whose numbers fit 32 bits is what its own text holds
(`readArchive?_pretty`).

A map is turned into another one by putting its entries in one after the other under new keys.  If no
two entries get the same key, the order does not matter and every lookup can be answered at once
(`getElem?_foldl_insert`); all of the conversions between files, records and policies are of this
kind.
-/

namespace ScriptWarden.Trust

open Json (Value Members)
open Std (ExtTreeMap TransCmp LawfulEqCmp)

/-! ## Putting entries under new keys -/

section Rekey

variable {α β γ δ : Type} {cmpα : α → α → Ordering} {cmpβ : β → β → Ordering}
variable [TransCmp cmpα] [LawfulEqCmp cmpα] [TransCmp cmpβ] [LawfulEqCmp cmpβ]

/-- Entries under different keys are all found. -/
theorem getElem?_ofList_iff {entries : List (β × δ)}
    (apart : entries.Pairwise fun u v => u.1 ≠ v.1) (b : β) (y : δ) :
    (ExtTreeMap.ofList entries cmpβ)[b]? = some y ↔ (b, y) ∈ entries := by
  -- the entries are put in one by one, so the induction is over any map to begin with
  suffices general : ∀ start : ExtTreeMap β δ cmpβ,
      (start.insertMany entries)[b]? = some y ↔
        (b, y) ∈ entries ∨ (∀ u ∈ entries, u.1 ≠ b) ∧ start[b]? = some y by
    rw [ExtTreeMap.ofList_eq_insertMany_empty, general]
    simp
  induction entries with
  | nil => simp
  | cons u entries ih =>
    intro start
    obtain ⟨first, rest⟩ := List.pairwise_cons.mp apart
    rw [ExtTreeMap.insertMany_cons, ih rest, ExtTreeMap.getElem?_insert]
    by_cases hb : u.1 = b
    · -- no later entry has this key
      have later : ∀ v ∈ entries, v.1 ≠ b := fun v hv e => first v hv (hb.trans e.symm)
      have absent : (b, y) ∉ entries := fun hmem => later _ hmem rfl
      have here : (b, y) = u ↔ u.2 = y := by
        rw [← hb]
        exact ⟨fun e => by rw [← e], fun e => by rw [← e]⟩
      rw [if_pos (by rw [hb]; exact Std.ReflCmp.compare_self)]
      constructor
      · rintro (hmem | ⟨-, e⟩)
        · exact absurd hmem absent
        · exact .inl (List.mem_cons.mpr (.inl (here.mpr (Option.some.inj e))))
      · rintro (hmem | ⟨hne, -⟩)
        · have hu := (List.mem_cons.mp hmem).resolve_right absent
          exact .inr ⟨later, congrArg some (here.mp hu)⟩
        · exact absurd hb (hne u List.mem_cons_self)
    · have other : ¬ cmpβ u.1 b = .eq := fun h => hb (LawfulEqCmp.eq_of_compare h)
      have differ : (b, y) ≠ u := fun e => hb (by rw [← e])
      simp [other, differ, hb]

/-- A map whose entries are put under new keys, some of them perhaps left out. -/
theorem getElem?_rekey (t : ExtTreeMap α γ cmpα) (place : α × γ → Option (β × δ))
    (apart : ∀ x y u v, place x = some u → place y = some v → u.1 = v.1 → x.1 = y.1)
    (b : β) (y : δ) :
    (ExtTreeMap.ofList (t.toList.filterMap place) cmpβ)[b]? = some y ↔
      ∃ a x, t[a]? = some x ∧ place (a, x) = some (b, y) := by
  have keys : (t.toList.filterMap place).Pairwise fun u v => u.1 ≠ v.1 := by
    refine List.Pairwise.filterMap _ ?_ ExtTreeMap.distinct_keys_toList
    intro x y hne u hu v hv e
    exact hne (by rw [apart x y u v hu hv e]; exact Std.ReflCmp.compare_self)
  rw [getElem?_ofList_iff keys, List.mem_filterMap]
  constructor
  · rintro ⟨⟨a, x⟩, hmem, hplace⟩
    exact ⟨a, x, ExtTreeMap.mem_toList_iff_getElem?_eq_some.mp hmem, hplace⟩
  · rintro ⟨a, x, hget, hplace⟩
    exact ⟨(a, x), ExtTreeMap.mem_toList_iff_getElem?_eq_some.mpr hget, hplace⟩

theorem ofList_toList (t : ExtTreeMap α γ cmpα) : ExtTreeMap.ofList t.toList cmpα = t := by
  have apart : t.toList.Pairwise fun u v => u.1 ≠ v.1 :=
    ExtTreeMap.distinct_keys_toList.imp fun hne e => hne (by rw [e]; exact Std.ReflCmp.compare_self)
  refine ExtTreeMap.ext_getElem? fun k => Option.ext fun n => ?_
  exact (getElem?_ofList_iff apart k n).trans ExtTreeMap.mem_toList_iff_getElem?_eq_some

omit [LawfulEqCmp cmpβ] in
/-- Putting entries in one after the other makes the map of the entries that are put in. -/
theorem foldl_place_eq (place : α × γ → Option (β × δ)) (entries : List (α × γ))
    (start : ExtTreeMap β δ cmpβ) :
    entries.foldl (fun m x => (place x).elim m fun u => m.insert u.1 u.2) start =
      start.insertMany (entries.filterMap place) := by
  induction entries generalizing start with
  | nil => rfl
  | cons x entries ih =>
    rw [List.foldl_cons, ih, List.filterMap_cons]
    cases hx : place x with
    | none => rfl
    | some u => rw [ExtTreeMap.insertMany_cons]; rfl

/-- A lookup only finds what has been put in. -/
theorem mem_of_getElem?_ofList {entries : List (β × δ)} {b : β} {y : δ}
    (h : (ExtTreeMap.ofList entries cmpβ)[b]? = some y) : (b, y) ∈ entries := by
  suffices general : ∀ start : ExtTreeMap β δ cmpβ,
      (start.insertMany entries)[b]? = some y → (b, y) ∈ entries ∨ start[b]? = some y by
    rw [ExtTreeMap.ofList_eq_insertMany_empty] at h
    exact (general ∅ h).resolve_right (by simp)
  clear h
  induction entries with
  | nil => exact fun start h => .inr h
  | cons u entries ih =>
    intro start h
    rw [ExtTreeMap.insertMany_cons] at h
    rcases ih _ h with hmem | hget
    · exact .inl (List.mem_cons_of_mem _ hmem)
    · rw [ExtTreeMap.getElem?_insert] at hget
      split at hget
      · next hb =>
        have same : (b, y) = u := by
          rw [← LawfulEqCmp.eq_of_compare hb, ← Option.some.inj hget]
        exact .inl (same ▸ List.mem_cons_self)
      · exact .inr hget

end Rekey

/-! ## Values under names -/

/-- Every value fits a signed word of 32 bits. -/
def InRange {α : Type} {cmp : α → α → Ordering} [TransCmp cmp] (values : ExtTreeMap α Int cmp) : Prop :=
  ∀ (k : α) (n : Int), values[k]? = some n → -0x80000000 ≤ n ∧ n ≤ 0x7FFFFFFF

theorem inRange_empty {α : Type} {cmp : α → α → Ordering} [TransCmp cmp] :
    InRange (∅ : ExtTreeMap α Int cmp) := by
  intro k n h
  simp at h

namespace Record

theorem capability_name_injective {c c' : Capability} (h : c.name = c'.name) : c = c' := by
  have same : some c = some c' := by
    rw [← Capability.ofName?_name c, ← Capability.ofName?_name c', h]
  exact Option.some.inj same

theorem name_of_ofName? {s : String} {c : Capability} (h : Capability.ofName? s = some c) :
    c.name = s := by
  have := List.find?_some h
  simpa using this

theorem named_eq (o : Overrides) :
    named o = ExtTreeMap.ofList (o.toList.filterMap fun x => some (x.1.name, x.2)) compare := by
  rw [named, ExtTreeMap.foldl_eq_foldl_toList, ExtTreeMap.ofList_eq_insertMany_empty]
  exact foldl_place_eq (fun x => some (x.1.name, x.2)) o.toList (∅ : ExtTreeMap String Int)

theorem overrides_eq (values : ExtTreeMap String Int) :
    overrides values = ExtTreeMap.ofList
      (values.toList.filterMap fun x => (Capability.ofName? x.1).map fun c => (c, x.2)) compare := by
  rw [overrides, ExtTreeMap.foldl_eq_foldl_toList, ExtTreeMap.ofList_eq_insertMany_empty]
  refine Eq.trans ?_ (foldl_place_eq
    (fun x => (Capability.ofName? x.1).map fun c => (c, x.2)) values.toList (∅ : Overrides))
  congr 1
  funext o x
  cases Capability.ofName? x.1 <;> rfl

/-- A value is under its capability's name. -/
theorem getElem?_named (o : Overrides) (s : String) (n : Int) :
    (named o)[s]? = some n ↔ ∃ c : Capability, c.name = s ∧ o[c]? = some n := by
  rw [named_eq, getElem?_rekey]
  · constructor
    · rintro ⟨c, m, hget, hplace⟩
      cases hplace
      exact ⟨c, rfl, hget⟩
    · rintro ⟨c, rfl, hget⟩
      exact ⟨c, n, hget, rfl⟩
  · rintro x y u v hu hv e
    cases hu
    cases hv
    exact capability_name_injective e

/-- A value belongs to the capability whose name it is under. -/
theorem getElem?_overrides (values : ExtTreeMap String Int) (c : Capability) (n : Int) :
    (overrides values)[c]? = some n ↔ values[c.name]? = some n := by
  rw [overrides_eq, getElem?_rekey]
  · constructor
    · rintro ⟨s, m, hget, hplace⟩
      obtain ⟨c', hname, e⟩ := Option.map_eq_some_iff.mp hplace
      cases e
      rwa [name_of_ofName? hname]
    · intro hget
      exact ⟨c.name, n, hget, by rw [Capability.ofName?_name]; rfl⟩
  · rintro x y u v hu hv e
    obtain ⟨c, hc, rfl⟩ := Option.map_eq_some_iff.mp hu
    obtain ⟨c', hc', rfl⟩ := Option.map_eq_some_iff.mp hv
    rw [← name_of_ofName? hc, ← name_of_ofName? hc', show c = c' from e]

/-- The values under their names stand for the values they came from. -/
theorem overrides_named (o : Overrides) : overrides (named o) = o := by
  refine ExtTreeMap.ext_getElem? fun c => Option.ext fun n => ?_
  rw [getElem?_overrides, getElem?_named]
  constructor
  · rintro ⟨c', hname, hget⟩
    rwa [← capability_name_injective hname]
  · exact fun hget => ⟨c, rfl, hget⟩

/-! ## Records as JSON -/

/-- Every value of a record fits a signed word of 32 bits. -/
structure Fits (r : Record) : Prop where
  trust : InRange r.trust
  custom : ∀ (name : String) (values : ExtTreeMap String Int),
    r.custom[name]? = some values → InRange values

theorem int32?_of_fits {n : Int} (h : -0x80000000 ≤ n ∧ n ≤ 0x7FFFFFFF) :
    (Value.int n).int32? = some n := if_pos h

theorem values?_valuesJson {values : ExtTreeMap String Int} (h : InRange values) :
    values? (valuesJson values) = some values := by
  have pairs : (valuesJson values).pairs? Value.int32? = some values.toList := by
    refine Json.pairs?_record Value.int fun x hx => int32?_of_fits (h x.1 x.2 ?_)
    exact ExtTreeMap.mem_toList_iff_getElem?_eq_some.mp hx
  rw [values?, pairs, Option.map_some, ofList_toList]

/-- The named custom sets as an object. -/
def customJson (custom : ExtTreeMap String (ExtTreeMap String Int)) : Value :=
  .record (custom.toList.map fun (k, v) => (k, valuesJson v))

theorem custom_customJson {custom : ExtTreeMap String (ExtTreeMap String Int)}
    (h : ∀ (name : String) (values : ExtTreeMap String Int),
      custom[name]? = some values → InRange values) :
    ((customJson custom).pairs? values?).map (fun pairs => ExtTreeMap.ofList pairs) = some custom := by
  have pairs : (customJson custom).pairs? values? = some custom.toList := by
    refine Json.pairs?_record valuesJson fun x hx => values?_valuesJson (h x.1 x.2 ?_)
    exact ExtTreeMap.mem_toList_iff_getElem?_eq_some.mp hx
  rw [pairs, Option.map_some, ofList_toList]

/-- The members of a record. -/
def members (r : Record) : List (String × Option Value) :=
  [("name", some (.text r.name)),
    ("trust", if r.trust.isEmpty then none else some (valuesJson r.trust)),
    ("custom", if r.custom.isEmpty then none else some (customJson r.custom)),
    ("parent", r.parent.map .text),
    ("hidden", if r.hidden then some (.bool true) else none)]

theorem toJson_eq (r : Record) : r.toJson = .record (Json.present r.members) := by
  have optional : ∀ (name : String) (v : Option Value) (rest : List (String × Option Value)),
      Json.present ((name, v) :: rest) = (v.toList.map fun v => (name, v)) ++ Json.present rest := by
    intro name v rest
    cases v <;> rfl
  have trust : (if r.trust.isEmpty then [] else [("trust", valuesJson r.trust)]) =
      (if r.trust.isEmpty then none else some (valuesJson r.trust)).toList.map fun v => ("trust", v) := by
    split <;> rfl
  have custom : (if r.custom.isEmpty then [] else [("custom", customJson r.custom)]) =
      (if r.custom.isEmpty then none else some (customJson r.custom)).toList.map
        fun v => ("custom", v) := by
    split <;> rfl
  have hidden : (if r.hidden then [("hidden", Value.bool true)] else []) =
      (if r.hidden then some (Value.bool true) else none).toList.map fun v => ("hidden", v) := by
    split <;> rfl
  have parent : (r.parent.toList.map fun p => ("parent", Value.text p)) =
      (r.parent.map Value.text).toList.map fun v => ("parent", v) := by
    cases r.parent <;> rfl
  simp only [members, optional]
  rw [← trust, ← custom, ← parent, ← hidden]
  simp [toJson, customJson, Json.present]

/-- A record whose values fit is read back. -/
theorem ofJson?_toJson {r : Record} (h : r.Fits) : ofJson? r.toJson = some r := by
  have distinct : (r.members.map Prod.fst).Nodup := by
    have names : r.members.map Prod.fst = ["name", "trust", "custom", "parent", "hidden"] := rfl
    rw [names]
    decide
  have name : (Members.ofOptions r.members).need "name" Value.string? = some r.name := rfl
  have trust : (Members.ofOptions r.members).getOr "trust" ∅ values? = some r.trust := by
    have get : (Members.ofOptions r.members).get? "trust" =
        if r.trust.isEmpty then none else some (valuesJson r.trust) := rfl
    rw [Members.getOr, get]
    by_cases empty : r.trust.isEmpty
    · rw [if_pos empty, ExtTreeMap.isEmpty_iff.mp empty]
    · rw [if_neg empty]
      exact values?_valuesJson h.trust
  have custom : (Members.ofOptions r.members).getOr "custom" ∅
      (fun v => (v.pairs? values?).map fun pairs => .ofList pairs) = some r.custom := by
    have get : (Members.ofOptions r.members).get? "custom" =
        if r.custom.isEmpty then none else some (customJson r.custom) := rfl
    rw [Members.getOr, get]
    by_cases empty : r.custom.isEmpty
    · rw [if_pos empty, ExtTreeMap.isEmpty_iff.mp empty]
    · rw [if_neg empty]
      exact custom_customJson h.custom
  have parent : (Members.ofOptions r.members).getOr "parent" none
      (Value.nullable Value.string?) = some r.parent := by
    have get : (Members.ofOptions r.members).get? "parent" = r.parent.map .text := rfl
    rw [Members.getOr, get]
    cases r.parent <;> rfl
  have hidden : (Members.ofOptions r.members).getOr "hidden" false Value.bool? = some r.hidden := by
    have get : (Members.ofOptions r.members).get? "hidden" =
        if r.hidden then some (.bool true) else none := rfl
    rw [Members.getOr, get]
    cases r.hidden <;> rfl
  rw [toJson_eq, ofJson?, Json.ofValue?_record distinct]
  simp [name, trust, custom, parent, hidden]

/-! ## Records from files -/

theorem fits_of_int32? {v : Value} {n : Int} (h : v.int32? = some n) :
    -0x80000000 ≤ n ∧ n ≤ 0x7FFFFFFF := by
  unfold Value.int32? Value.intIn? at h
  split at h
  · obtain ⟨bounds, e⟩ := Option.ite_none_right_eq_some.mp h
    cases e
    exact bounds
  · cases h

theorem inRange_of_values? {v : Value} {values : ExtTreeMap String Int}
    (h : values? v = some values) : InRange values := by
  obtain ⟨pairs, hpairs, rfl⟩ := Option.map_eq_some_iff.mp h
  intro k n hget
  obtain ⟨w, hw⟩ := Json.of_mem_pairs? hpairs (mem_of_getElem?_ofList hget)
  exact fits_of_int32? hw

/-- Every record that is read fits. -/
theorem fits_of_ofJson? {v : Value} {r : Record} (h : ofJson? v = some r) : r.Fits := by
  simp only [ofJson?, Option.bind_eq_bind, Option.bind_eq_some_iff, Option.pure_def,
    Option.some.injEq] at h
  obtain ⟨m, -, name, -, trust, htrust, custom, hcustom, parent, -, hidden, -, rfl⟩ := h
  constructor
  · rcases Json.getOr_eq_some htrust with rfl | ⟨v, hv⟩
    · exact inRange_empty
    · exact inRange_of_values? hv
  · intro set values hget
    rcases Json.getOr_eq_some hcustom with rfl | ⟨v, hv⟩
    · simp at hget
    · obtain ⟨pairs, hpairs, rfl⟩ := Option.map_eq_some_iff.mp hv
      obtain ⟨w, hw⟩ := Json.of_mem_pairs? hpairs (mem_of_getElem?_ofList hget)
      exact inRange_of_values? hw

/-! ## Records are plain -/

theorem isPlain_valuesJson (values : ExtTreeMap String Int) :
    (valuesJson values).isPlain = true := by
  refine Json.isPlain_record fun f hf => ?_
  obtain ⟨x, -, rfl⟩ := List.mem_map.mp hf
  rfl

theorem isPlain_customJson (custom : ExtTreeMap String (ExtTreeMap String Int)) :
    (customJson custom).isPlain = true := by
  refine Json.isPlain_record fun f hf => ?_
  obtain ⟨x, -, rfl⟩ := List.mem_map.mp hf
  exact isPlain_valuesJson x.2

theorem isPlain_toJson (r : Record) : r.toJson.isPlain = true := by
  rw [toJson_eq]
  refine Json.isPlain_record fun f hf => ?_
  obtain ⟨m, hm, hf⟩ := List.mem_filterMap.mp hf
  obtain ⟨v, hv, rfl⟩ := Option.map_eq_some_iff.mp hf
  simp only [members, List.mem_cons, List.not_mem_nil, or_false] at hm
  rcases hm with rfl | rfl | rfl | rfl | rfl
  · cases hv
    rfl
  · rcases Option.ite_none_left_eq_some.mp hv with ⟨-, e⟩
    cases e
    exact isPlain_valuesJson r.trust
  · rcases Option.ite_none_left_eq_some.mp hv with ⟨-, e⟩
    cases e
    exact isPlain_customJson r.custom
  · obtain ⟨p, -, rfl⟩ := Option.map_eq_some_iff.mp hv
    rfl
  · rcases Option.ite_none_right_eq_some.mp hv with ⟨-, e⟩
    cases e
    rfl

end Record

/-! ## Archives as JSON -/

namespace Archive

/-- The members of an archive. -/
def members (a : Archive) : List (String × Option Value) :=
  [("groups", some (.array (a.groups.map Record.toJson))),
    ("principals", some (.array (a.principals.map Record.toJson)))]

theorem ofJson?_toJson {a : Archive} (groups : ∀ r ∈ a.groups, r.Fits)
    (principals : ∀ r ∈ a.principals, r.Fits) : ofJson? a.toJson = some a := by
  have distinct : (a.members.map Prod.fst).Nodup := by
    have names : a.members.map Prod.fst = ["groups", "principals"] := rfl
    rw [names]
    decide
  have text : a.toJson = .record (Json.present a.members) := rfl
  have first : (Members.ofOptions a.members).getOr "groups" [] (Value.list? Record.ofJson?) =
      some a.groups := Json.list?_array fun r hr => Record.ofJson?_toJson (groups r hr)
  have second : (Members.ofOptions a.members).getOr "principals" [] (Value.list? Record.ofJson?) =
      some a.principals := Json.list?_array fun r hr => Record.ofJson?_toJson (principals r hr)
  rw [text, ofJson?, Json.ofValue?_record distinct]
  simp [first, second]

theorem isPlain_toJson (a : Archive) : a.toJson.isPlain = true := by
  have records : ∀ rs : List Record, (Value.array (rs.map Record.toJson)).isPlain = true := by
    intro rs
    refine Json.isPlain_array fun v hv => ?_
    obtain ⟨r, -, rfl⟩ := List.mem_map.mp hv
    exact r.isPlain_toJson
  refine Json.isPlain_record fun f hf => ?_
  simp only [List.mem_cons, List.not_mem_nil, or_false] at hf
  rcases hf with rfl | rfl
  · exact records a.groups
  · exact records a.principals

/-- Every record of an archive that is read fits. -/
theorem fits_of_readArchive? {bytes : List UInt8} {a : Archive}
    (h : Policy.readArchive? bytes = some a) :
    (∀ r ∈ a.groups, r.Fits) ∧ ∀ r ∈ a.principals, r.Fits := by
  obtain ⟨v, -, h⟩ := Option.bind_eq_some_iff.mp h
  simp only [ofJson?, Option.bind_eq_bind, Option.bind_eq_some_iff, Option.pure_def,
    Option.some.injEq] at h
  obtain ⟨m, -, groups, hgroups, principals, hprincipals, rfl⟩ := h
  have each : ∀ {name : String} {rs : List Record},
      m.getOr name [] (Value.list? Record.ofJson?) = some rs → ∀ r ∈ rs, r.Fits := by
    intro name rs h r hr
    rcases Json.getOr_eq_some h with rfl | ⟨v, hv⟩
    · cases hr
    · obtain ⟨w, hw⟩ := Json.of_mem_list? hv hr
      exact Record.fits_of_ofJson? hw
  exact ⟨each hgroups, each hprincipals⟩

end Archive

/-- The text of an archive holds the archive. -/
theorem readArchive?_pretty {a : Archive} (groups : ∀ r ∈ a.groups, r.Fits)
    (principals : ∀ r ∈ a.principals, r.Fits) :
    Policy.readArchive? a.toJson.pretty.toUTF8.toList = some a := by
  rw [Policy.readArchive?, Json.ofBytes?_pretty a.isPlain_toJson]
  exact Archive.ofJson?_toJson groups principals

end ScriptWarden.Trust
