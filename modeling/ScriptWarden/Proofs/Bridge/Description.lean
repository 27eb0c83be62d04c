import ScriptWarden.Bridge.Registry
import ScriptWarden.Json.Decode
set_option autoImplicit false

/-!
# Bridge: what a registry says of itself

A registry describes itself as a document that is read outside.  What a reader finds there under a type, methods and
fields apart, are the members that are registered for that type, and nothing else (`mem_listed_methods`,
`mem_listed_fields`).
-/

namespace ScriptWarden

/-! ## Readers -/

namespace Json.Value

/-- What stands under a name in a record. -/
def under? (v : Value) (name : String) : Option Value :=
  match v with
  | .object fields => (fields.find? fun f => f.1 == some name).map Prod.snd
  | _ => none

/-- The items of a list under a name. -/
def itemsUnder (v : Value) (name : String) : List Value :=
  match v.under? name with
  | some (.array items) => items
  | _ => []

/-- The name of what a record is about. -/
def name? (v : Value) : Option String := (v.under? "name").bind string?

end Json.Value

namespace Bridge

variable {κ : Type}

/-- The members that a description lists in one group, each with its type. -/
def listed (group : String) (description : Json.Value) : List (String × String) :=
  (description.itemsUnder "types").flatMap fun t =>
    (t.itemsUnder group).filterMap fun m => do return (← t.name?, ← m.name?)

namespace Registry

/-! ## Members of a type -/

/-- What is said of a method. -/
def methodJson? (entry : String × Member κ) : Option Json.Value :=
  match entry with
  | (name, .method overloads _) =>
    some (.record [("name", .text name), ("overloads", .array (overloads.map signatureJson))])
  | _ => none

/-- What is said of a field. -/
def fieldJson? (entry : String × Member κ) : Option Json.Value :=
  match entry with
  | (name, .field type _) => some (.record [("name", .text name), ("type", typeJson type)])
  | _ => none

theorem memberJson_eq (t : TypeEntry κ) :
    memberJson t = (t.members.toList.filterMap methodJson?, t.members.toList.filterMap fieldJson?) := by
  unfold memberJson
  rw [Std.ExtTreeMap.foldr_eq_foldr_toList]
  induction t.members.toList with
  | nil => rfl
  | cons entry rest ih =>
    obtain ⟨name, m⟩ := entry
    simp only [List.foldr_cons, ih]
    cases m <;> rfl

/-- What is said of a type. -/
def typeEntryJson (entry : String × TypeEntry κ) : Json.Value :=
  .record [("name", .text entry.1), ("doc", .text entry.2.doc),
    ("methods", .array (entry.2.members.toList.filterMap methodJson?)),
    ("fields", .array (entry.2.members.toList.filterMap fieldJson?))]

theorem toJson_eq (r : Registry κ) : r.toJson = .record [("types", .array (r.types.toList.map typeEntryJson))] := by
  simp only [toJson, memberJson_eq]
  rfl

/-! ## Listed members -/

theorem listed_toJson (group : String) (r : Registry κ) : listed group r.toJson =
    r.types.toList.flatMap fun entry => ((typeEntryJson entry).itemsUnder group).filterMap fun m =>
      m.name?.map fun name => (entry.1, name) := by
  rw [toJson_eq]
  unfold listed
  change (r.types.toList.map typeEntryJson).flatMap _ = _
  rw [List.flatMap_map]
  congr 1
  funext entry
  congr 1
  funext m
  cases m.name? <;> rfl

section Groups

variable {r : Registry κ} {type name group : String} (said? : String × Member κ → Option Json.Value)
  (hitems : ∀ entry : String × TypeEntry κ,
    (typeEntryJson entry).itemsUnder group = entry.2.members.toList.filterMap said?)
  (hnamed : ∀ entry v, said? entry = some v → v.name? = some entry.1)

include hitems hnamed

/-- A member is listed in the group in which something is said of it. -/
theorem mem_listed_group : (type, name) ∈ listed group r.toJson ↔
    ∃ m v, r.member? type name = some m ∧ said? (name, m) = some v := by
  rw [listed_toJson]
  simp only [List.mem_flatMap, List.mem_filterMap, hitems, Option.map_eq_some_iff, Prod.mk.injEq, member?,
    Option.bind_eq_some_iff]
  constructor
  · rintro ⟨⟨type', t⟩, ht, v, ⟨⟨name', m⟩, hm, hsaid⟩, name'', hname, rfl, rfl⟩
    obtain rfl : name' = name'' := Option.some.inj ((hnamed _ v hsaid).symm.trans hname)
    exact ⟨m, v, ⟨t, Std.ExtTreeMap.mem_toList_iff_getElem?_eq_some.1 ht,
      Std.ExtTreeMap.mem_toList_iff_getElem?_eq_some.1 hm⟩, hsaid⟩
  · rintro ⟨m, v, ⟨t, ht, hm⟩, hsaid⟩
    exact ⟨(type, t), Std.ExtTreeMap.mem_toList_iff_getElem?_eq_some.2 ht, v,
      ⟨(name, m), Std.ExtTreeMap.mem_toList_iff_getElem?_eq_some.2 hm, hsaid⟩, name, hnamed _ v hsaid, rfl, rfl⟩

end Groups

variable {r : Registry κ} {type name : String}

/-- The methods that are listed are those that are registered. -/
theorem mem_listed_methods : (type, name) ∈ listed "methods" r.toJson ↔
    ∃ overloads run, r.member? type name = some (.method overloads run) := by
  rw [mem_listed_group methodJson? (fun _ => rfl) fun entry v hsaid => ?_]
  · constructor
    · rintro ⟨m, v, hm, hsaid⟩
      cases m with
      | method overloads run => exact ⟨overloads, run, hm⟩
      | field => cases hsaid
    · rintro ⟨overloads, run, hm⟩
      exact ⟨_, _, hm, rfl⟩
  · obtain ⟨name, m⟩ := entry
    cases m with
    | method => cases hsaid; rfl
    | field => cases hsaid

/-- The fields that are listed are those that are registered. -/
theorem mem_listed_fields : (type, name) ∈ listed "fields" r.toJson ↔
    ∃ fieldType get, r.member? type name = some (.field fieldType get) := by
  rw [mem_listed_group fieldJson? (fun _ => rfl) fun entry v hsaid => ?_]
  · constructor
    · rintro ⟨m, v, hm, hsaid⟩
      cases m with
      | method => cases hsaid
      | field fieldType get => exact ⟨fieldType, get, hm⟩
    · rintro ⟨fieldType, get, hm⟩
      exact ⟨_, _, hm, rfl⟩
  · obtain ⟨name, m⟩ := entry
    cases m with
    | method => cases hsaid
    | field => cases hsaid; rfl

end Registry

end Bridge

end ScriptWarden
