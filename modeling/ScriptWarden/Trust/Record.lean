import ScriptWarden.Json.Decode
import ScriptWarden.Json.Writer
import ScriptWarden.Trust.Policy
set_option autoImplicit false

/-!
# Trust: the policy file

Only what was set is written, so that later changes of the declared values still reach everybody.  A
blocked principal keeps its group and nothing else, and nobody comes back from a file as the
operator.
-/

namespace ScriptWarden.Trust

open Json (Value Members)

/-- The written form of one group or principal.  Names are kept as written; a name that stands for
nothing is dropped when the record is used. -/
structure Record where
  name : String
  trust : Std.ExtTreeMap String Int := ∅
  custom : Std.ExtTreeMap String (Std.ExtTreeMap String Int) := ∅
  parent : Option String := none
  hidden : Bool := false

namespace Record

/-- Values under the names of their capabilities. -/
def named (o : Overrides) : Std.ExtTreeMap String Int :=
  o.foldl (fun m c n => m.insert c.name n) ∅

/-- The values whose names are capabilities. -/
def overrides (values : Std.ExtTreeMap String Int) : Overrides :=
  values.foldl
    (fun o name n =>
      match Capability.ofName? name with
      | some c => o.insert c n
      | none => o) ∅

/-- What the operator hears about names that are no capabilities. -/
def unknownNames (owner : String) (values : Std.ExtTreeMap String Int) : List Diagnostic :=
  values.toList.filterMap fun (name, _) =>
    match Capability.ofName? name with
    | some _ => none
    | none =>
      some (.warn ("[trust] '" ++ owner ++ "': skipping unknown capability '" ++ name ++ "'"))

/-! ## Between records and entries -/

/-- The record of a group. -/
def ofTier (g : Group) (t : Tier) : Record :=
  { name := g.name, trust := named t.overrides, hidden := !t.visible }

/-- The record of a principal. -/
def ofPrincipal (name : String) (p : Principal) : Record :=
  if p.group = .blocked then { name, parent := some p.group.name }
  else
    { name
      trust := named p.overrides
      custom := p.custom.map fun _ set => named set
      parent := some p.group.name }

/-- The group of a record, and what was set for it; `none` if it is not the name of a group. -/
def toTier? (r : Record) : Option (Group × Tier) :=
  (Group.ofName? r.name).map fun g =>
    (g, { overrides := overrides r.trust, visible := !r.hidden })

/-- The entry of a principal.  A parent that is no group counts as the initial group. -/
def toPrincipal (r : Record) : Principal :=
  { group := (r.parent.bind Group.ofName?).getD .initial
    overrides := overrides r.trust
    custom := r.custom.map fun _ values => overrides values }

/-- What the operator hears while a group's record is used. -/
def tierNotices (r : Record) : List Diagnostic :=
  match Group.ofName? r.name with
  | some _ => unknownNames r.name r.trust
  | none => [.warn ("[trust] skipping unknown group '" ++ r.name ++ "'")]

/-- What the operator hears about a parent that is no group. -/
def parentNotice (r : Record) : List Diagnostic :=
  let report := fun shown =>
    [Diagnostic.warn
      ("[trust] '" ++ r.name ++ "' has unknown parent " ++ shown ++ ", placing in "
        ++ Group.initial.name)]
  match r.parent with
  | none => report "None"
  | some parent =>
    match Group.ofName? parent with
    | some _ => []
    | none => report "Some(None)"

/-- What the operator hears while a principal's record is used. -/
def principalNotices (r : Record) : List Diagnostic :=
  r.parentNotice ++ unknownNames r.name r.trust
    ++ r.custom.toList.flatMap fun (_, values) => unknownNames r.name values

/-! ## Text -/

/-- Named values as an object. -/
def valuesJson (values : Std.ExtTreeMap String Int) : Value :=
  .record (values.toList.map fun (k, n) => (k, .int n))

/-- Members that hold nothing are left out. -/
def toJson (r : Record) : Value :=
  .record (
    [("name", .text r.name)]
      ++ (if r.trust.isEmpty then [] else [("trust", valuesJson r.trust)])
      ++ (if r.custom.isEmpty then []
          else [("custom", .record (r.custom.toList.map fun (k, v) => (k, valuesJson v)))])
      ++ (r.parent.toList.map fun p => ("parent", .text p))
      ++ (if r.hidden then [("hidden", .bool true)] else []))

/-- Named values. -/
def values? (v : Value) : Option (Std.ExtTreeMap String Int) :=
  (v.pairs? Value.int32?).map fun pairs => .ofList pairs

/-- Read a record; all but the name may be missing. -/
def ofJson? (v : Value) : Option Record := do
  let m ← Members.ofValue? ["name", "trust", "custom", "parent", "hidden"] v
  return {
    name := ← m.need "name" Value.string?
    trust := ← m.getOr "trust" ∅ values?
    custom := ← m.getOr "custom" ∅ fun v => (v.pairs? values?).map fun pairs => .ofList pairs
    parent := ← m.getOr "parent" none (Value.nullable Value.string?)
    hidden := ← m.getOr "hidden" false Value.bool? }

end Record

/-- The contents of a policy file. -/
structure Archive where
  groups : List Record := []
  principals : List Record := []

namespace Archive

/-- Both lists are always written. -/
def toJson (a : Archive) : Value :=
  .record [
    ("groups", .array (a.groups.map Record.toJson)),
    ("principals", .array (a.principals.map Record.toJson))]

/-- Read the contents of a file. -/
def ofJson? (v : Value) : Option Archive := do
  let m ← Members.ofValue? ["groups", "principals"] v
  return {
    groups := ← m.getOr "groups" [] (Value.list? Record.ofJson?)
    principals := ← m.getOr "principals" [] (Value.list? Record.ofJson?) }

end Archive

namespace Policy

/-- What a file must hold for the policy to come back: groups that were changed or hidden, and
principals that were changed or moved. -/
def toArchive (m : Policy) : Archive :=
  { groups := Group.all.filterMap fun g =>
      let t := m.tiers g
      if t.hasChanges || !t.visible then some (.ofTier g t) else none
    principals := m.principals.toList.filterMap fun (name, p) =>
      if p.hasChanges || p.group ≠ .initial then some (.ofPrincipal name p) else none }

/-- The text of the policy file. -/
def save (m : Policy) : String := m.toArchive.toJson.pretty

/-- A principal read from a file is never the operator. -/
def unseat (p : Principal) : Principal :=
  if p.group = .operator then { p with group := .initial } else p

/-- Put the record of a group into a policy. -/
def restoreTier (m : Policy) (r : Record) : Policy :=
  match r.toTier? with
  | some (g, t) => m.editTier g fun _ => t
  | none => m

/-- Put the record of a principal into a policy; of several with one name the last one stays. -/
def restorePrincipal (m : Policy) (r : Record) : Policy :=
  { m with principals := m.principals.insert r.name (unseat r.toPrincipal) }

/-- The policy of a file's contents. -/
def ofArchive (defaults : Defaults) (a : Archive) : Policy :=
  a.principals.foldl restorePrincipal (a.groups.foldl restoreTier (new defaults))

/-- What the operator hears while a file is loaded. -/
def archiveNotices (a : Archive) : List Diagnostic :=
  a.groups.flatMap Record.tierNotices
    ++ a.principals.flatMap fun r =>
      r.principalNotices
        ++ (if r.toPrincipal.group = .operator then
              [.warn ("[trust] " ++ r.name ++ " was saved as " ++ Group.operator.name
                ++ "; loading as " ++ Group.initial.name)]
            else [])

/-- The contents of a policy file's text; `none` if it does not hold any. -/
def readArchive? (bytes : List UInt8) : Option Archive :=
  Value.ofBytes? bytes >>= Archive.ofJson?

/-- The policy of a file's text; `none` if it does not hold one. -/
def load? (defaults : Defaults) (bytes : List UInt8) : Option Policy :=
  (readArchive? bytes).map (ofArchive defaults)

end Policy

end ScriptWarden.Trust
