import ScriptWarden.Diagnostic
import ScriptWarden.Trust.Capability
set_option autoImplicit false

/-!
# Trust: the policy

A policy maps a principal and a capability to a value.  The first of these that holds the capability
answers: the principal's own overrides, its custom sets in ascending order of their names, the
overrides of its group, the declared values of its group.  If none does, the value is undefined.

A principal that nobody has edited has no entry; it resolves through its initial group, so that
asking about it changes nothing.
-/

namespace ScriptWarden.Trust

/-- What has been set for a group. -/
structure Tier where
  overrides : Overrides := ∅
  visible : Bool := true

/-- What has been set for a principal. -/
structure Principal where
  group : Group
  overrides : Overrides := ∅
  /-- Named sets of values, consulted in ascending order of the names. -/
  custom : Std.ExtTreeMap String Overrides := ∅

namespace Tier

/-- Is anything set here? -/
def hasChanges (t : Tier) : Bool := !t.overrides.isEmpty

/-- Set a value. -/
def set (t : Tier) (c : Capability) (n : Int) : Tier :=
  { t with overrides := t.overrides.insert c n }

/-- Unset a value. -/
def clear (t : Tier) (c : Capability) : Tier :=
  { t with overrides := t.overrides.erase c }

/-- Unset every value. -/
def clearAll (t : Tier) : Tier := { t with overrides := ∅ }

end Tier

namespace Principal

/-- The value of the first custom set that holds the capability. -/
def customValue (p : Principal) (c : Capability) : Effective :=
  p.custom.values.findSome? (·[c]?)

/-- The value set for the principal itself, directly or in a custom set. -/
def own (p : Principal) (c : Capability) : Effective :=
  p.overrides[c]? <|> p.customValue c

/-- Is the capability set here, directly or in a custom set? -/
def hasOverride (p : Principal) (c : Capability) : Bool := (p.own c).isSome

/-- Is anything set here? -/
def hasChanges (p : Principal) : Bool :=
  !p.overrides.isEmpty || p.custom.values.any fun set => !set.isEmpty

/-- Set a value directly. -/
def set (p : Principal) (c : Capability) (n : Int) : Principal :=
  { p with overrides := p.overrides.insert c n }

/-- Unset the direct value. -/
def clear (p : Principal) (c : Capability) : Principal :=
  { p with overrides := p.overrides.erase c }

/-- Unset the value directly and in every custom set. -/
def reset (p : Principal) (c : Capability) : Principal :=
  { p with
    overrides := p.overrides.erase c
    custom := p.custom.map fun _ set => set.erase c }

/-- Unset everything. -/
def clearAll (p : Principal) : Principal := { p with overrides := ∅, custom := ∅ }

/-- Set a value in a custom set. -/
def setCustom (p : Principal) (name : String) (c : Capability) (n : Int) : Principal :=
  { p with custom := p.custom.insert name ((p.custom[name]?.getD ∅).insert c n) }

/-- Unset a value in a custom set. -/
def clearCustom (p : Principal) (name : String) (c : Capability) : Principal :=
  { p with custom := p.custom.modify name fun set => set.erase c }

end Principal

/-- Every group, every principal with an entry, and who the operator is. -/
structure Policy where
  defaults : Defaults
  tiers : Group → Tier := fun _ => {}
  principals : Std.ExtTreeMap String Principal := ∅
  /-- The principal whose initial group is the operator's. -/
  operator : Option String := none

namespace Policy

/-- A policy in which nothing has been set. -/
def new (defaults : Defaults) : Policy := { defaults }

instance : Inhabited Policy := ⟨new ∅⟩

/-- The group a principal without an entry belongs to. -/
def initialGroup (m : Policy) (p : String) : Group :=
  if m.operator = some p then .operator else .initial

/-- The group a principal resolves through. -/
def groupOf (m : Policy) (p : String) : Group :=
  match m.principals[p]? with
  | some entry => entry.group
  | none => m.initialGroup p

/-- The value of a group. -/
def resolveGroup (m : Policy) (g : Group) (c : Capability) : Effective :=
  (m.tiers g).overrides[c]? <|> m.defaults.value g c

/-- The value of a principal. -/
def resolve (m : Policy) (p : String) (c : Capability) : Effective :=
  match m.principals[p]? with
  | some entry => entry.own c <|> m.resolveGroup entry.group c
  | none => m.resolveGroup (m.initialGroup p) c

/-- Is the value at least `least`?  An undefined value is not. -/
def allows (m : Policy) (p : String) (c : Capability) (least : Int) : Bool :=
  (m.resolve p c).any fun n => least ≤ n

/-- What the operator hears when a value that is asked for is undefined. -/
def undefinedNotice (p : String) (c : Capability) : Diagnostic :=
  .warn ("[trust] " ++ c.name ++ " is undefined for " ++ p ++ "; denying")

/-! ## Edits -/

/-- The entry of a principal, or the one it would get. -/
def entry (m : Policy) (p : String) : Principal :=
  m.principals[p]?.getD { group := m.initialGroup p }

/-- Edit the entry of a principal, which is made if there is none. -/
def edit (m : Policy) (p : String) (f : Principal → Principal) : Policy :=
  { m with principals := m.principals.insert p (f (m.entry p)) }

/-- Edit a group. -/
def editTier (m : Policy) (g : Group) (f : Tier → Tier) : Policy :=
  { m with tiers := fun h => if h = g then f (m.tiers g) else m.tiers h }

/-- Move a principal to a group.  Its own values stay. -/
def setGroup (m : Policy) (p : String) (g : Group) : Policy :=
  m.edit p fun entry => { entry with group := g }

/-- Make a principal the operator.  Whoever was the operator before falls back to the initial
group. -/
def withOperator (m : Policy) (p : String) : Policy :=
  let principals :=
    match m.operator with
    | some previous =>
      if previous = p then m.principals
      else m.principals.modify previous fun entry => { entry with group := .initial }
    | none => m.principals
  setGroup { m with principals, operator := none } p .operator |> fun m =>
    { m with operator := some p }

/-- Move a principal one tier up. -/
def promote (m : Policy) (p : String) : Group × Policy :=
  let next := (m.groupOf p).promoted
  (next, m.setGroup p next)

/-- Move a principal one tier down. -/
def demote (m : Policy) (p : String) : Group × Policy :=
  let next := (m.groupOf p).demoted
  (next, m.setGroup p next)

end Policy

end ScriptWarden.Trust
