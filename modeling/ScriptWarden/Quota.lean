import ScriptWarden.Json.Value
import ScriptWarden.Trust.Capability
set_option autoImplicit false

/-!
# Quota: budgets of one package

Every bounded capability has one budget.  Its ceiling is computed from the owner's trust at a refill
and stays until the next one, so a change of trust is felt only when a new window opens.
-/

namespace ScriptWarden.Quota

open Trust (Capability Effective RefillRule)

/-- The units of one window: none for an undefined or non-positive value, and never more than the
rule allows. -/
def ceiling (rule : RefillRule) : Effective → Int
  | some n => if 0 < n then min n rule.maximum else 0
  | none => 0

/-- The budget of one capability. -/
structure Budget where
  rule : RefillRule
  remaining : Int
  ceiling : Int
  /-- Ticks since the window opened. -/
  age : Nat := 0
  denied : Bool := false
  deriving DecidableEq, Repr, Inhabited

namespace Budget

/-- A full budget. -/
def new (rule : RefillRule) (trust : Effective) : Budget :=
  { rule, remaining := Quota.ceiling rule trust, ceiling := Quota.ceiling rule trust }

/-- Take one unit.  A refusal sets the denied flag until a later use succeeds. -/
def take (b : Budget) : Bool × Budget :=
  if 0 < b.remaining then (true, { b with remaining := b.remaining - 1, denied := false })
  else (false, { b with denied := true })

/-- Open a new window. -/
def refill (b : Budget) (trust : Effective) : Budget :=
  { b with
    remaining := Quota.ceiling b.rule trust
    ceiling := Quota.ceiling b.rule trust
    age := 0 }

/-- Does the next tick open a new window? -/
def isDue (b : Budget) : Bool := b.rule.interval ≤ b.age + 1

/-- One tick passes; trust is looked at only when a new window opens. -/
def advance (b : Budget) (trust : Effective) : Budget :=
  if b.isDue then b.refill trust else { b with age := b.age + 1 }

end Budget

/-- What a listing shows of one budget. -/
structure Status where
  capability : Capability
  remaining : Int
  ceiling : Int
  denied : Bool
  deriving DecidableEq, Repr

/-- The listing of one budget as a record. -/
def Status.toJson (s : Status) : Json.Value :=
  .record [("capability", .text s.capability.name), ("remaining", .int s.remaining),
    ("ceiling", .int s.ceiling), ("denied", .bool s.denied)]

/-- The budgets of a package, and the refusals of capabilities that have none. -/
structure Gate where
  budgets : Std.ExtTreeMap Capability Budget
  refused : Std.ExtTreeMap Capability Unit := ∅

namespace Gate

/-- Full budgets for the capabilities with a refill rule. -/
def new (trust : Capability → Effective) : Gate :=
  { budgets := Capability.all.foldl
      (fun m c =>
        match c.refillRule with
        | some rule => m.insert c (.new rule (trust c))
        | none => m) ∅ }

/-- Take one unit; a capability without a budget is never granted. -/
def tryUse (g : Gate) (c : Capability) : Bool × Gate :=
  match g.budgets[c]? with
  | some b =>
    let (granted, b) := b.take
    (granted, { g with budgets := g.budgets.insert c b })
  | none => (false, g)

/-- The capabilities whose trust the next tick will ask for. -/
def due (g : Gate) : List Capability :=
  g.budgets.toList.filterMap fun (c, b) => if b.isDue then some c else none

/-- One tick passes. -/
def tick (g : Gate) (trust : Capability → Effective) : Gate :=
  { g with budgets := g.budgets.map fun c b => b.advance (trust c) }

/-- Flag a refusal of policy. -/
def flag (g : Gate) (c : Capability) : Gate := { g with refused := g.refused.insert c () }

/-- Take the flag back. -/
def unflag (g : Gate) (c : Capability) : Gate := { g with refused := g.refused.erase c }

/-- Was the last decision on the capability a refusal? -/
def isDenied (g : Gate) (c : Capability) : Bool :=
  g.refused.contains c || g.budgets[c]?.any (·.denied)

/-- The capabilities last refused, in declared order: those whose budget says so, and those refused by
policy. -/
def denied (g : Gate) : List Capability :=
  let flagged := g.budgets.foldl (fun flagged c b => if b.denied then flagged.insert c () else flagged) g.refused
  flagged.keys

/-- The units left of a capability. -/
def remaining (g : Gate) (c : Capability) : Int := (g.budgets[c]?.map (·.remaining)).getD 0

/-- Every budget, in declared order. -/
def status (g : Gate) : List Status :=
  g.budgets.toList.map fun (c, b) => ⟨c, b.remaining, b.ceiling, b.denied⟩

end Gate

end ScriptWarden.Quota
