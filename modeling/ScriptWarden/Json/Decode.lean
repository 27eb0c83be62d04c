import ScriptWarden.Json.Reader
set_option autoImplicit false

/-!
# Json: from values to data

Readers of the shapes that the files of this library have.  A record may be written as an object,
with its known members at most once each and any others passed over, or as a list of its members in
declared order.
-/

namespace ScriptWarden.Json

/-- The members of a record that were written. -/
structure Members where
  get? : String → Option Value
  /-- Written as a list. -/
  positional : Bool

/-- How often a key is written. -/
def keyCount (name : String) (fields : List (Option String × Value)) : Nat :=
  (fields.filter fun (k, _) => k == some name).length

/-- The members of a record with the declared names `names`. -/
def Members.ofValue? (names : List String) : Value → Option Members
  | .object fields =>
    if fields.all (fun (k, _) => k.isSome) && names.all (fun n => keyCount n fields ≤ 1) then
      some { get? := fun n => (fields.find? fun (k, _) => k == some n).map (·.2), positional := false }
    else none
  | .array items =>
    if items.length ≤ names.length then
      some { get? := fun n => ((names.zip items).find? fun (k, _) => k == n).map (·.2)
             positional := true }
    else none
  | _ => none

/-- A member that must be written. -/
def Members.need {α : Type} (m : Members) (name : String) (read : Value → Option α) : Option α := do
  let v ← m.get? name
  read v

/-- A member with a default. -/
def Members.getOr {α : Type} (m : Members) (name : String) (default : α) (read : Value → Option α) :
    Option α :=
  match m.get? name with
  | some v => read v
  | none => some default

/-- A member that may be `null`, and that an object may leave out. -/
def Members.optional {α : Type} (m : Members) (name : String) (read : Value → Option α) :
    Option (Option α) :=
  match m.get? name with
  | some .null => some none
  | some v => (read v).map some
  | none => if m.positional then none else some none

/-- `null`, or a value that is read. -/
def Value.nullable {α : Type} (read : Value → Option α) : Value → Option (Option α)
  | .null => some none
  | v => (read v).map some

/-- A string. -/
def Value.string? : Value → Option String
  | .string s => s
  | _ => none

/-- A truth value. -/
def Value.bool? : Value → Option Bool
  | .bool b => some b
  | _ => none

/-- An integer literal between two bounds. -/
def Value.intIn? (low high : Int) : Value → Option Int
  | .int n => if low ≤ n ∧ n ≤ high then some n else none
  | _ => none

/-- A natural number of at most `bits` bits. -/
def Value.word? (bits : Nat) (v : Value) : Option Nat :=
  (v.intIn? 0 (Nat.pow 2 bits - 1)).map Int.toNat

/-- A signed number of 32 bits. -/
def Value.int32? (v : Value) : Option Int := v.intIn? (-0x80000000) 0x7FFFFFFF

/-- A number as a double. -/
def Value.float? : Value → Option Float
  | .int n => intToFloat? n
  | .real n => n.toFloat?
  | _ => none

/-- A list, each item read. -/
def Value.list? {α : Type} (read : Value → Option α) : Value → Option (List α)
  | .array items => items.mapM read
  | _ => none

/-- An object as pairs, in the order written. -/
def Value.pairs? {α : Type} (read : Value → Option α) : Value → Option (List (String × α))
  | .object fields => fields.mapM fun (k, v) => do return (← k, ← read v)
  | _ => none

end ScriptWarden.Json
