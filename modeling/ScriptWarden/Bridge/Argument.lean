import ScriptWarden.Decimal.Layout
import ScriptWarden.Lua.Heap
import ScriptWarden.Vec
set_option autoImplicit false

/-!
# Bridge: arguments

What a call sees of the values a script passes.  Of a table only its numbers count: those of the list if
it has one, else those under `x`, `y`, `z` and `w`, up to the first that is missing.
-/

namespace ScriptWarden.Bridge

open Lua (Value Heap Bytes)

/-- A value as a call sees it. -/
inductive Argument where
  | nil
  | boolean (b : Bool)
  | integer (n : Int64)
  | number (x : Float)
  | string (s : Bytes)
  /-- A table, with its components if all of them are numbers. -/
  | table (components : Option (List Float))
  /-- An object of a type, with the number of its state. -/
  | object (type : String) (state : Nat)
  | function (f : Value)
  | error
  deriving Inhabited

/-- An object of the host as scripts hold it: a type, and the number of its state. -/
structure Object where
  type : String
  state : Nat
  deriving DecidableEq, Repr, Inhabited

/-! ## Components of tables -/

/-- The double of a number. -/
def asDouble? : Value → Option Float
  | .int n => some n.toFloat
  | .float x => some x
  | _ => none

/-- Components up to the first that is missing; a value that is no number spoils all. -/
def namedComponents : List Value → Option (List Float)
  | [] => some []
  | .nil :: _ => some []
  | v :: rest => do
    let x ← asDouble? v
    return x :: (← namedComponents rest)

/-- The names of components. -/
def componentNames : List String := ["x", "y", "z", "w"]

/-- The components of a table. -/
def components (t : Lua.Table) : Option (List Float) :=
  let n := t.border
  if 0 < n then (List.range n).mapM fun (i : Nat) => asDouble? (t.getInt (Int.ofNat i + 1))
  else
    match namedComponents (componentNames.map t.getText) with
    | some (x :: xs) => some (x :: xs)
    | _ => none

namespace Argument

/-- What a call sees of a value. -/
def ofValue (h : Heap) (objects : Array Object) : Value → Argument
  | .nil => .nil
  | .bool b => .boolean b
  | .int n => .integer n
  | .float x => .number x
  | .str s => .string s
  | .table id => .table (components (h.table id))
  | .object id =>
    let o := objects[id]?.getD default
    .object o.type o.state
  | .raised _ => .error
  | v => .function v

/-- Is nothing there? -/
def isNil : Argument → Bool
  | .nil => true
  | _ => false

/-- What messages call an argument. -/
def label : Argument → String
  | .nil => "nil"
  | .boolean _ => "boolean"
  | .integer _ => "integer"
  | .number _ => "number"
  | .string _ => "string"
  | .table (some [_, _, _]) => "vec3"
  | .table (some [_, _, _, _]) => "vec4"
  | .table _ => "table"
  | .object type _ => type
  | .function _ => "function"
  | .error => "error"

/-- Is a double an integer? -/
def isWhole (x : Float) : Bool := x.isFinite && x.floor == x

/-! ## Reading -/

/-- The integer of an argument; a double beyond the integers gives the nearest one. -/
def integer? : Argument → Option Int64
  | .integer n => some n
  | .number x => if isWhole x then some x.toInt64 else none
  | _ => none

/-- The number of an argument. -/
def number? : Argument → Option Float
  | .integer n => some n.toFloat
  | .number x => some x
  | _ => none

/-- The truth value of an argument. -/
def boolean? : Argument → Option Bool
  | .boolean b => some b
  | _ => none

/-- The text of a string or number. -/
def text? : Argument → Option String
  | .string s => some (Text.lossy s)
  | .integer n => some (toString n.toInt)
  | .number x => some (Decimal.plainText x)
  | _ => none

/-- The three components of a table. -/
def vec3? : Argument → Option Vec3
  | .table (some [x, y, z]) => some ⟨x, y, z⟩
  | _ => none

/-- The four components of a table. -/
def vec4? : Argument → Option Vec4
  | .table (some [x, y, z, w]) => some ⟨x, y, z, w⟩
  | _ => none

/-- The function of an argument. -/
def function? : Argument → Option Value
  | .function f => some f
  | _ => none

/-- The number of the state of an object. -/
def state? : Argument → Option Nat
  | .object _ state => some state
  | _ => none

end Argument

end ScriptWarden.Bridge
