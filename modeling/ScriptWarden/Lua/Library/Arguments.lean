import ScriptWarden.Lua.Access
set_option autoImplicit false

/-!
# Lua: arguments of native functions

What a native function accepts in each place, and what it says of anything else.
-/

namespace ScriptWarden.Lua.Library

open ScriptWarden.Lua.Native

variable {σ : Type}

/-- The argument in a place, counted from one. -/
def arg? (args : List Value) (i : Nat) : Option Value := args[i - 1]?

/-- The argument in a place, or `nil`. -/
def arg (args : List Value) (i : Nat) : Value := (arg? args i).getD .nil

/-- Is the place empty, or does it hold `nil`? -/
def isAbsent (args : List Value) (i : Nat) : Bool := (arg args i).isNil

/-- An argument of a wrong type. -/
def wrongType {α : Type} (args : List Value) (i : Nat) (expected : String) : Native σ α := do
  let got ← heap fun h =>
    match arg? args i with
    | some v => h.typeName v
    | none => Text.bytes "no value"
  fail (.argument i (Text.bytes (expected ++ " expected, got ") ++ got))

/-- Any value, but not an empty place. -/
def anyArg (args : List Value) (i : Nat) : Native σ Value :=
  match arg? args i with
  | some v => return v
  | none => failArgument i "value expected"

/-- An integer, or anything that stands for one. -/
def intArg (args : List Value) (i : Nat) : Native σ Int64 :=
  let v := arg args i
  match v.toNumber? with
  | none => wrongType args i "number"
  | some n =>
    match n.toInt? with
    | some n => return n
    | none => failArgument i "number has no integer representation"

/-- An integer, or a default in its place. -/
def optInt (args : List Value) (i : Nat) (default : Int64) : Native σ Int64 :=
  if isAbsent args i then return default else intArg args i

/-- A number, or a string that spells one. -/
def numberArg (args : List Value) (i : Nat) : Native σ Number :=
  match (arg args i).toNumber? with
  | some n => return n
  | none => wrongType args i "number"

/-- A number as a double. -/
def floatArg (args : List Value) (i : Nat) : Native σ Float := return (← numberArg args i).toFloat

/-- A string, or a number as one. -/
def strArg (args : List Value) (i : Nat) : Native σ Bytes :=
  match (arg args i).toBytes? with
  | some s => return s
  | none => wrongType args i "string"

/-- A string, or a default in its place. -/
def optStr (args : List Value) (i : Nat) (default : Bytes) : Native σ Bytes :=
  if isAbsent args i then return default else strArg args i

/-- A table. -/
def tableArg (args : List Value) (i : Nat) : Native σ Nat :=
  match arg args i with
  | .table id => return id
  | _ => wrongType args i "table"

/-- A function. -/
def functionArg (args : List Value) (i : Nat) : Native σ Value :=
  let v := arg args i
  if v.isFunction then return v else wrongType args i "function"

/-- Refuse an argument unless a condition holds. -/
def require (condition : Bool) (i : Nat) (message : String) : Native σ Unit :=
  if condition then return else failArgument i message

end ScriptWarden.Lua.Library
