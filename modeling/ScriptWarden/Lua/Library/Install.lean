import ScriptWarden.Lua.Library.Base
import ScriptWarden.Lua.Library.List
import ScriptWarden.Lua.Library.Math
import ScriptWarden.Lua.Library.Pack
import ScriptWarden.Lua.Library.Str
import ScriptWarden.Lua.Machine
set_option autoImplicit false

/-!
# Lua: the library

What each native function does, and a heap in which scripts find them.
-/

namespace ScriptWarden.Lua.Library

variable {σ : Type}

/-- Functions on strings. -/
def string (f : Builtin) (args : List Value) : Native σ (List Value) :=
  match f with
  | .stringByte => byteNumbers args
  | .stringChar => fromNumbers args
  | .stringDump => Native.failText "unable to dump given function"
  | .stringFind => findPattern args true
  | .stringFormat => format args
  | .stringGmatch => beginMatches args
  | .stringGsub => replace args
  | .stringLen => do return [.nat (← strArg args 1).size]
  | .stringLower => mapBytes args lowerByte
  | .stringMatch => findPattern args false
  | .stringPack => pack args
  | .stringPacksize => packSize args
  | .stringRep => repeatString args
  | .stringReverse => do return [← Native.newString (Text.ofByteList (← strArg args 1).toList.reverse)]
  | .stringSub => do
    let s ← strArg args 1
    let first ← intArg args 2
    let last ← optInt args 3 (-1)
    return [← Native.newString (slice s (startPosition first s.size) (endPosition last s.size))]
  | .stringUnpack => unpack args
  | .stringUpper => mapBytes args upperByte
  | .stringArith op => stringArith op args
  | _ => return []

/-- The library that a function belongs to. -/
inductive Part where
  | base
  | list
  | math
  | string
  deriving DecidableEq, Repr

/-- The part of a function. -/
def partOf (f : Builtin) : Part :=
  match f with
  | .stringArith _ => .string
  | _ =>
    if tableNames.any (·.2 == f) then .list
    else if mathNames.any (·.2 == f) then .math
    else if stringNames.any (·.2 == f) then .string
    else .base

/-- What a function of the language does. -/
def builtin (f : Builtin) (args : List Value) : Native σ (List Value) :=
  match partOf f with
  | .base => base f args
  | .list => list f args
  | .math => math f args
  | .string => string f args

/-- What native functions do, given those of the host, beside a collector. -/
def natives (host : HostFunction → List Value → Native σ (List Value))
    (collector : Collector := fun _ => none) : Natives σ where
  call f args :=
    match f with
    | .builtin f => (builtin f args).lift
    | .matcher id => (matchStep id).lift
    | .host f => host f args
    | _ => return []
  collector

/-! ## The first heap -/

/-- A table of functions. -/
def tableOf (names : List (String × Builtin)) : Table :=
  names.foldl (fun t (name, f) => t.setText name (.builtin f)) {}

/-- Constants of the functions on numbers. -/
def mathTable : Table :=
  let t := tableOf mathNames
  let t := t.setText "pi" (.float pi)
  let t := t.setText "huge" (.float (1.0 / 0.0))
  let t := t.setText "maxinteger" (.int Int64.maxValue)
  t.setText "mininteger" (.int Int64.minValue)

/-- Operations that strings take part in if they spell numbers. -/
def stringOperations : List Arith := [.add, .sub, .mul, .mod, .pow, .div, .idiv, .unm]

/-- A heap with nothing but the library.  Slots begin with variable 0, which belongs to nobody. -/
def freshHeap : Heap :=
  let h : Heap := { cells := #[.nil] }
  let (strings, h) := h.newTable (tableOf stringNames)
  let meta_ : Table := stringOperations.foldl
    (fun t op => t.setText ("__" ++ op.event) (.builtin (.stringArith op)))
    (({} : Table).setText "__index" (.table strings))
  let (stringMeta, h) := h.newTable meta_
  let (lists, h) := h.newTable (tableOf tableNames)
  let (numbers, h) := h.newTable mathTable
  let globals := tableOf baseNames
  let globals := globals.setText "_VERSION" (.text "Lua 5.4")
  let globals := globals.setText "string" (.table strings)
  let globals := globals.setText "table" (.table lists)
  let globals := globals.setText "math" (.table numbers)
  let (id, h) := h.newTable globals
  { h with
    globals := id, stringMeta := some stringMeta, taken := 0
    tables := h.tables.modify id fun t => t.setText "_G" (.table id) }

end ScriptWarden.Lua.Library
