import ScriptWarden.Text.Bytes
set_option autoImplicit false

/-!
# Lua: values

The values of the script language.  Whatever has an identity — tables, functions, objects of the host
and errors that the host raised — is a number that the heap or the host gives a meaning to.
-/

namespace ScriptWarden.Lua

/-- A string of the script language. -/
abbrev Bytes := ByteArray

/-- Operations of numbers. -/
inductive Arith where
  | add
  | sub
  | mul
  | mod
  | pow
  | div
  | idiv
  | band
  | bor
  | bxor
  | shl
  | shr
  | unm
  | bnot
  deriving DecidableEq, Repr, Inhabited

/-- The name of an operation in a metatable, without the two underscores. -/
def Arith.event : Arith → String
  | .add => "add"
  | .sub => "sub"
  | .mul => "mul"
  | .mod => "mod"
  | .pow => "pow"
  | .div => "div"
  | .idiv => "idiv"
  | .band => "band"
  | .bor => "bor"
  | .bxor => "bxor"
  | .shl => "shl"
  | .shr => "shr"
  | .unm => "unm"
  | .bnot => "bnot"

/-- Functions that the language comes with. -/
inductive Builtin where
  -- base
  | assert
  | collectgarbage
  | dofile
  | error
  | getmetatable
  | ipairs
  | ipairsStep
  | load
  | loadfile
  | next
  | pairs
  | pcall
  | print
  | rawequal
  | rawget
  | rawlen
  | rawset
  | select
  | setmetatable
  | tonumber
  | tostring
  | type
  | warn
  | xpcall
  -- table
  | tableConcat
  | tableInsert
  | tableMove
  | tablePack
  | tableRemove
  | tableSort
  | tableUnpack
  -- math
  | mathAbs
  | mathAcos
  | mathAsin
  | mathAtan
  | mathCeil
  | mathCos
  | mathDeg
  | mathExp
  | mathFloor
  | mathFmod
  | mathLog
  | mathMax
  | mathMin
  | mathModf
  | mathRad
  | mathRandom
  | mathRandomseed
  | mathSin
  | mathSqrt
  | mathTan
  | mathTointeger
  | mathType
  | mathUlt
  -- string
  | stringByte
  | stringChar
  | stringDump
  | stringFind
  | stringFormat
  | stringGmatch
  | stringGsub
  | stringLen
  | stringLower
  | stringMatch
  | stringPack
  | stringPacksize
  | stringRep
  | stringReverse
  | stringSub
  | stringUnpack
  | stringUpper
  /-- Arithmetic on strings that spell numbers. -/
  | stringArith (op : Arith)
  deriving DecidableEq, Repr, Inhabited

/-- Functions that the host adds. -/
inductive HostFunction where
  /-- Write a line of the given level to the package's log. -/
  | output (level : String)
  /-- The same, called as the log table itself. -/
  | outputCall
  /-- Run a module. -/
  | require
  /-- A method of an object type. -/
  | method (type name : String)
  /-- Read a member of an object. -/
  | member
  /-- Change a member of an object. -/
  | setMember
  /-- The text of an object. -/
  | objectText
  /-- Do two objects stand for the same thing? -/
  | sameObject
  deriving DecidableEq, Repr, Inhabited

/-- A value. -/
inductive Value where
  | nil
  | bool (b : Bool)
  | int (n : Int64)
  | float (x : Float)
  | str (s : Bytes)
  | table (id : Nat)
  | closure (id : Nat)
  | builtin (f : Builtin)
  /-- The function that walks the matches of a pattern, with its state in the heap. -/
  | matcher (id : Nat)
  | host (f : HostFunction)
  | object (id : Nat)
  /-- An error that the host raised. -/
  | raised (id : Nat)
  deriving Inhabited

namespace Value

/-- A string from text. -/
def text (s : String) : Value := .str (Text.bytes s)

/-- A small integer. -/
def nat (n : Nat) : Value := .int (Int64.ofNat n)

/-- Everything but `nil` and `false` is true. -/
def truthy : Value → Bool
  | .nil | .bool false => false
  | _ => true

/-- Is it `nil`? -/
def isNil : Value → Bool
  | .nil => true
  | _ => false

/-- Can it be called as it is? -/
def isFunction : Value → Bool
  | .closure _ | .builtin _ | .matcher _ | .host _ => true
  | _ => false

/-- The name of the type of a value. -/
def typeName : Value → String
  | .nil => "nil"
  | .bool _ => "boolean"
  | .int _ | .float _ => "number"
  | .str _ => "string"
  | .table _ => "table"
  | .closure _ | .builtin _ | .matcher _ | .host _ => "function"
  | .object _ | .raised _ => "userdata"

end Value

end ScriptWarden.Lua
