set_option autoImplicit false

/-!
# Bridge: signatures

What a method of an object type may be called with.  A method has one or more signatures, and the
arguments of a call choose among them.
-/

namespace ScriptWarden.Bridge

/-- What a parameter accepts. -/
inductive ArgType where
  | integer
  | number
  | boolean
  | string
  /-- A table of three numbers. -/
  | vec3
  /-- A table of four numbers. -/
  | vec4
  /-- An object of a type. -/
  | object (type : String)
  | function
  | any
  deriving DecidableEq, Repr, Inhabited

/-- The word for a type in messages. -/
def ArgType.label : ArgType → String
  | .integer => "integer"
  | .number => "number"
  | .boolean => "boolean"
  | .string => "string"
  | .vec3 => "vec3"
  | .vec4 => "vec4"
  | .object type => type
  | .function => "function"
  | .any => "any"

/-- A parameter. -/
structure Param where
  name : String
  type : ArgType
  /-- May it be left out? -/
  isOptional : Bool := false
  deriving DecidableEq, Repr, Inhabited

/-- A parameter that must be given. -/
def required (name : String) (type : ArgType) : Param := ⟨name, type, false⟩

/-- A parameter that may be left out. -/
def optional (name : String) (type : ArgType) : Param := ⟨name, type, true⟩

/-- The parameters of one way to call a method. -/
abbrev Signature := List Param

end ScriptWarden.Bridge
