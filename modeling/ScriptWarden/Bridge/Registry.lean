import ScriptWarden.Bridge.Selection
import ScriptWarden.Json.Value
import ScriptWarden.Lua.Native
import ScriptWarden.Package.Services
set_option autoImplicit false

/-!
# Bridge: the registry

Every object type that scripts can meet, with its members.  A member that is not registered does not
exist for a script.  What a member does is an action on the state of the package, which may fail with a
text.
-/

namespace ScriptWarden.Bridge

open Lua (Value World)
open Package (Services)

/-! ## Actions -/

/-- Something a member does: it may fail, and what it did before it failed stays done. -/
abbrev Action (κ α : Type) := ExceptT String (StateM (World (Services κ))) α

namespace Action

variable {κ α : Type}

/-- Look something up in the services. -/
def look (f : Services κ → α) : Action κ α := fun w => (.ok (f w.host), w)

/-- Change the services. -/
def onServices (f : Services κ → α × Services κ) : Action κ α := fun w =>
  let ⟨h, host, meter⟩ := w
  let (a, host) := f host
  (.ok a, ⟨h, host, meter⟩)

/-- Change the services. -/
def edit (f : Services κ → Services κ) : Action κ Unit := onServices fun s => ((), f s)

/-- Change the heap. -/
def onHeap (f : Lua.Heap → α × Lua.Heap) : Action κ α := fun w =>
  let ⟨h, host, meter⟩ := w
  let (a, h) := f h
  (.ok a, ⟨h, host, meter⟩)

/-- Fail. -/
def fail (message : String) : Action κ α := throw message

end Action

/-! ## Calls -/

/-- A call of a method whose signature is chosen. -/
structure Call where
  /-- The type and the method. -/
  method : String
  /-- The object itself. -/
  this : Value
  /-- The number of its state. -/
  state : Nat
  /-- The signature, counted from zero. -/
  overload : Nat
  arguments : List Argument
  /-- The arguments as the script passed them. -/
  values : List Value
  /-- The trust in force. -/
  policy : Trust.Policy

namespace Call

variable {κ α : Type}

/-- Fail on behalf of the method. -/
def fail (c : Call) (message : String) : Except String α := .error (c.method ++ ": " ++ message)

/-- An argument, counted from zero. -/
def argument (c : Call) (i : Nat) : Argument := c.arguments[i]?.getD .nil

/-- Read an argument; `what` is what it should be. -/
def read (c : Call) (i : Nat) (what : String) (f : Argument → Option α) : Except String α :=
  match f (c.argument i) with
  | some a => return a
  | none =>
    c.fail ("argument #" ++ toString (i + 1) ++ " is not " ++ what ++ " (" ++ (c.argument i).label
      ++ ")")

/-- An integer. -/
def int (c : Call) (i : Nat) : Except String Int64 := c.read i "an integer" Argument.integer?

/-- A number. -/
def num (c : Call) (i : Nat) : Except String Float := c.read i "a number" Argument.number?

/-- A truth value. -/
def bool (c : Call) (i : Nat) : Except String Bool := c.read i "a boolean" Argument.boolean?

/-- A text. -/
def text (c : Call) (i : Nat) : Except String String := c.read i "a string" Argument.text?

/-- A function. -/
def function (c : Call) (i : Nat) : Except String Value := c.read i "a function" Argument.function?

/-- An argument that may be left out. -/
def optional (c : Call) (i : Nat) (f : Call → Nat → Except String α) :
    Except String (Option α) :=
  if (c.argument i).isNil then return none else return some (← f c i)

/-- A vector; a table of another size is named without its type. -/
def vector (c : Call) (i : Nat) (what : String) (f : Argument → Option α) : Except String α :=
  match f (c.argument i), c.argument i with
  | some v, _ => return v
  | none, .table _ => c.fail ("argument #" ++ toString (i + 1) ++ " is not a " ++ what)
  | none, a =>
    c.fail ("argument #" ++ toString (i + 1) ++ " is not a " ++ what ++ " (" ++ a.label ++ ")")

/-- Three numbers. -/
def vec3 (c : Call) (i : Nat) : Except String Vec3 := c.vector i "vec3" Argument.vec3?

/-- Four numbers. -/
def vec4 (c : Call) (i : Nat) : Except String Vec4 := c.vector i "vec4" Argument.vec4?

/-- The number of the state of an object. -/
def stateOf (c : Call) (i : Nat) : Except String Nat := c.read i "an object" Argument.state?

/-- The state of an object of the right kind. -/
def object (c : Call) (i : Nat) (f : κ → Option α) : Action κ (Nat × α) := do
  let id ← c.stateOf i
  match (← Action.look fun s => s.states[id]?).bind f with
  | some a => return (id, a)
  | none => c.fail ("argument #" ++ toString (i + 1) ++ " has the wrong object type")

/-- The object itself as the result. -/
def self (c : Call) : Action κ (List Value) := return [c.this]

end Call

/-! ## Types -/

/-- A member of an object type. -/
inductive Member (κ : Type) where
  | method (overloads : List Signature) (run : Call → Action κ (List Value))
  /-- A field that can only be read; the action gets the number of the object's state. -/
  | field (type : ArgType) (get : Nat → Action κ Value)

/-- An object type. -/
structure TypeEntry (κ : Type) where
  doc : String := ""
  members : Std.ExtTreeMap String (Member κ) := ∅

namespace TypeEntry

variable {κ : Type}

/-- Say what a type is for. -/
def describe (t : TypeEntry κ) (doc : String) : TypeEntry κ := { t with doc }

/-- Add a method; without a signature it takes no arguments. -/
def method (t : TypeEntry κ) (name : String) (overloads : List Signature)
    (run : Call → Action κ (List Value)) : TypeEntry κ :=
  { t with members := t.members.insert name (.method (if overloads.isEmpty then [[]] else overloads) run) }

/-- Add a method under several names. -/
def methods (t : TypeEntry κ) (names : List String) (overloads : List Signature)
    (run : Call → Action κ (List Value)) : TypeEntry κ :=
  names.foldl (fun t name => t.method name overloads run) t

/-- Add a field. -/
def field (t : TypeEntry κ) (name : String) (type : ArgType) (get : Nat → Action κ Value) :
    TypeEntry κ :=
  { t with members := t.members.insert name (.field type get) }

end TypeEntry

/-- Every object type by its name. -/
structure Registry (κ : Type) where
  types : Std.ExtTreeMap String (TypeEntry κ) := ∅

namespace Registry

variable {κ : Type}

/-- Register a type; the last one of a name stays. -/
def register (r : Registry κ) (name : String) (t : TypeEntry κ) : Registry κ :=
  ⟨r.types.insert name t⟩

/-- Is there a type of the name? -/
def hasType (r : Registry κ) (name : String) : Bool := r.types.contains name

/-- A member of a type. -/
def member? (r : Registry κ) (type name : String) : Option (Member κ) :=
  r.types[type]?.bind fun t => t.members[name]?

/-- A new object of a type with a state. -/
def wrap (r : Registry κ) (type : String) (state : Nat) : Action κ Value :=
  if r.hasType type then Action.onServices fun s => s.newObject ⟨type, state⟩
  else Action.fail ("type '" ++ type ++ "' is not registered")

/-- A new object of a type with a new state. -/
def create (r : Registry κ) (type : String) (state : κ) : Action κ Value := do
  let id ← Action.onServices fun s => s.newState state
  r.wrap type id

/-! ## Description -/

/-- The type of a parameter as a record. -/
def typeJson : ArgType → Json.Value
  | .object type => .record [("object", .text type)]
  | t => .text t.label

/-- A signature as a record. -/
def signatureJson (s : Signature) : Json.Value :=
  .array (s.map fun p => .record
    [("name", .text p.name), ("type", typeJson p.type), ("optional", .bool p.isOptional)])

/-- The members of a type, methods apart from fields. -/
def memberJson (t : TypeEntry κ) : List Json.Value × List Json.Value :=
  t.members.foldr (fun name m (methods, fields) =>
    match m with
    | .method overloads _ =>
      (.record [("name", .text name), ("overloads", .array (overloads.map signatureJson))]
        :: methods, fields)
    | .field type _ =>
      (methods, .record [("name", .text name), ("type", typeJson type)] :: fields)) ([], [])

/-- Everything that is registered, by name. -/
def toJson (r : Registry κ) : Json.Value :=
  .record [("types", .array (r.types.toList.map fun (name, t) =>
    let (methods, fields) := memberJson t
    .record [("name", .text name), ("doc", .text t.doc), ("methods", .array methods),
      ("fields", .array fields)]))]

end Registry

end ScriptWarden.Bridge
