import ScriptWarden.Bridge.Registry
import ScriptWarden.Lua.Library.Install
set_option autoImplicit false

/-!
# Bridge: what scripts call

The functions of the host behind objects, output and modules.  An error that arises in one of them
reaches the script as a value of its own that names what went wrong.
-/

namespace ScriptWarden.Bridge

open Lua (Value World Native HostFunction Raised Thrown)
open Package (Services)

variable {κ : Type}

/-! ## Errors -/

/-- Raise an error of the host. -/
def raiseHost {α : Type} (e : Raised) : Native (Services κ) α := do
  let id ← Native.create fun h => h.newRaised e
  Native.fail (.value (.raised id))

/-- The place of native functions. -/
def nativePlace : Lua.Bytes := Text.bytes "[C]"

/-- Raise an error with a text. -/
def raiseText {α : Type} (message : String) : Native (Services κ) α :=
  raiseHost ⟨Lua.Machine.hostText message, nativePlace⟩

/-- Do an action on behalf of a script; it has no part in the counting of instructions. -/
def perform {α : Type} (a : Action κ α) : Native (Services κ) α := fun w =>
  let ⟨h, host, meter⟩ := w
  match a ⟨h, host, none⟩ with
  | (.ok a, ⟨h, host, _⟩) => .done a ⟨h, host, meter⟩
  | (.error message, ⟨h, host, _⟩) => raiseText message ⟨h, host, meter⟩

/-- Bytes up to the first zero. -/
def beforeZero (s : Lua.Bytes) : Lua.Bytes := Text.ofByteList (s.toList.takeWhile (· ≠ 0))

/-- The trace behind the text of an error that a script raised. -/
def trace : Lua.Bytes := Text.bytes "\nstack traceback:\n\t[C]: in ?"

/-- The error of the host that finds no room. -/
def noRoom : Raised := ⟨Text.bytes "memory error: not enough memory", nativePlace⟩

/-- What an error is to the host: its text with the word for its kind. -/
def raisedOf (t : Thrown) : Native (Services κ) Raised := do
  if t.outOfMemory then return noRoom
  match t.value with
  | .raised id => Native.heap fun h => h.raised[id]?.getD default
  | v =>
    let s ← (Lua.Access.text v).lift
    return ⟨Text.bytes "runtime error: " ++ beforeZero s ++ trace, nativePlace⟩

/-- Call a function from a function of the host. -/
def callBack (f : Value) (args : List Value) : Native (Services κ) (List Value) := do
  match ← Native.guarded f args none with
  | .values vs => return vs
  | .raised t => raiseHost (← raisedOf t)

/-! ## Conversions -/

/-- What a failed conversion calls a value. -/
def conversionName : Value → String
  | .nil => "nil"
  | .bool _ => "boolean"
  | .int _ => "integer"
  | .float _ => "number"
  | .str _ => "string"
  | .table _ => "table"
  | .object _ => "userdata"
  | .raised _ => "error"
  | _ => "function"

/-- A value as a text: strings of valid encoding, and numbers. -/
def textOf? (v : Value) : Except String String :=
  match v with
  | .str s =>
    match Text.decode s with
    | .ok s => .ok s
    | .error m => .error ("error converting Lua string to String (" ++ m.message ++ ")")
  | v =>
    match v.toBytes? with
    | some s => .ok (Text.lossy s)
    | none =>
      .error ("error converting Lua " ++ conversionName v
        ++ " to String (expected string or number)")

/-- A value as a text, or an error without a kind in front. -/
def textOf (v : Value) (lead : String) : Native (Services κ) String :=
  match textOf? v with
  | .ok s => return s
  | .error message => raiseHost ⟨Text.bytes (lead ++ message), nativePlace⟩

/-! ## Output -/

/-- Write the first argument to the log of the package. -/
def output (level : String) (args : List Value) : Native (Services κ) (List Value) := do
  let stringifier ← Native.heap (·.stringifier)
  let vs ← callBack stringifier [args.headD .nil]
  let message ← textOf (vs.headD .nil) ""
  Native.host fun s => ((), s.pushLog level message)
  return []

/-! ## Modules -/

/-- What is wrong with the name of a chunk: it must not hold a zero. -/
def nameFault? (name : Lua.Bytes) : Option String :=
  (name.toList.findIdx? (· = 0)).map fun i =>
    "invalid name: nul byte found in provided data at position: " ++ toString i

/-- Load a chunk. -/
def load (name source : Lua.Bytes) : Native (Services κ) Value := do
  match nameFault? name with
  | some message => raiseText message
  | none =>
    match ← Native.create (Lua.Library.loadSource name source none) with
    | .error message => raiseHost ⟨Text.bytes "syntax error: " ++ message, nativePlace⟩
    | .ok f => return f

/-- The name of a module without the ending `.lua`. -/
def moduleOf (given : String) : String := ((given.dropSuffix? ".lua").map (·.toString)).getD given

/-- Why a module does not start. -/
def unknownModule (name : String) : String :=
  "module '" ++ name ++ "' is unknown or has already been required"

/-- Take a module out of those that have not been started. -/
def takeModule (name : String) (s : Services κ) : Option String × Services κ :=
  (s.modules[name]?, { s with modules := s.modules.erase name })

/-- Start a module that was not started before. -/
def startModule (given : String) : Native (Services κ) (List Value) := do
  let name := moduleOf given
  match ← Native.host (takeModule name) with
  | none => raiseText (unknownModule name)
  | some source => callBack (← load (Text.bytes name) (Text.bytes source)) []

/-- Start a module by name. -/
def requireModule (args : List Value) : Native (Services κ) (List Value) := do
  startModule (← textOf (args.headD .nil) "bad argument #1: ")

/-! ## Objects -/

/-- The words for a member that an object type lacks. -/
def noMember (type name : String) : String := "no such member '" ++ name ++ "' on " ++ type

/-- The object behind a value. -/
def objectOf (s : Services κ) (v : Value) : Object :=
  match v with
  | .object id => s.objects[id]?.getD default
  | _ => default

/-- What a call sees of a value. -/
def seen (w : World (Services κ)) (v : Value) : Argument :=
  Argument.ofValue w.heap w.host.objects v

/-- What a call sees of some values. -/
def seenAll (vs : List Value) : Action κ (List Argument) := fun w => (.ok (vs.map (seen w)), w)

/-- The name that a key stands for. -/
def keyName (key : Value) (a : Argument) : String :=
  match key with
  | .str s => Text.lossy s
  | _ => a.label

/-- Fail if the package has ended. -/
def checkAlive : Action κ Unit := do
  let (alive, package) ← Action.look fun s => (s.alive, s.package)
  if !alive then Action.fail ("package '" ++ package ++ "' has been unloaded")

/-- The function of a method: the one made first under the qualified name. -/
def methodFunction (type name : String) : Native (Services κ) Value :=
  Native.host fun s =>
    let key := type ++ ":" ++ name
    match s.methods[key]? with
    | some f => (.host f, s)
    | none =>
      let f : HostFunction := .method type name
      (.host f, { s with methods := s.methods.insert key f })

/-- The type and the state of an object, and the name of a member of it that a key stands for. -/
def memberName (args : List Value) : Native (Services κ) (Object × String) := fun w =>
  let key := (args.drop 1).headD .nil
  .done (objectOf w.host (args.headD .nil), keyName key (seen w key)) w

/-- Read a field of a live package. -/
def readField (get : Nat → Action κ Value) (state : Nat) : Action κ Value := do
  checkAlive
  get state

/-- Find a member of an object. -/
def findMember (r : Registry κ) (args : List Value) : Native (Services κ) (List Value) := do
  let (o, name) ← memberName args
  match (args.drop 1).headD .nil, r.member? o.type name with
  | .str _, some (.method ..) => return [← methodFunction o.type name]
  | .str _, some (.field _ get) => return [← perform (readField get o.state)]
  | _, _ => raiseText (noMember o.type name)

/-- Read a member of an object.  There has to be room for what is made on the way: a function, the text that
it is kept under, or an error. -/
def readMember (r : Registry κ) (args : List Value) : Native (Services κ) (List Value) := do
  if ← Native.heap (·.hasRoom Lua.Machine.hostRoom) then findMember r args else raiseHost noRoom

/-- Members cannot be changed. -/
def refuseMember (r : Registry κ) (args : List Value) : Native (Services κ) (List Value) := do
  let (o, name) ← memberName args
  match r.member? o.type name with
  | some (.field ..) => raiseText ("member '" ++ name ++ "' of " ++ o.type ++ " is read-only")
  | _ => raiseText (noMember o.type name)

/-- Call a method on a receiver that is an object with a state, among the values that a script passed. -/
def callMethod (r : Registry κ) (policy : Trust.Policy) (type name : String) (this : Value)
    (values : List Value) (state : Nat) (shown : List Argument) : Action κ (List Value) := do
  checkAlive
  match r.member? type name with
  | some (.method overloads run) =>
    let method := type ++ ":" ++ name
    let arguments := trimmed shown
    match select overloads arguments with
    | .error refusal => Action.fail (refusal.message method)
    | .ok overload => run { method, this, state, overload, arguments, values, policy }
  | _ => Action.fail (noMember type name)

/-- A call of a method as a script makes it, with the receiver first. -/
def bridgeCall (r : Registry κ) (policy : Trust.Policy) (type name : String) (args : List Value) :
    Action κ (List Value) := do
  let method := type ++ ":" ++ name
  match args with
  | [] => Action.fail ("calling '" ++ method ++ "' without an object (use ':' instead of '.')")
  | this :: values =>
    let shown ← seenAll (this :: values)
    match shown.headD .nil with
    | .object found state =>
      if found = type then callMethod r policy type name this values state shown.tail
      else
        Action.fail ("bad self to '" ++ method ++ "' (expected " ++ type ++ ", got " ++ found ++ ")")
    | a =>
      Action.fail ("bad self to '" ++ method ++ "' (expected " ++ type ++ ", got " ++ a.label ++ ")")

/-- Do two objects stand for the same thing? -/
def sameObject (args : List Value) : Native (Services κ) (List Value) :=
  Native.host fun s =>
    match args with
    | .object a :: .object b :: _ =>
      ([.bool ((objectOf s (.object a)).state = (objectOf s (.object b)).state)], s)
    | _ => ([.bool false], s)

/-- What the functions of the host do. -/
def hostFunctions (r : Registry κ) (policy : Trust.Policy) (f : HostFunction) (args : List Value) :
    Native (Services κ) (List Value) :=
  match f with
  | .output level => output level args
  | .outputCall => do
    -- the table that is called comes first
    match ← Native.guarded (.host (.output "info")) args.tail none with
    | .values _ => return []
    | .raised t => raiseHost (← raisedOf t)
  | .require => requireModule args
  | .method type name => perform (bridgeCall r policy type name args)
  | .member => readMember r args
  | .setMember => refuseMember r args
  | .objectText => do return [.text (← Native.host fun s => ((objectOf s (args.headD .nil)).type, s))]
  | .sameObject => sameObject args

/-- What native functions do. -/
def natives (r : Registry κ) (policy : Trust.Policy)
    (collector : Lua.Collector := fun _ => none) : Lua.Natives (Services κ) :=
  Lua.Library.natives (hostFunctions r policy) collector

end ScriptWarden.Bridge
