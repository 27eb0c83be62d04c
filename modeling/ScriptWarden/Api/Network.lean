import ScriptWarden.Api.Thing
set_option autoImplicit false

/-!
# API: the network

A request takes one unit of its budget and returns its number at once; the answer comes later as an event.
A path must stay below the root of the backend.
-/

namespace ScriptWarden.Api

open Bridge (Action Call Registry TypeEntry optional required)
open Lua (Value)

/-- The type of the network object. -/
def networkType : String := "NetworkAPI"

/-- Methods that scripts may use. -/
def requestMethods : List String := ["GET", "POST", "PUT", "PATCH", "DELETE"]

/-! ## Paths -/

/-- The value of a hexadecimal digit. -/
def hexDigit? (b : UInt8) : Option UInt8 :=
  if 0x30 ≤ b ∧ b ≤ 0x39 then some (b - 0x30)
  else if 0x41 ≤ b ∧ b ≤ 0x46 then some (b - 0x41 + 10)
  else if 0x61 ≤ b ∧ b ≤ 0x66 then some (b - 0x61 + 10)
  else none

/-- Replace every percent sign with two hexadecimal digits by the byte they stand for. -/
def percentDecode : List UInt8 → List UInt8
  | 0x25 :: a :: b :: rest =>
    match hexDigit? a, hexDigit? b with
    | some m, some n => (m * 16 + n) :: percentDecode rest
    | _, _ => 0x25 :: percentDecode (a :: b :: rest)
  | b :: rest => b :: percentDecode rest
  | [] => []

/-- Is a character a control character? -/
def isControl (c : Char) : Bool := c.val < 0x20 || (0x7F ≤ c.val && c.val < 0xA0)

/-- Why a path is refused. -/
inductive PathFault where
  | relative
  | notText
  | forbidden
  | escapes
  deriving DecidableEq, Repr, Inhabited

/-- The words for a refused path. -/
def PathFault.message (path : String) : PathFault → String
  | .relative => "path '" ++ path ++ "' must start with '/'"
  | .notText => "path '" ++ path ++ "' is not valid UTF-8"
  | .forbidden => "path '" ++ path ++ "' contains forbidden characters"
  | .escapes => "path '" ++ path ++ "' escapes the backend scope"

/-- The parts between slashes. -/
def segments : List Char → List (List Char)
  | [] => [[]]
  | c :: rest =>
    if c = '/' then [] :: segments rest
    else
      match segments rest with
      | s :: more => (c :: s) :: more
      | [] => [[c]]

/-- Is a part one that leaves the place or stays there? -/
def isDotSegment (s : List Char) : Bool := s == ['.'] || s == ['.', '.']

/-- A path is absolute and, decoded, has no dot segments, backslashes or control characters. -/
def checkPath (path : String) : Except PathFault Unit :=
  if path.toList.head? ≠ some '/' then .error .relative
  else
    match String.fromUTF8? (Text.ofByteList (percentDecode path.toUTF8.toList)) with
    | none => .error .notText
    | some decoded =>
      let cs := decoded.toList
      if cs.contains '\\' || cs.any isControl then .error .forbidden
      else if (segments cs).any isDotSegment then .error .escapes
      else .ok ()

/-! ## Requests -/

/-- What a call asks of the backend. -/
def requestOf (c : Call) : Except String Host.Request := do
  let path ← c.text 0
  let method := ((← c.optional 1 Call.text).getD "GET").map Char.toUpper
  if !requestMethods.contains method then c.fail ("unsupported method '" ++ method ++ "'")
  match checkPath path with
  | .error e => c.fail (e.message path)
  | .ok () => return { method, path, body := ← c.optional 2 Call.text }

/-- Send a request, unless the budget is used up. -/
def sendRequest (c : Call) : Action Thing (List Value) := do
  let request ← requestOf c
  if ← Action.onServices (·.tryUse .networkCall) then
    count (← Action.onServices (·.send request))
  else return [.nil]

/-- Register the type of the network object. -/
def registerNetwork (r : Registry Thing) : Registry Thing :=
  let t : TypeEntry Thing := {}
  let t := t.describe "Sends requests to the host's backend on behalf of the package."
  r.register networkType (t.method "request"
    [[required "path" .string, optional "method" .string, optional "body" .string]]
    (on networkType Thing.service? fun c _ => sendRequest c))

end ScriptWarden.Api
