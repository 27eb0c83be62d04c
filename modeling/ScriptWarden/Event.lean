import ScriptWarden.Json.Decode
import ScriptWarden.Trust.Capability
set_option autoImplicit false

/-!
# Events

What the host tells a package.  Every event has a name under which scripts register, and is paid for
out of the instructions of one phase.
-/

namespace ScriptWarden

open Json (Value Members)
open Trust (Capability)

/-- The three kinds of work that instructions are counted for. -/
inductive Phase where
  | init
  | tick
  | render
  deriving DecidableEq, Repr, Inhabited

namespace Phase

/-- The name of a phase. -/
def name : Phase → String
  | .init => "init"
  | .tick => "tick"
  | .render => "render"

/-- The capability that limits a phase. -/
def capability : Phase → Capability
  | .init => .initInstructions
  | .tick => .tickInstructions
  | .render => .renderInstructions

end Phase

/-- Something that happened on the host. -/
inductive Event where
  | tick
  /-- One frame; `delta` is how much of a tick has passed. -/
  | render (delta : Float)
  | networkResponse (id status : Nat) (body : String)
  deriving Inhabited

namespace Event

/-- The name that scripts register under. -/
def name : Event → String
  | .tick => "tick"
  | .render _ => "render"
  | .networkResponse .. => "network_response"

/-- Every name. -/
def names : List String := ["tick", "render", "network_response"]

/-- The phase that pays for an event. -/
def phase : Event → Phase
  | .render _ => .render
  | .tick | .networkResponse .. => .tick

/-- The event of a type name and the members of a record. -/
def ofMembers? (type : String) (fields : Value) : Option Event :=
  if type = "tick" then
    match fields with
    | .array (_ :: _) => none
    | _ => some .tick
  else if type = "render" then do
    let m ← Members.ofValue? ["delta"] fields
    return .render (← m.need "delta" Value.float?)
  else if type = "network_response" then do
    let m ← Members.ofValue? ["id", "status", "body"] fields
    return .networkResponse (← m.need "id" (Value.word? 64)) (← m.need "status" (Value.word? 16))
      (← m.need "body" Value.string?)
  else none

/-- Deepest nesting of an event's text. -/
def deepest : Nat := 127

/-- Read an event: an object with a member `type` and the members of that type, or a list that
starts with the type.  Unlike other records, members that nobody asks for must be well formed. -/
def ofJson? (v : Value) : Option Event :=
  if v.wellFormed && v.depth ≤ deepest then
    match v with
    | .object fields =>
      if Json.keyCount "type" fields = 1 then do
        let (_, type) ← fields.find? fun (k, _) => k == some "type"
        ofMembers? (← type.string?) (.object (fields.filter fun (k, _) => k != some "type"))
      else none
    | .array (type :: rest) => do ofMembers? (← type.string?) (.array rest)
    | _ => none
  else none

end Event

end ScriptWarden
