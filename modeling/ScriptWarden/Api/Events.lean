import ScriptWarden.Api.Thing
import ScriptWarden.Event
set_option autoImplicit false

/-!
# API: events

A package registers functions for the events of the host.  They are called in the order in which they
were registered.
-/

namespace ScriptWarden.Api

open Bridge (Action Call Registry TypeEntry required)
open Lua (Value)

/-- The type of the events object. -/
def eventsType : String := "EventsAPI"

/-- The functions registered for an event. -/
def callbacksOf {κ : Type} (s : Package.Services κ) (name : String) : List Value :=
  s.callbacks[name]?.getD []

/-- The name of an event, which must exist. -/
def eventOf (c : Call) : Except String String := do
  let name ← c.text 0
  if !Event.names.contains name then c.fail ("unknown event '" ++ name ++ "'")
  return name

/-- Register the type of the events object. -/
def registerEvents (r : Registry Thing) : Registry Thing :=
  let t : TypeEntry Thing := {}
  let t := t.describe "Subscribes package functions to host events."
  let t := t.method "register" [[required "name" .string, required "callback" .function]]
    (on eventsType Thing.service? fun c _ => do
      let name ← eventOf c
      let f ← c.function 1
      Action.edit fun s => { s with callbacks := s.callbacks.insert name (callbacksOf s name ++ [f]) }
      c.self)
  let t := t.method "clear" (oneText "name") (on eventsType Thing.service? fun c _ => do
    let name ← eventOf c
    Action.edit fun s => { s with callbacks := s.callbacks.erase name }
    c.self)
  let t := t.method "count" (oneText "name") (on eventsType Thing.service? fun c _ => do
    let name ← c.text 0
    count (← Action.look fun s => (callbacksOf s name).length))
  r.register eventsType t

end ScriptWarden.Api
