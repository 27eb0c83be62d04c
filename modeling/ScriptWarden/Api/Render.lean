import ScriptWarden.Api.Thing
set_option autoImplicit false

/-!
# API: the renderer

A package may replace textures of its owner's model if trust allows it.
-/

namespace ScriptWarden.Api

open Bridge (Action Call Registry TypeEntry optional required)
open Lua (Value)

/-- The type of the renderer. -/
def renderType : String := "RenderAPI"

/-- The texture that a call replaces, and what it puts there. -/
def overrideOf (c : Call) : Except String (Host.OverrideKind × Option String) := do
  let raw ← c.text 0
  match Host.OverrideKind.ofName? raw with
  | none =>
    let known := ", ".intercalate (Host.OverrideKind.all.map (·.name))
    c.fail ("unknown override kind '" ++ raw ++ "' (expected one of " ++ known ++ ")")
  | some kind =>
    let value ← c.optional 1 Call.text
    if kind.takesValue && value.isNone then
      c.fail ("override kind " ++ kind.name ++ " needs a texture name")
    return (kind, if kind.takesValue then value else none)

/-- Replace a texture of the owner's model; says whether that was allowed. -/
def setTextureOverride (c : Call) : Action Thing (List Value) := do
  let (kind, value) ← overrideOf c
  if ← Action.onServices (·.check c.policy .renderOverride 1) then
    Action.edit (·.tell (.override kind value))
    truth true
  else truth false

/-- Register the type of the renderer. -/
def registerRender (r : Registry Thing) : Registry Thing :=
  let t : TypeEntry Thing := {}
  let t := t.describe "Overrides textures rendered on the owner's model."
  r.register renderType (t.method "setTextureOverride"
    [[required "kind" .string, optional "value" .string]]
    (on renderType Thing.service? fun c _ => setTextureOverride c))

end ScriptWarden.Api
