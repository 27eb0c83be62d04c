import ScriptWarden.Api.Events
import ScriptWarden.Api.Nameplate
import ScriptWarden.Api.Network
import ScriptWarden.Api.Particle
import ScriptWarden.Api.Render
import ScriptWarden.Api.Sound
import ScriptWarden.Api.Texture
set_option autoImplicit false

/-!
# API: the surface

Every type that scripts can meet, and the global objects they start from.
-/

namespace ScriptWarden.Api

open Bridge (Action Registry)
open Lua (Value)

/-- A new object of one of the types below. -/
def create (type : String) (t : Thing) : Action Thing Value := do
  let state ← Action.onServices fun s => s.newState t
  Action.onServices fun s => s.newObject ⟨type, state⟩

/-- The closed set of types. -/
def surface : Registry Thing :=
  let r : Registry Thing := {}
  let r := registerSounds r create
  let r := registerParticles r create
  let r := registerTextures r create
  let r := registerNameplate r
  let r := registerRender r
  let r := registerNetwork r
  registerEvents r

/-- Global objects and their types. -/
def globalObjects : List (String × String) :=
  [("sounds", soundMaker), ("particles", particleMaker), ("textures", textureMaker),
    ("nameplate", nameplateType), ("renderer", renderType), ("net", networkType),
    ("events", eventsType)]

end ScriptWarden.Api
