import ScriptWarden.Api.Thing
set_option autoImplicit false

/-!
# API: particles

Showing a particle takes one unit of its budget and gives it a number under which the host knows it.
-/

namespace ScriptWarden.Api

open Bridge (Action Call Registry Signature TypeEntry optional required)
open Lua (Value)

/-- The type of the object that makes particles. -/
def particleMaker : String := "ParticleAPI"

/-- The type of particles. -/
def particleType : String := "Particle"

/-- What the host shows under a number. -/
def Particle.shown (p : Particle) (handle : Nat) : Host.Particle :=
  { handle, name := p.name, pos := p.pos, velocity := p.velocity, color := p.color
    lifetime := p.lifetime, power := p.power, scale := p.scale, gravity := p.gravity
    physics := p.physics }

/-- A method on a particle. -/
def onParticle (run : Call → Particle → Action Thing (List Value)) :
    Call → Action Thing (List Value) :=
  on particleType Thing.particle? run

/-- A setter of a particle. -/
def setParticle (change : Call → Particle → Except String Particle) :
    Call → Action Thing (List Value) :=
  onParticle fun c p => do
    put c (.particle (← change c p))
    c.self

/-- Show a particle, unless the budget is used up; one that is shown already goes first. -/
def spawnParticle (c : Call) (p : Particle) : Action Thing (List Value) := do
  if ← Action.onServices (·.tryUse .spawnParticle) then
    match p.handle with
    | some old => Action.edit (·.tell (.remove old))
    | none => pure ()
    let handle ← Action.onServices (·.takeHandle)
    Action.edit (·.tell (.spawn (p.shown handle)))
    put c (.particle { p with handle := some handle })
  c.self

/-- Take a particle away. -/
def removeParticle (c : Call) (p : Particle) : Action Thing (List Value) := do
  match p.handle with
  | some handle =>
    Action.edit (·.tell (.remove handle))
    put c (.particle { p with handle := none })
  | none => pure ()
  c.self

/-- A colour as a vector, or its numbers. -/
def colorOverloads : List Signature :=
  [[required "rgb" .vec3], [required "rgba" .vec4],
    [required "r" .number, required "g" .number, required "b" .number, optional "a" .number]]

/-- The colour of a call with those parameters. -/
def colorOf (c : Call) : Except String Vec4 :=
  match c.overload with
  | 0 => do return opaqueColor (← c.vec3 0)
  | 1 => c.vec4 0
  | _ => do
    return ⟨← c.num 0, ← c.num 1, ← c.num 2, (← c.optional 3 Call.num).getD 1⟩

/-- A name alone, or with a place. -/
def particleOverloads : List Signature :=
  [[required "name" .string], [required "name" .string, required "pos" .vec3],
    required "name" .string :: looseVec3]

/-- The place of a call with those parameters. -/
def particlePlace (c : Call) : Except String Vec3 :=
  match c.overload with
  | 0 => return .all 0
  | 1 => c.vec3 1
  | _ => do return ⟨← c.num 1, ← c.num 2, ← c.num 3⟩

/-- The longest life of a particle. -/
def longestLife : Int := 0x7FFFFFFF

/-- Register the types of particles. -/
def registerParticles (r : Registry Thing) (create : String → Thing → Action Thing Value) :
    Registry Thing :=
  let maker : TypeEntry Thing := {}
  let maker := maker.describe "Creates particles owned by this package."
  let maker := maker.method "newParticle" particleOverloads
    (on particleMaker Thing.service? fun c _ => do
      let name ← c.text 0
      let pos ← particlePlace c
      return [← create particleType (.particle { name, pos })])
  let t : TypeEntry Thing := {}
  let t := t.describe "A particle the package can configure and spawn."
  let t := t.method "spawn" [] (onParticle spawnParticle)
  let t := t.method "remove" [] (onParticle removeParticle)
  let t := t.method "isAlive" [] (onParticle fun _ p => truth p.handle.isSome)
  let t := t.method "getName" [] (onParticle fun _ p => text p.name)
  let t := t.method "getPos" [] (onParticle fun _ p => vector p.pos.toList)
  let t := t.methods ["setPos", "pos"] (vec3Overloads "pos") (setParticle fun c p => do
    return { p with pos := ← vec3Of c })
  let t := t.method "getVelocity" [] (onParticle fun _ p => vector p.velocity.toList)
  let t := t.methods ["setVelocity", "velocity"] (vec3Overloads "velocity")
    (setParticle fun c p => do return { p with velocity := ← vec3Of c })
  let t := t.method "getColor" [] (onParticle fun _ p => vector p.color.toList)
  let t := t.methods ["setColor", "color"] colorOverloads (setParticle fun c p => do
    return { p with color := clampColor (← colorOf c) })
  let t := t.method "getLifetime" [] (onParticle fun _ p =>
    return [.int (Int64.ofInt p.lifetime)])
  let t := t.methods ["setLifetime", "lifetime"] [[required "ticks" .integer]]
    (setParticle fun c p => do
      return { p with lifetime := min (max (← c.int 0).toInt 0) longestLife })
  let t := t.method "getPower" [] (onParticle fun _ p => number p.power)
  let t := t.methods ["setPower", "power"] (oneNumber "power") (setParticle fun c p => do
    return { p with power := ← c.num 0 })
  let t := t.method "getScale" [] (onParticle fun _ p => number p.scale)
  let t := t.methods ["setScale", "scale"] (oneNumber "scale") (setParticle fun c p => do
    return { p with scale := atLeast 0 (← c.num 0) })
  let t := t.method "getGravity" [] (onParticle fun _ p => number p.gravity)
  let t := t.methods ["setGravity", "gravity"] (oneNumber "gravity") (setParticle fun c p => do
    return { p with gravity := ← c.num 0 })
  let t := t.method "hasPhysics" [] (onParticle fun _ p => truth p.physics)
  let t := t.methods ["setPhysics", "physics"] (oneFlag "physics") (setParticle fun c p => do
    return { p with physics := ← c.bool 0 })
  (r.register particleMaker maker).register particleType t

end ScriptWarden.Api
