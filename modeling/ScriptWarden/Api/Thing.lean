import ScriptWarden.Bridge.Registry
set_option autoImplicit false

/-!
# API: the things behind objects

What an object that a script holds stands for.
-/

namespace ScriptWarden.Api

open Bridge (Action Call)
open Lua (Value)

/-- A sound that a package can position and play. -/
structure Sound where
  id : String
  pos : Vec3 := .all 0
  volume : Float := 1
  pitch : Float := 1
  looping : Bool := false
  attenuation : Float := 1
  playing : Bool := false
  paused : Bool := false
  deriving Inhabited

/-- A particle that a package can configure and show. -/
structure Particle where
  name : String
  /-- The number under which the host shows it. -/
  handle : Option Nat := none
  pos : Vec3
  velocity : Vec3 := .all 0
  color : Vec4 := ⟨1, 1, 1, 1⟩
  lifetime : Int := 20
  power : Float := 0
  scale : Float := 1
  gravity : Float := 1
  physics : Bool := true
  deriving Inhabited

/-- What an object stands for. -/
inductive Thing where
  /-- One of the global objects, which have no state of their own. -/
  | service
  | sound (s : Sound)
  | particle (p : Particle)
  /-- An image, by its number. -/
  | texture (id : Nat)
  /-- Pending edits of an image, by their number. -/
  | draft (id : Nat)
  deriving Inhabited

namespace Thing

/-- One of the global objects. -/
def service? : Thing → Option Unit
  | .service => some ()
  | _ => none

/-- A sound. -/
def sound? : Thing → Option Sound
  | .sound s => some s
  | _ => none

/-- A particle. -/
def particle? : Thing → Option Particle
  | .particle p => some p
  | _ => none

/-- The number of an image. -/
def texture? : Thing → Option Nat
  | .texture id => some id
  | _ => none

/-- The number of pending edits. -/
def draft? : Thing → Option Nat
  | .draft id => some id
  | _ => none

end Thing

/-- The services of a package whose objects are these things. -/
abbrev Services := Package.Services Thing

/-- The thing of a state, seen as what a type stands for. -/
def thing {α : Type} (type : String) (state : Nat) (view : Thing → Option α) : Action Thing α := do
  match (← Action.look fun s => s.states[state]?).bind view with
  | some a => return a
  | none => Action.fail ("corrupt " ++ type ++ " object")

/-- A method on what a type stands for. -/
def on {α : Type} (type : String) (view : Thing → Option α)
    (run : Call → α → Action Thing (List Value)) : Call → Action Thing (List Value) :=
  fun c => do run c (← thing type c.state view)

/-- Change what an object stands for. -/
def put (c : Call) (t : Thing) : Action Thing Unit :=
  Action.edit fun s => { s with states := s.states.setIfInBounds c.state t }

/-! ## Results -/

/-- Numbers under the names of components. -/
def vector (xs : List Float) : Action Thing (List Value) := do
  let entries := Bridge.componentNames.zip xs
  let t : Lua.Table := entries.foldl (fun t (name, x) => t.setText name (.float x)) {}
  return [.table (← Action.onHeap fun h => h.newTable t)]

/-- A truth value. -/
def truth (b : Bool) : Action Thing (List Value) := return [.bool b]

/-- A number. -/
def number (x : Float) : Action Thing (List Value) := return [.float x]

/-- A whole number; one beyond the integers is given as a double. -/
def wordValue (n : Nat) : Value := if n < 0x8000000000000000 then .nat n else .float (Float.ofNat n)

/-- A whole number. -/
def count (n : Nat) : Action Thing (List Value) := return [wordValue n]

/-- A text. -/
def text (s : String) : Action Thing (List Value) := return [.text s]

/-! ## Shared parameters -/

/-- Three numbers, loose. -/
def looseVec3 : Bridge.Signature :=
  [Bridge.required "x" .number, Bridge.required "y" .number, Bridge.required "z" .number]

/-- A vector, or its three numbers. -/
def vec3Overloads (name : String) : List Bridge.Signature :=
  [[Bridge.required name .vec3], looseVec3]

/-- The vector of a call with those parameters. -/
def vec3Of (c : Call) : Except String Vec3 :=
  if c.overload = 0 then c.vec3 0
  else do return ⟨← c.num 0, ← c.num 1, ← c.num 2⟩

/-- One number. -/
def oneNumber (name : String) : List Bridge.Signature := [[Bridge.required name .number]]

/-- One truth value. -/
def oneFlag (name : String) : List Bridge.Signature := [[Bridge.required name .boolean]]

/-- One text. -/
def oneText (name : String) : List Bridge.Signature := [[Bridge.required name .string]]

/-- A number between two others; what is no number stays. -/
def clamp (low high x : Float) : Float := if x < low then low else if high < x then high else x

/-- A number that is at least another; what is no number gives the other. -/
def atLeast (low x : Float) : Float := if x.isNaN then low else if x < low then low else x

/-- Opaque if nothing is said. -/
def opaqueColor (v : Vec3) : Vec4 := ⟨v.x, v.y, v.z, 1⟩

/-- A colour with every component between none and all. -/
def clampColor (v : Vec4) : Vec4 := ⟨clamp 0 1 v.x, clamp 0 1 v.y, clamp 0 1 v.z, clamp 0 1 v.w⟩

end ScriptWarden.Api
