import ScriptWarden.Host.Completion
import ScriptWarden.Texture.Image
import ScriptWarden.Vec
set_option autoImplicit false

/-!
# Host: calls

Everything that a package can make the host do.  The library records calls in the order in which it
makes them; whoever embeds it carries them out.
-/

namespace ScriptWarden.Host

/-- A sound to start.  The volume is already scaled by what the owner is trusted with. -/
structure Playback where
  sound : String
  pos : Vec3
  volume : Float
  pitch : Float
  looping : Bool
  attenuation : Float
  deriving Inhabited

/-- A particle to show. -/
structure Particle where
  handle : Nat
  name : String
  pos : Vec3
  velocity : Vec3
  color : Vec4
  lifetime : Int
  power : Float
  scale : Float
  gravity : Float
  physics : Bool
  deriving Inhabited

/-- A request to the backend. -/
structure Request where
  method : String
  path : String
  body : Option String
  deriving DecidableEq, Repr, Inhabited

/-- The parts of the owner's model whose texture a package may override. -/
inductive OverrideKind where
  | skin
  | cape
  | elytra
  | resource
  | primary
  | secondary
  | custom
  deriving DecidableEq, Repr, Inhabited

namespace OverrideKind

/-- Every kind, in declared order. -/
def all : List OverrideKind :=
  [.skin, .cape, .elytra, .resource, .primary, .secondary, .custom]

/-- The name of a kind. -/
def name : OverrideKind → String
  | .skin => "SKIN"
  | .cape => "CAPE"
  | .elytra => "ELYTRA"
  | .resource => "RESOURCE"
  | .primary => "PRIMARY"
  | .secondary => "SECONDARY"
  | .custom => "CUSTOM"

/-- The kind of a name; the case of ASCII letters does not matter. -/
def ofName? (s : String) : Option OverrideKind :=
  let upper := s.map Char.toUpper
  all.find? fun k => k.name == upper

/-- Does a texture name go with the kind? -/
def takesValue : OverrideKind → Bool
  | .resource | .custom => true
  | _ => false

end OverrideKind

/-- What a package has made of its owner's nameplate. -/
structure Nameplate where
  text : Option String := none
  visible : Bool := true
  shadow : Bool := false
  outline : Bool := false
  pos : Vec3 := .all 0
  scale : Vec3 := .all 1
  /-- `none` keeps the host's own. -/
  background : Option Vec4 := none
  deriving Inhabited

/-- One thing the host is told to do. -/
inductive Call where
  | play (sound : Playback)
  | stop (sound : String)
  | pause (sound : String)
  | spawn (particle : Particle)
  | remove (handle : Nat)
  | upload (image : Texture.Image)
  | override (kind : OverrideKind) (value : Option String)
  | nameplate (state : Nameplate)
  | request (token : Token) (request : Request)
  deriving Inhabited

end ScriptWarden.Host
