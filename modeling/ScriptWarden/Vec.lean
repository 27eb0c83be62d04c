set_option autoImplicit false

/-!
# Vectors

Positions, sizes and colours as scripts give them: three or four doubles.
-/

namespace ScriptWarden

/-- Three numbers. -/
structure Vec3 where
  x : Float
  y : Float
  z : Float
  deriving Inhabited

/-- Four numbers. -/
structure Vec4 where
  x : Float
  y : Float
  z : Float
  w : Float
  deriving Inhabited

namespace Vec3

/-- The same number three times. -/
def all (x : Float) : Vec3 := ⟨x, x, x⟩

/-- The components in order. -/
def toList (v : Vec3) : List Float := [v.x, v.y, v.z]

end Vec3

namespace Vec4

/-- The components in order. -/
def toList (v : Vec4) : List Float := [v.x, v.y, v.z, v.w]

end Vec4

end ScriptWarden
