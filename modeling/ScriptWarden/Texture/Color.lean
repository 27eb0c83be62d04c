import ScriptWarden.Vec
set_option autoImplicit false

/-!
# Texture: colours

Four channels of eight bits.  Scripts speak of them as numbers from zero to one.
-/

namespace ScriptWarden.Texture

/-- Red, green, blue and opacity. -/
structure Color where
  r : UInt8
  g : UInt8
  b : UInt8
  a : UInt8
  deriving DecidableEq, Repr, Inhabited

namespace Color

/-- What every pixel of a new image is. -/
def transparent : Color := ⟨0, 0, 0, 0⟩

/-- A number from zero to one as a channel: outside values are moved to the nearer end, a half is
rounded up, and what is no number gives zero. -/
def channel (v : Float) : UInt8 :=
  let clamped := if v < 0 then 0 else if 1 < v then 1 else v
  (clamped * 255).round.toUInt8

/-- The colour of four numbers from zero to one. -/
def ofUnit (v : Vec4) : Color := ⟨channel v.x, channel v.y, channel v.z, channel v.w⟩

/-- The channels as numbers from zero to one. -/
def toUnit (c : Color) : Vec4 :=
  ⟨c.r.toFloat / 255, c.g.toFloat / 255, c.b.toFloat / 255, c.a.toFloat / 255⟩

/-- The channels in one number of 32 bits, red on top. -/
def packed (c : Color) : Nat :=
  ((c.r.toNat * 256 + c.g.toNat) * 256 + c.b.toNat) * 256 + c.a.toNat

/-- The colour of a number of 32 bits, red on top. -/
def unpack (n : Nat) : Color :=
  ⟨(n / 0x1000000).toUInt8, (n / 0x10000).toUInt8, (n / 0x100).toUInt8, n.toUInt8⟩

/-- The two digits of a channel. -/
def hexPair (n : UInt8) : List Char :=
  [Nat.digitChar (n.toNat / 16), Nat.digitChar (n.toNat % 16)]

/-- Eight hexadecimal digits, red first. -/
def hex (c : Color) : String :=
  String.ofList (hexPair c.r ++ hexPair c.g ++ hexPair c.b ++ hexPair c.a)

/-- The channels, red first. -/
def channels (c : Color) : List UInt8 := [c.r, c.g, c.b, c.a]

end Color

end ScriptWarden.Texture
