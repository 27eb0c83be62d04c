import Std.Data.ExtTreeMap
set_option autoImplicit false

/-!
# Texture: positions and rectangles

Positions are ordered row by row.  A rectangle includes its corners, which may be given in any order
and may lie outside every image.
-/

namespace ScriptWarden.Texture

/-- A pixel coordinate. -/
structure Position where
  x : Nat
  y : Nat
  deriving DecidableEq, Repr, Inhabited

namespace Position

/-- Rows first. -/
instance : Ord Position := ⟨compareLex (compareOn Position.y) (compareOn Position.x)⟩

instance : Std.TransOrd Position :=
  inferInstanceAs (Std.TransCmp (compareLex (compareOn Position.y) (compareOn Position.x)))

instance : Std.LawfulEqOrd Position where
  eq_of_compare {a b} h := by
    have both : compareOn Position.y a b = .eq ∧ compareOn Position.x a b = .eq :=
      compareLex_eq_eq.1 h
    obtain ⟨ax, ay⟩ := a
    obtain ⟨bx, bY⟩ := b
    have hy : ay = bY := Std.LawfulEqOrd.eq_of_compare both.1
    have hx : ax = bx := Std.LawfulEqOrd.eq_of_compare both.2
    rw [hx, hy]

/-- The pixel of two numbers, if an image of the given size has it. -/
def inside? (x y : Int) (width height : Nat) : Option Position :=
  if 0 ≤ x ∧ 0 ≤ y ∧ x < width ∧ y < height then some ⟨x.toNat, y.toNat⟩ else none

end Position

/-- A rectangle with its corners. -/
structure Rect where
  minX : Int
  minY : Int
  maxX : Int
  maxY : Int
  deriving DecidableEq, Repr, Inhabited

namespace Rect

/-- The rectangle of two opposite corners. -/
def ofCorners (x₁ y₁ x₂ y₂ : Int) : Rect :=
  ⟨min x₁ x₂, min y₁ y₂, max x₁ x₂, max y₁ y₂⟩

/-- Does the position lie in the rectangle? -/
def contains (r : Rect) (p : Position) : Bool :=
  r.minX ≤ p.x && p.x ≤ r.maxX && r.minY ≤ p.y && p.y ≤ r.maxY

/-- The numbers from `low` to `high` below `size`. -/
def span (low high : Int) (size : Nat) : List Nat :=
  let first := low.toNat
  let past := min (high + 1).toNat size
  List.range' first (past - first)

/-- The positions of the rectangle that an image of the given size has, row by row. -/
def clipped (r : Rect) (width height : Nat) : List Position :=
  let columns := span r.minX r.maxX width
  (span r.minY r.maxY height).flatMap fun y => columns.map fun x => ⟨x, y⟩

/-- One term of the equation of an ellipse; a radius of zero adds nothing. -/
def ellipseTerm (distance radius : Float) : Float :=
  if radius == 0 then 0 else (distance / radius) * (distance / radius)

/-- Does the ellipse inscribed in the rectangle hold the point?  Its border belongs to it. -/
def ellipseContains (r : Rect) (x y : Int) : Bool :=
  let minX := Float.ofInt r.minX
  let maxX := Float.ofInt r.maxX
  let minY := Float.ofInt r.minY
  let maxY := Float.ofInt r.maxY
  let centreX := minX / 2 + maxX / 2
  let centreY := minY / 2 + maxY / 2
  let radiusX := (maxX - minX) / 2
  let radiusY := (maxY - minY) / 2
  ellipseTerm (Float.ofInt x - centreX) radiusX + ellipseTerm (Float.ofInt y - centreY) radiusY
    ≤ 1 + 1e-9

/-- The positions of the inscribed ellipse that an image of the given size has, row by row. -/
def clippedEllipse (r : Rect) (width height : Nat) : List Position :=
  (r.clipped width height).filter fun p => r.ellipseContains p.x p.y

end Rect

end ScriptWarden.Texture
