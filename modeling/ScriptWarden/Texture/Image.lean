import ScriptWarden.Text.Blank
import ScriptWarden.Texture.Color
import ScriptWarden.Texture.Region
set_option autoImplicit false

/-!
# Texture: images

An image is a row-major grid of colours with a name and a mark that says whether the host has yet to
see its pixels.
-/

namespace ScriptWarden.Texture

/-- Why an operation on images is refused. -/
inductive Fault where
  | outOfBounds (x y : Int) (width height : Nat)
  | invalidSize (width height : Int) (largest : Nat)
  | pixelCount (got expected : Nat)
  | exhausted (requested used limit : Nat)
  deriving DecidableEq, Repr

/-- The text of a refusal. -/
def Fault.message : Fault → String
  | .outOfBounds x y width height =>
    "pixel (" ++ toString x ++ ", " ++ toString y ++ ") is outside the " ++ toString width ++ "x"
      ++ toString height ++ " texture"
  | .invalidSize width height largest =>
    "texture size " ++ toString width ++ "x" ++ toString height ++ " is not within 1..="
      ++ toString largest
  | .pixelCount got expected =>
    "pixel data has " ++ toString got ++ " entries, expected " ++ toString expected
  | .exhausted requested used limit =>
    "texture memory exhausted: " ++ toString requested ++ " more pixel(s) requested, "
      ++ toString used ++ " of " ++ toString limit ++ " in use"

/-- A grid of colours. -/
structure Image where
  name : String
  width : Nat
  height : Nat
  pixels : Vector Color (width * height)
  /-- The host has not seen the pixels yet. -/
  dirty : Bool := true

namespace Image

/-- A transparent image. -/
def blank (name : String) (width height : Nat) : Image :=
  { name, width, height, pixels := .replicate _ .transparent }

instance : Inhabited Image := ⟨blank "" 0 0⟩

/-- An image of given pixels, row by row. -/
def ofPixels (name : String) (width height : Nat) (pixels : Array Color) : Except Fault Image :=
  if h : pixels.size = width * height then .ok { name, width, height, pixels := ⟨pixels, h⟩ }
  else .error (.pixelCount pixels.size (width * height))

/-- Number of pixels. -/
def area (i : Image) : Nat := i.width * i.height

/-- The pixel of two numbers. -/
def position (i : Image) (x y : Int) : Except Fault Position :=
  match Position.inside? x y i.width i.height with
  | some p => .ok p
  | none => .error (.outOfBounds x y i.width i.height)

/-- Where a pixel stands in row-major order. -/
def offset (i : Image) (p : Position) : Nat := p.y * i.width + p.x

/-- The colour of a pixel; transparent outside the image. -/
def pixel (i : Image) (p : Position) : Color :=
  if p.x < i.width then i.pixels[i.offset p]?.getD .transparent else .transparent

/-- Colour one pixel; one outside the image is passed over. -/
def paint (i : Image) (p : Position) (c : Color) : Image :=
  if p.x < i.width then { i with pixels := i.pixels.setIfInBounds (i.offset p) c } else i

/-- The colour at two numbers. -/
def get (i : Image) (x y : Int) : Except Fault Color := do
  return i.pixel (← i.position x y)

/-- Colour the pixel at two numbers. -/
def set (i : Image) (x y : Int) (c : Color) : Except Fault Image := do
  let p ← i.position x y
  return { i.paint p c with dirty := true }

/-- The largest coordinate there is; sums that pass it stop here, far outside every image. -/
def farthest : Int := 0x7FFFFFFFFFFFFFFF

/-- Colour the area of the given size whose first corner is `(x, y)`.  All of it must lie in the
image; an empty area changes nothing, wherever it is. -/
def fill (i : Image) (x y width height : Int) (c : Color) : Except Fault Image :=
  if width ≤ 0 ∨ height ≤ 0 then .ok i
  else do
    let farX := min (x + (width - 1)) farthest
    let farY := min (y + (height - 1)) farthest
    let _ ← i.position x y
    let _ ← i.position farX farY
    let cells := (Rect.ofCorners x y farX farY).clipped i.width i.height
    return { cells.foldl (fun i p => i.paint p c) i with dirty := true }

/-- Write a batch of edits; those outside the image are passed over.  Gives the number written. -/
def apply (i : Image) (edits : List (Position × Color)) : Nat × Image :=
  let written := edits.countP fun (p, _) => p.x < i.width && p.y < i.height
  let painted := edits.foldl
    (fun i (p, c) => if p.x < i.width && p.y < i.height then i.paint p c else i) i
  (written, { painted with dirty := true })

/-- The colours of each row. -/
def rows (i : Image) : List (List Color) :=
  (List.range i.height).map fun y => (List.range i.width).map fun x => i.pixel ⟨x, y⟩

/-- How an image is shown: its name, unless that is blank. -/
def caption (i : Image) : String :=
  if Text.allBlank i.name then "Texture" else i.name ++ " (Texture)"

end Image

end ScriptWarden.Texture
