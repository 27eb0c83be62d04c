import ScriptWarden.Api.Thing
set_option autoImplicit false

/-!
# API: images

Pixels written to an image are there at once.  A draft gathers edits that show only when it is committed
or applied.
-/

namespace ScriptWarden.Api

open Bridge (Action Call Param Registry Signature TypeEntry optional required)
open Lua (Value)
open Texture (Color Gallery Image Rect)

/-- The type of the object that makes images. -/
def textureMaker : String := "TextureAPI"

/-- The type of images. -/
def textureType : String := "Texture"

/-- The type of drafts. -/
def draftType : String := "TextureEditContext"

/-! ## Access -/

/-- A method on an image. -/
def onTexture (run : Call → Nat → Action Thing (List Value)) : Call → Action Thing (List Value) :=
  on textureType Thing.texture? run

/-- A method on a draft. -/
def onDraft (run : Call → Nat → Action Thing (List Value)) : Call → Action Thing (List Value) :=
  on draftType Thing.draft? run

/-- The image of a number. -/
def imageOf (id : Nat) : Action Thing Image :=
  Action.look fun s => (s.gallery.image? id).getD default

/-- A result, or a failure on behalf of the method. -/
def orFail {α : Type} (c : Call) : Except Texture.Fault α → Except String α
  | .ok a => .ok a
  | .error e => c.fail e.message

/-- Change the gallery. -/
def onGallery {α : Type} (f : Gallery → α × Gallery) : Action Thing α :=
  Action.onServices fun s =>
    let (a, gallery) := f s.gallery
    (a, { s with gallery })

/-- Change the services, unless that is refused. -/
def tryServices {α : Type} (c : Call) (f : Services → Except Texture.Fault (α × Services)) :
    Action Thing α := do
  let (a, s) ← orFail c (f (← Action.look id))
  Action.edit fun _ => s
  return a

/-- Change the gallery, unless that is refused. -/
def tryGallery {α : Type} (c : Call) (f : Gallery → Except Texture.Fault (α × Gallery)) :
    Action Thing α :=
  tryServices c fun s => do
    let (a, gallery) ← f s.gallery
    return (a, { s with gallery })

/-! ## Parameters -/

/-- Whole numbers. -/
def integers (names : List String) : List Param := names.map fun name => required name .integer

/-- A pixel and a colour: a vector of three or four numbers, or the numbers. -/
def pixelOverloads : List Signature :=
  [integers ["x", "y"] ++ [required "rgb" .vec3], integers ["x", "y"] ++ [required "rgba" .vec4],
    integers ["x", "y"] ++ [required "r" .number, required "g" .number, required "b" .number,
      optional "a" .number]]

/-- The colour of a call with those parameters. -/
def pixelColor (c : Call) : Except String Color :=
  match c.overload with
  | 0 => do return .ofUnit (opaqueColor (← c.vec3 2))
  | 1 => do return .ofUnit (← c.vec4 2)
  | _ => do
    let r ← c.num 2
    let g ← c.num 3
    let b ← c.num 4
    return .ofUnit ⟨r, g, b, (← c.optional 5 Call.num).getD 1⟩

/-- A colour and a rectangle: its corners, or a vector of them. -/
def regionOverloads : List Signature :=
  let corners := integers ["x1", "y1", "x2", "y2"]
  [required "rgb" .vec3 :: corners, required "rgba" .vec4 :: corners,
    [required "rgb" .vec3, required "rect" .vec4], [required "rgba" .vec4, required "rect" .vec4]]

/-- The rectangle with the corners of a vector. -/
def rectOf (v : Vec4) : Rect :=
  .ofCorners v.x.toInt64.toInt v.y.toInt64.toInt v.z.toInt64.toInt v.w.toInt64.toInt

/-- The rectangle whose corners are arguments from `first` on. -/
def cornersOf (c : Call) (first : Nat) : Except String Rect := do
  let x₁ ← c.int first
  let y₁ ← c.int (first + 1)
  let x₂ ← c.int (first + 2)
  let y₂ ← c.int (first + 3)
  return .ofCorners x₁.toInt y₁.toInt x₂.toInt y₂.toInt

/-- The colour and the rectangle of a call. -/
def regionOf (c : Call) : Except String (Color × Rect) := do
  let unit ←
    if c.overload = 0 ∨ c.overload = 2 then do pure (opaqueColor (← c.vec3 0)) else c.vec4 0
  let rect ←
    if c.overload = 0 ∨ c.overload = 1 then cornersOf c 1 else do pure (rectOf (← c.vec4 1))
  return (.ofUnit unit, rect)

/-! ## Images -/

/-- A new object for an image, which holds it. -/
def textureObject (create : String → Thing → Action Thing Value) (id : Nat) :
    Action Thing (List Value) := do
  onGallery fun g => ((), g.hold id)
  return [← create textureType (.texture id)]

/-- Look an image up. -/
def findTexture (create : String → Thing → Action Thing Value) (c : Call) :
    Action Thing (List Value) := do
  let name ← c.text 0
  match ← Action.look fun s => s.textures[name]? with
  | some id => textureObject create id
  | none => return [.nil]

/-- Make an image. -/
def newTexture (create : String → Thing → Action Thing Value) (c : Call) :
    Action Thing (List Value) := do
  let name ← c.text 0
  let width := (← c.int 1).toInt
  let height := (← c.int 2).toInt
  let most ← Action.look fun s => s.limits.textureSize
  let fits (n : Int) : Bool := 1 ≤ n ∧ n ≤ most
  if !fits width || !fits height then c.fail (Texture.Fault.invalidSize width height most).message
  let id ← tryServices c (·.createTexture name width.toNat height.toNat)
  textureObject create id

/-- The names of images, as a list. -/
def listTextures : Action Thing (List Value) := do
  let names ← Action.look fun s => s.textures.keys
  return [.table (← Action.onHeap fun h => h.newList (names.map Value.text))]

/-- Colour one pixel. -/
def setTexturePixel (c : Call) (id : Nat) : Action Thing (List Value) := do
  let x ← c.int 0
  let y ← c.int 1
  let color ← pixelColor c
  let image ← orFail c ((← imageOf id).set x.toInt y.toInt color)
  onGallery fun g => ((), g.editImage id fun _ => image)
  c.self

/-- A place, a size and a colour. -/
def fillOverloads : List Signature :=
  let area := integers ["x", "y", "width", "height"]
  [area ++ [required "rgb" .vec3], area ++ [required "rgba" .vec4]]

/-- Colour an area. -/
def fillTexture (c : Call) (id : Nat) : Action Thing (List Value) := do
  let unit ← if c.overload = 0 then do pure (opaqueColor (← c.vec3 4)) else c.vec4 4
  let x ← c.int 0
  let y ← c.int 1
  let width ← c.int 2
  let height ← c.int 3
  let image ← orFail c
    ((← imageOf id).fill x.toInt y.toInt width.toInt height.toInt (.ofUnit unit))
  onGallery fun g => ((), g.editImage id fun _ => image)
  c.self

/-- Write the edits of a draft on the same image. -/
def applyToTexture (c : Call) (id : Nat) : Action Thing (List Value) := do
  let (_, draft) ← c.object 0 Thing.draft?
  let target ← Action.look fun s => (s.gallery.drafts[draft]?).map (·.target)
  if target ≠ some id then c.fail "context belongs to a different texture"
  count (← onGallery fun g => g.applyDraft draft id)

/-! ## Drafts -/

/-- The colour of a pixel, committed or pending. -/
def readDraft (c : Call) (draft : Nat) : Action Thing (List Value) := do
  let x ← c.int 0
  let y ← c.int 1
  let prefer := (← c.optional 2 Call.bool).getD false
  let color ← orFail c ((← Action.look (·.gallery)).read draft x.toInt y.toInt prefer)
  vector color.toUnit.toList

/-- Queue a pixel. -/
def queuePixel (c : Call) (draft : Nat) : Action Thing (List Value) := do
  let x ← c.int 0
  let y ← c.int 1
  let color ← pixelColor c
  tryGallery c fun g => do return ((), ← g.queueCell draft x.toInt y.toInt color)
  c.self

/-- Drop a pending pixel. -/
def cancelPixel (c : Call) (draft : Nat) : Action Thing (List Value) := do
  let x ← c.int 0
  let y ← c.int 1
  truth (← onGallery fun g => g.cancel draft x.toInt y.toInt)

/-- Drop the pending pixels of a rectangle. -/
def cancelRegion (c : Call) (draft : Nat) : Action Thing (List Value) := do
  let rect ← if c.overload = 0 then cornersOf c 0 else do pure (rectOf (← c.vec4 0))
  count (← onGallery fun g => g.cancelRect draft rect)

/-- Queue the pixels of a region. -/
def queueRegion (queue : Gallery → Nat → Rect → Color → Except Texture.Fault (Nat × Gallery))
    (c : Call) (draft : Nat) : Action Thing (List Value) := do
  let (color, rect) ← regionOf c
  count (← tryGallery c fun g => queue g draft rect color)

/-- A field with a measure of the image of a draft. -/
def draftMeasure (measure : Image → Nat) (state : Nat) : Action Thing Value := do
  let draft ← thing draftType state Thing.draft?
  let image ← Action.look fun s => s.gallery.target? draft
  return .nat (image.map measure |>.getD 0)

/-- Register the types of images. -/
def registerTextures (r : Registry Thing) (create : String → Thing → Action Thing Value) :
    Registry Thing :=
  let maker : TypeEntry Thing := {}
  let maker := maker.describe "Looks up and creates package textures."
  let maker := maker.method "get" (oneText "name")
    (on textureMaker Thing.service? fun c _ => findTexture create c)
  let maker := maker.method "newTexture" [required "name" .string :: integers ["width", "height"]]
    (on textureMaker Thing.service? fun c _ => newTexture create c)
  let maker := maker.method "list" [] (on textureMaker Thing.service? fun _ _ => listTextures)
  let t : TypeEntry Thing := {}
  let t := t.describe "An RGBA image owned by the package."
  let t := t.method "getName" [] (onTexture fun _ id => do text (← imageOf id).name)
  let t := t.method "getDimensions" [] (onTexture fun _ id => do
    let image ← imageOf id
    return [.nat image.width, .nat image.height])
  let t := t.method "getPixel" [integers ["x", "y"]] (onTexture fun c id => do
    let x ← c.int 0
    let y ← c.int 1
    vector (← orFail c ((← imageOf id).get x.toInt y.toInt)).toUnit.toList)
  let t := t.method "setPixel" pixelOverloads (onTexture setTexturePixel)
  let t := t.method "fill" fillOverloads (onTexture fillTexture)
  let t := t.method "createContext" [] (onTexture fun _ id => do
    let draft ← onGallery fun g => g.openDraft id
    return [← create draftType (.draft draft)])
  let t := t.method "apply" [[required "context" (.object draftType)]] (onTexture applyToTexture)
  let d : TypeEntry Thing := {}
  let d := d.describe
    ("Pending pixel edits over one texture; nothing is visible until commit. " ++
      "getPixelAt reads the committed pixel unless preferUncommitted is true.")
  let d := d.field "width" .integer (draftMeasure (·.width))
  let d := d.field "height" .integer (draftMeasure (·.height))
  let d := d.method "getPixelAt" [integers ["x", "y"] ++ [optional "preferUncommitted" .boolean]]
    (onDraft readDraft)
  let d := d.method "setPixelAt" pixelOverloads (onDraft queuePixel)
  let d := d.method "cancelChangeAt" [integers ["x", "y"]] (onDraft cancelPixel)
  let d := d.method "cancelChangesIn"
    [integers ["x1", "y1", "x2", "y2"], [required "rect" .vec4]] (onDraft cancelRegion)
  let d := d.method "fillRect" regionOverloads (onDraft (queueRegion Gallery.queueRect))
  let d := d.method "fillEllipse" regionOverloads (onDraft (queueRegion Gallery.queueEllipse))
  let d := d.method "pendingCount" [] (onDraft fun _ draft => do
    count (← Action.look fun s => (s.gallery.drafts[draft]?).map (·.pending.size) |>.getD 0))
  let d := d.method "commit" [] (onDraft fun _ draft => do
    count (← onGallery fun g => g.commit draft))
  ((r.register textureMaker maker).register textureType t).register draftType d

end ScriptWarden.Api
