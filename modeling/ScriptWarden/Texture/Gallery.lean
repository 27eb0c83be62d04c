import ScriptWarden.Texture.Image
set_option autoImplicit false

/-!
# Texture: the gallery

A gallery keeps every image and every draft of one package and the account of the pixels they hold.
A *draft* is a set of pending edits of one image; nothing reaches the image until the draft is
committed.  A *charged* image pays for its pixels as long as it lives, and each pending cell of a
draft on it pays for one more.  An image lives while somebody holds it or a draft is open on it.
-/

namespace ScriptWarden.Texture

/-- Pending edits of one image. -/
structure Draft where
  target : Nat
  pending : Std.ExtTreeMap Position Color := ∅

/-- An image and who keeps it alive. -/
structure Slot where
  image : Image
  /-- Do its pixels count against the allowance? -/
  charged : Bool
  /-- Holders other than drafts. -/
  holders : Nat

/-- Images, drafts and the pixels they hold out of an allowance. -/
structure Gallery where
  limit : Nat
  used : Nat := 0
  slots : Std.ExtTreeMap Nat Slot := ∅
  drafts : Std.ExtTreeMap Nat Draft := ∅
  next : Nat := 0

namespace Gallery

/-- A gallery without images. -/
def empty (limit : Nat) : Gallery := { limit }

instance : Inhabited Gallery := ⟨empty 0⟩

/-! ## The account -/

/-- Take pixels from the allowance, or nothing when they do not fit. -/
def reserve (g : Gallery) (pixels : Nat) : Except Fault Gallery :=
  if g.used + pixels ≤ g.limit then .ok { g with used := g.used + pixels }
  else .error (.exhausted pixels g.used g.limit)

/-- Give pixels back. -/
def refund (g : Gallery) (pixels : Nat) : Gallery := { g with used := g.used - pixels }

/-! ## Images -/

/-- The image of a number. -/
def image? (g : Gallery) (id : Nat) : Option Image := g.slots[id]?.map (·.image)

/-- Change an image. -/
def editImage (g : Gallery) (id : Nat) (f : Image → Image) : Gallery :=
  { g with slots := g.slots.modify id fun s => { s with image := f s.image } }

/-- Put an image in, with one holder. -/
def insert (g : Gallery) (image : Image) (charged : Bool) : Nat × Gallery :=
  (g.next, { g with
    slots := g.slots.insert g.next { image, charged, holders := 1 }
    next := g.next + 1 })

/-- A transparent image that pays for its pixels. -/
def create (g : Gallery) (name : String) (width height : Nat) : Except Fault (Nat × Gallery) := do
  let g ← g.reserve (width * height)
  return g.insert (.blank name width height) true

/-- Is a draft open on the image? -/
def isDrafted (g : Gallery) (id : Nat) : Bool :=
  g.drafts.toList.any fun (_, d) => d.target == id

/-- Remove an image that nobody keeps alive. -/
def sweep (g : Gallery) (id : Nat) : Gallery :=
  match g.slots[id]? with
  | some s =>
    if s.holders = 0 && !g.isDrafted id then
      let g := { g with slots := g.slots.erase id }
      if s.charged then g.refund s.image.area else g
    else g
  | none => g

/-- One more holder of an image. -/
def hold (g : Gallery) (id : Nat) : Gallery :=
  { g with slots := g.slots.modify id fun s => { s with holders := s.holders + 1 } }

/-- One holder less. -/
def release (g : Gallery) (id : Nat) : Gallery :=
  sweep { g with slots := g.slots.modify id fun s => { s with holders := s.holders - 1 } } id

/-! ## Drafts -/

/-- Open a draft on an image. -/
def openDraft (g : Gallery) (target : Nat) : Nat × Gallery :=
  (g.next, { g with drafts := g.drafts.insert g.next { target }, next := g.next + 1 })

/-- The image a draft is open on. -/
def target? (g : Gallery) (draft : Nat) : Option Image :=
  g.drafts[draft]?.bind fun d => g.image? d.target

/-- Do the pending cells of a draft pay? -/
def isCharged (g : Gallery) (d : Draft) : Bool := g.slots[d.target]?.any (·.charged)

/-- Give back the pay of some cells of a draft. -/
def refundCells (g : Gallery) (d : Draft) (cells : Nat) : Gallery :=
  if g.isCharged d then g.refund cells else g

/-- Close a draft; what is pending is lost. -/
def closeDraft (g : Gallery) (draft : Nat) : Gallery :=
  match g.drafts[draft]? with
  | some d =>
    let g := g.refundCells d d.pending.size
    sweep { g with drafts := g.drafts.erase draft } d.target
  | none => g

/-- Queue a colour for some cells.  Only cells that are not pending yet pay; if they cannot, nothing
is queued.  Gives the number of cells. -/
def queue (g : Gallery) (draft : Nat) (cells : List Position) (c : Color) :
    Except Fault (Nat × Gallery) :=
  match g.drafts[draft]? with
  | some d => do
    let fresh := cells.countP fun p => !d.pending.contains p
    let g ← if g.isCharged d && 0 < fresh then g.reserve fresh else .ok g
    let pending := cells.foldl (fun m p => m.insert p c) d.pending
    return (cells.length, { g with drafts := g.drafts.insert draft { d with pending } })
  | none => .ok (0, g)

/-- Keep only some of the pending cells; gives the number of those dropped. -/
def retain (g : Gallery) (draft : Nat) (keep : Position → Bool) : Nat × Gallery :=
  match g.drafts[draft]? with
  | some d =>
    let pending := d.pending.filter fun p _ => keep p
    let dropped := d.pending.size - pending.size
    let g := g.refundCells d dropped
    (dropped, { g with drafts := g.drafts.insert draft { d with pending } })
  | none => (0, g)

/-- The pending colour of a cell if there is one and it is preferred, else the committed one. -/
def read (g : Gallery) (draft : Nat) (x y : Int) (preferPending : Bool) : Except Fault Color :=
  match g.drafts[draft]?, g.target? draft with
  | some d, some image => do
    let p ← image.position x y
    match d.pending[p]? with
    | some c => return if preferPending then c else image.pixel p
    | none => return image.pixel p
  | _, _ => .error (.outOfBounds x y 0 0)

/-- Queue one cell. -/
def queueCell (g : Gallery) (draft : Nat) (x y : Int) (c : Color) : Except Fault Gallery :=
  match g.target? draft with
  | some image => do
    let p ← image.position x y
    let (_, g) ← g.queue draft [p] c
    return g
  | none => .error (.outOfBounds x y 0 0)

/-- Queue the cells of a rectangle that the image has. -/
def queueRect (g : Gallery) (draft : Nat) (r : Rect) (c : Color) : Except Fault (Nat × Gallery) :=
  match g.target? draft with
  | some image => g.queue draft (r.clipped image.width image.height) c
  | none => .ok (0, g)

/-- Queue the cells of an inscribed ellipse that the image has. -/
def queueEllipse (g : Gallery) (draft : Nat) (r : Rect) (c : Color) :
    Except Fault (Nat × Gallery) :=
  match g.target? draft with
  | some image => g.queue draft (r.clippedEllipse image.width image.height) c
  | none => .ok (0, g)

/-- Drop one pending cell; says whether there was one. -/
def cancel (g : Gallery) (draft : Nat) (x y : Int) : Bool × Gallery :=
  match (g.target? draft).bind fun image => Position.inside? x y image.width image.height with
  | some p =>
    let (dropped, g) := g.retain draft (· ≠ p)
    (dropped ≠ 0, g)
  | none => (false, g)

/-- Drop the pending cells of a rectangle; gives their number. -/
def cancelRect (g : Gallery) (draft : Nat) (r : Rect) : Nat × Gallery :=
  g.retain draft fun p => !r.contains p

/-- Take every pending edit out of a draft, row by row. -/
def takePending (g : Gallery) (draft : Nat) : List (Position × Color) × Gallery :=
  match g.drafts[draft]? with
  | some d =>
    let g := g.refundCells d d.pending.size
    (d.pending.toList, { g with drafts := g.drafts.insert draft { d with pending := ∅ } })
  | none => ([], g)

/-- Write the pending edits into an image; gives the number written. -/
def applyDraft (g : Gallery) (draft target : Nat) : Nat × Gallery :=
  let (edits, g) := g.takePending draft
  match g.image? target with
  | some image =>
    let (written, painted) := image.apply edits
    (written, g.editImage target fun _ => painted)
  | none => (0, g)

/-- Write the pending edits into the image the draft is open on; gives the number written. -/
def commit (g : Gallery) (draft : Nat) : Nat × Gallery :=
  match g.drafts[draft]? with
  | some d => g.applyDraft draft d.target
  | none => (0, g)

end Gallery

end ScriptWarden.Texture
