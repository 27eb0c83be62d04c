import ScriptWarden.Texture.Gallery
set_option autoImplicit false

/-!
# Textures: the shelf

Images and drafts of a gallery under names of their owner.  Whatever is put under a name that is taken
drops what had it.
-/

namespace ScriptWarden.Texture

/-- A gallery whose images and drafts have names. -/
structure Shelf where
  gallery : Gallery
  images : Std.ExtTreeMap String Nat := ∅
  drafts : Std.ExtTreeMap String Nat := ∅

namespace Shelf

/-- An empty shelf with room for so many pixels. -/
def empty (limit : Nat) : Shelf := { gallery := .empty limit }

/-- The number of an image. -/
def imageId (s : Shelf) (name : String) : Nat := s.images[name]?.getD 0

/-- An image. -/
def image (s : Shelf) (name : String) : Image := (s.gallery.image? (s.imageId name)).getD default

/-- The number of a draft. -/
def draftId (s : Shelf) (name : String) : Nat := s.drafts[name]?.getD 0

/-- A draft. -/
def draft? (s : Shelf) (name : String) : Option Draft := s.gallery.drafts[s.draftId name]?

/-- Drop an image; tells if there was one. -/
def dropImage (s : Shelf) (name : String) : Bool × Shelf :=
  match s.images[name]? with
  | some id =>
    (true, { s with gallery := s.gallery.release id, images := s.images.erase name })
  | none => (false, s)

/-- Drop a draft; tells if there was one. -/
def dropDraft (s : Shelf) (name : String) : Bool × Shelf :=
  match s.drafts[name]? with
  | some id =>
    (true, { s with gallery := s.gallery.closeDraft id, drafts := s.drafts.erase name })
  | none => (false, s)

/-- Put an image of a gallery that has just grown under a name. -/
def hang (s : Shelf) (name : String) (id : Nat) (gallery : Gallery) : Shelf :=
  let s := ({ s with gallery }.dropImage name).2
  { s with images := s.images.insert name id }

/-- Open a draft on an image, under a name. -/
def openDraft (s : Shelf) (name image : String) : Shelf :=
  let (id, gallery) := s.gallery.openDraft (s.imageId image)
  let s := ({ s with gallery }.dropDraft name).2
  { s with drafts := s.drafts.insert name id }

/-- Change an image. -/
def edit (s : Shelf) (name : String) (f : Image → Image) : Shelf :=
  { s with gallery := s.gallery.editImage (s.imageId name) f }

end Shelf

end ScriptWarden.Texture
