import ScriptWarden.Api.Texture
import ScriptWarden.Proofs.Bridge.Quiet
set_option autoImplicit false

/-!
# API: changes that can be refused

A change of images or drafts is refused where the account of pixels or the bounds of an image forbid it.  The method
that wants it fails then, in its own words, and all is as before; otherwise what it leaves are the services of the
change (`tryServices_apply`).  Of these only the gallery is new (`of_gallery_ok`), and a name, if an image was made
(`of_createTexture_ok`).
-/

namespace ScriptWarden

open Bridge (Action Call)
open Texture (Fault Gallery)

variable {α β ε κ : Type}

/-- Two steps succeed one after the other. -/
theorem exists_of_bind_ok {x : Except ε α} {k : α → Except ε β} {b : β} (h : x >>= k = .ok b) :
    ∃ a, x = .ok a ∧ k a = .ok b := by
  cases x with
  | error e => cases h
  | ok a => exact ⟨a, rfl, h⟩

namespace Package.Services

variable {s s' : Services κ}

/-- A change of the gallery leaves all else alone. -/
theorem of_gallery_ok {f : Gallery → Except Fault (α × Gallery)} {a : α}
    (h : (do
      let (a, gallery) ← f s.gallery
      return (a, { s with gallery }) : Except Fault (α × Services κ)) = .ok (a, s')) :
    ∃ gallery, f s.gallery = .ok (a, gallery) ∧ s' = { s with gallery } := by
  obtain ⟨⟨a, gallery⟩, hmade, h⟩ := exists_of_bind_ok h
  cases h
  exact ⟨gallery, hmade, rfl⟩

/-- A new image changes the gallery and takes a name, and leaves all else alone. -/
theorem of_createTexture_ok {name : String} {width height id : Nat}
    (h : s.createTexture name width height = .ok (id, s')) :
    ∃ gallery, s' = { s with gallery, textures := s.textures.insert name id } := by
  obtain ⟨⟨id, gallery⟩, -, h⟩ := exists_of_bind_ok h
  cases h
  exact ⟨_, rfl⟩

end Package.Services

namespace Api

/-- What can be refused is done, or reported by the method and not done. -/
theorem tryServices_apply (c : Call) (f : Services → Except Fault (α × Services)) (w : Lua.World Services) :
    tryServices c f w =
      match f w.host with
      | .ok (a, s) => (.ok a, ⟨w.heap, s, w.meter⟩)
      | .error fault => (c.fail fault.message, w) := by
  simp only [tryServices, Action.bind_apply, Action.look, id_eq]
  cases f w.host <;> rfl

end Api

end ScriptWarden
