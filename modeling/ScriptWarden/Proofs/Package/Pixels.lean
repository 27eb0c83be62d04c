import ScriptWarden.Package.Services
import ScriptWarden.Proofs.Texture.Account
set_option autoImplicit false

/-!
# Package: pixels

The images of a package under everything that its scripts and the host do to them: the operations of its
gallery, images that take over a name, uploads, and the end of the package.  `pixel_account_exact` says
that the account of pixels is right after every run.
-/

namespace ScriptWarden.Package

open Texture (Fault Gallery Slot)
open Texture.Gallery (Drops Ends Sound Step)

/-- What can happen to the images of a package. -/
inductive PixelOp where
  | gallery (op : Gallery.Op)
  /-- Make an image under a name, which drops what had the name. -/
  | newTexture (name : String) (width height : Nat)
  | upload
  | shutdown

namespace Services

variable {κ : Type}

/-- The services after an operation on images. -/
def performPixels (s : Services κ) : PixelOp → Except Fault (Services κ)
  | .gallery op => (fun gallery => { s with gallery }) <$> s.gallery.perform op
  | .newTexture name width height => (·.2) <$> s.createTexture name width height
  | .upload => .ok s.uploadDirty.2
  | .shutdown => .ok s.shutdown

/-! ## Letting go of several images -/

/-- What letting go of images one after another gives back. -/
def releasedAll (g : Gallery) : List Nat → Nat
  | [] => 0
  | id :: rest => (g.dropHolder id).swept id + releasedAll (g.release id) rest

theorem step_releaseAll {g : Gallery} (h : g.Sound) (ids : List Nat) :
    Step g 0 (releasedAll g ids) (ids.foldl Gallery.release g) := by
  induction ids generalizing g with
  | nil => exact h.refl
  | cons id rest ih =>
    have hfirst := h.release id
    exact hfirst.trans (ih hfirst.sound)

/-! ## Demands and refunds -/

/-- What an operation has to take from the account. -/
def pixelDemand (s : Services κ) : PixelOp → Nat
  | .gallery op => s.gallery.demand op
  | .newTexture _ width height => width * height
  | .upload => 0
  | .shutdown => 0

/-- What an operation gives back to the account. -/
def pixelsRefunded (s : Services κ) : PixelOp → Nat
  | .gallery op => s.gallery.refunded op
  | .newTexture name width height =>
    match s.gallery.create name width height with
    | .ok (_, g) => releasedAll g s.textures[name]?.toList
    | .error _ => 0
  | .upload => 0
  | .shutdown => releasedAll s.gallery (s.textures.toList.map (·.2))

theorem createTexture_ends {s : Services κ} (h : s.gallery.Sound) (name : String)
    (width height : Nat) :
    Ends s.gallery (width * height) (s.pixelsRefunded (.newTexture name width height))
      ((·.2.gallery) <$> s.createTexture name width height) := by
  have hends := h.create_ends name width height
  rw [pixelsRefunded, createTexture]
  cases hcreate : s.gallery.create name width height with
  | error e =>
    rw [hcreate] at hends
    cases hends with
    | exhausted hfull => exact .exhausted hfull
    | outOfBounds x y width height hfits => exact .outOfBounds x y width height hfits
  | ok made =>
    obtain ⟨id, g⟩ := made
    rw [hcreate] at hends
    cases hends with
    | settled _ hfits hstep =>
      cases hold : s.textures[name]? with
      | none => exact .settled g hfits hstep
      | some old =>
        have hboth := hstep.trans (step_releaseAll hstep.sound [old])
        rw [Nat.zero_add] at hboth
        exact .settled (g.release old) hfits hboth

theorem step_uploadOne {s : Services κ} (h : s.gallery.Sound) (id : Nat) :
    Step s.gallery 0 0 (s.uploadOne id).gallery := by
  unfold uploadOne
  cases himage : s.gallery.image? id with
  | none => exact h.refl
  | some image =>
    simp only
    split
    · exact h.editImage himage rfl
    · exact h.refl

theorem step_uploadDirty {s : Services κ} (h : s.gallery.Sound) :
    Step s.gallery 0 0 s.uploadDirty.2.gallery := by
  have hall : ∀ (ids : List Nat) (s : Services κ), s.gallery.Sound →
      Step s.gallery 0 0 (ids.foldl uploadOne s).gallery := by
    intro ids
    induction ids with
    | nil => exact fun _ h => h.refl
    | cons id rest ih =>
      intro s h
      have hfirst := step_uploadOne h id
      exact hfirst.trans (ih _ hfirst.sound)
  exact hall _ s h

theorem gallery_shutdown (s : Services κ) :
    s.shutdown.gallery = (s.textures.toList.map (·.2)).foldl Gallery.release s.gallery := by
  rw [shutdown, Std.ExtTreeMap.foldl_eq_foldl_toList, List.foldl_map]

/-- Every operation takes what it demands and gives back what is no longer paid for, or is refused and
changes nothing. -/
theorem pixels_ends {s : Services κ} (h : s.gallery.Sound) (op : PixelOp) :
    Ends s.gallery (s.pixelDemand op) (s.pixelsRefunded op) ((·.gallery) <$> s.performPixels op) := by
  cases op with
  | gallery op =>
    have hends := h.ends op
    rw [performPixels]
    cases hperform : s.gallery.perform op <;> rw [hperform] at hends <;> exact hends
  | newTexture name width height =>
    have hends := createTexture_ends h name width height
    rw [performPixels]
    cases hcreate : s.createTexture name width height <;> rw [hcreate] at hends <;> exact hends
  | upload => exact (step_uploadDirty h).ends h
  | shutdown =>
    have hstep := step_releaseAll h (s.textures.toList.map (·.2))
    rw [← gallery_shutdown] at hstep
    exact hstep.ends h

/-! ## Runs -/

/-- The services after an operation; a refused one leaves them as they were. -/
def afterPixels (s : Services κ) (op : PixelOp) : Services κ :=
  match s.performPixels op with
  | .ok s' => s'
  | .error _ => s

/-- The services after a sequence of operations. -/
def runPixels (s : Services κ) (ops : List PixelOp) : Services κ := ops.foldl afterPixels s

theorem sound_afterPixels {s : Services κ} (h : s.gallery.Sound) (op : PixelOp) :
    (s.afterPixels op).gallery.Sound ∧ (s.afterPixels op).gallery.limit = s.gallery.limit := by
  have hends := pixels_ends h op
  unfold afterPixels
  cases hperform : s.performPixels op with
  | error e => exact ⟨h, rfl⟩
  | ok s' =>
    rw [hperform] at hends
    cases hends with
    | settled _ _ hstep => exact ⟨hstep.sound, hstep.limit_eq⟩

theorem sound_runPixels {s : Services κ} (h : s.gallery.Sound) (ops : List PixelOp) :
    (s.runPixels ops).gallery.Sound ∧ (s.runPixels ops).gallery.limit = s.gallery.limit := by
  induction ops generalizing s with
  | nil => exact ⟨h, rfl⟩
  | cons op rest ih =>
    obtain ⟨hsound, hlimit⟩ := sound_afterPixels h op
    obtain ⟨hrest, hrestLimit⟩ := ih hsound
    exact ⟨hrest, hrestLimit.trans hlimit⟩

/-- The services with an allowance that nothing has used. -/
def freshPixels (s : Services κ) (limit : Nat) : Services κ :=
  { s with gallery := .empty limit, textures := ∅ }

/-- The account of pixels is exact after every run: it holds the pixels of the charged images that live
and the pending cells of the drafts on them, and never more than the allowance.  The allowance refuses an
operation exactly when what it demands would exceed it; every other one moves the account by just what it
takes and gives back, so no refund is cut short; and dropping everything, in any order, frees it all. -/
theorem pixel_account_exact (s₀ : Services κ) (limit : Nat) (ops : List PixelOp) :
    let s := (s₀.freshPixels limit).runPixels ops
    s.gallery.used = s.gallery.held ∧ s.gallery.used ≤ limit ∧
    (∀ (op : PixelOp) (requested used most : Nat),
      s.performPixels op = .error (.exhausted requested used most) ↔
        (requested = s.pixelDemand op ∧ used = s.gallery.used ∧ most = limit) ∧
          limit < s.gallery.used + s.pixelDemand op) ∧
    (∀ (op : PixelOp) (s' : Services κ), s.performPixels op = .ok s' →
      s'.gallery.used + s.pixelsRefunded op = s.gallery.used + s.pixelDemand op) ∧
    ∀ drops : List Gallery.Op, s.gallery.Drops drops → (s.gallery.run drops).used = 0 := by
  intro s
  obtain ⟨hsound, hlimit⟩ : s.gallery.Sound ∧ s.gallery.limit = limit :=
    sound_runPixels (s := s₀.freshPixels limit) (Gallery.sound_empty limit) ops
  clear_value s
  subst hlimit
  refine ⟨hsound.used_eq, hsound.used_le, ?_, ?_, fun drops => hsound.used_of_drops⟩
  · intro op requested used most
    rw [← (pixels_ends hsound op).exhausted_iff requested used most]
    cases s.performPixels op <;> simp
  · intro op s' hperform
    have hends := pixels_ends hsound op
    rw [hperform] at hends
    cases hends with
    | settled _ _ hstep => exact hstep.ledger

end Services

end ScriptWarden.Package
