import ScriptWarden.Proofs.Api.Methods
import ScriptWarden.Proofs.Package.Pixels
import ScriptWarden.Proofs.Texture.Drawn
set_option autoImplicit false

/-!
# API: methods that draw

Of all methods only three of an image and one of a draft change images (`Strokes`), each a single one, and an image
that is changed is dirty.  A new image is dirty, too, and the only way to a name.  No method uploads an image: that is
for the host to do.
-/

namespace ScriptWarden

open Bridge (Action Call Member Registry Signature TypeEntry)
open Lua (Value)
open Texture (Fault Gallery Image)

namespace Package

variable {κ : Type}

/-! ## Names and uploads -/

/-- The image that something for the world outside uploads. -/
def Effect.upload? : Effect → Option Image
  | .call _ (.upload image) => some image
  | _ => none

/-- The images that some effects upload, in their order. -/
def uploadsIn (effects : List Effect) : List Image := effects.filterMap Effect.upload?

/-- A name belongs to an image that has it, and numbers to come are new. -/
structure Hung (s : Services κ) : Prop where
  lt_next : ∀ (id : Nat) image, s.gallery.image? id = some image → id < s.gallery.next
  named : ∀ (name : String) (id : Nat), s.textures[name]? = some id →
    ∃ image, s.gallery.image? id = some image ∧ image.name = name

/-- The services after something that uploads no image: what is different of the images is dirty, and it is new or one
of the targets; a name that belongs to another image belongs to a new one. -/
structure Drawn (targets : Nat → Prop) (s s' : Services κ) : Prop where
  next_le : s.gallery.next ≤ s'.gallery.next
  image : ∀ (id : Nat) image, s'.gallery.image? id = some image →
    s.gallery.image? id = some image ∨ image.dirty = true ∧ (targets id ∨ s.gallery.next ≤ id)
  name : ∀ (name : String) (id : Nat), s'.textures[name]? = some id → s.textures[name]? = some id ∨ s.gallery.next ≤ id
  hung : Hung s → Hung s'
  uploads_eq : uploadsIn s'.outbox = uploadsIn s.outbox

/-- Images, their names, and what was uploaded. -/
def wall (s : Services κ) : Gallery × Std.ExtTreeMap String Nat × List Image :=
  (s.gallery, s.textures, uploadsIn s.outbox)

section Drawn

variable {targets targets' : Nat → Prop} {s s' s₁ s₂ s₃ : Services κ}

/-- Two names of one image are the same. -/
theorem Hung.name_eq (h : Hung s) {name name' : String} {id : Nat} (hname : s.textures[name]? = some id)
    (hname' : s.textures[name']? = some id) : name = name' := by
  obtain ⟨image, himage, rfl⟩ := h.named name id hname
  obtain ⟨image', himage', rfl⟩ := h.named name' id hname'
  rw [himage] at himage'
  exact congrArg Image.name (Option.some.inj himage')

namespace Drawn

theorem of_wall (h : wall s' = wall s) : Drawn targets s s' := by
  obtain ⟨hgallery, hrest⟩ := Prod.mk.inj h
  obtain ⟨htextures, huploads⟩ := Prod.mk.inj hrest
  constructor
  · exact Nat.le_of_eq (congrArg (·.next) hgallery.symm)
  · rw [hgallery]
    exact fun _ _ himage => .inl himage
  · rw [htextures]
    exact fun _ _ hname => .inl hname
  · rintro ⟨hlt, hnamed⟩
    rw [← hgallery] at hlt hnamed
    rw [← htextures] at hnamed
    exact ⟨hlt, hnamed⟩
  · exact huploads

theorem refl (s : Services κ) : Drawn targets s s := of_wall rfl

theorem trans (h : Drawn targets s₁ s₂) (h' : Drawn targets s₂ s₃) : Drawn targets s₁ s₃ where
  next_le := Nat.le_trans h.next_le h'.next_le
  image id image himage := by
    obtain hsame | ⟨hdirty, hwhy⟩ := h'.image id image himage
    · exact h.image id image hsame
    · exact .inr ⟨hdirty, hwhy.imp_right (Nat.le_trans h.next_le)⟩
  name name id hname := by
    obtain hsame | hnew := h'.name name id hname
    · exact h.name name id hsame
    · exact .inr (Nat.le_trans h.next_le hnew)
  hung hhung := h'.hung (h.hung hhung)
  uploads_eq := h'.uploads_eq.trans h.uploads_eq

theorem mono (h : Drawn targets s s') (htargets : ∀ id, targets id → targets' id) : Drawn targets' s s' :=
  { h with image := fun id image himage => (h.image id image himage).imp_right fun hdirty =>
      ⟨hdirty.1, hdirty.2.imp_left (htargets id)⟩ }

theorem of_gallery {gallery : Gallery} (h : s.gallery.Redrawn targets gallery) :
    Drawn targets s { s with gallery } := by
  have hback (id : Nat) (image' : Image) (himage' : gallery.image? id = some image') :
      ∃ image, s.gallery.image? id = some image ∧ image.Touched image' ∧ (image' = image ∨ targets id) := by
    cases himage : s.gallery.image? id with
    | none =>
      have hnone := h.missing id himage
      rw [himage'] at hnone
      cases hnone
    | some image =>
      obtain ⟨image'', himage'', htouched⟩ := h.image id image himage
      rw [himage'] at himage''
      cases himage''
      exact ⟨image, rfl, htouched⟩
  constructor
  · exact h.next_le
  · intro id image' himage'
    obtain ⟨image, himage, htouched, hwhy⟩ := hback id image' himage'
    obtain rfl | htarget := hwhy
    · exact .inl himage
    · obtain rfl | hdirty := htouched.marked
      · exact .inl himage
      · exact .inr ⟨hdirty, .inl htarget⟩
  · exact fun _ _ hname => .inl hname
  · intro hhung
    refine ⟨fun id image' himage' => ?_, fun name id hname => ?_⟩
    · obtain ⟨image, himage, -⟩ := hback id image' himage'
      exact Nat.lt_of_lt_of_le (hhung.lt_next id image himage) h.next_le
    · obtain ⟨image, himage, rfl⟩ := hhung.named name id hname
      obtain ⟨image', himage', htouched, -⟩ := h.image id image himage
      exact ⟨image', himage', htouched.name_eq⟩
  · rfl

end Drawn

/-- A gallery that lets go of an image, if there is one. -/
def freed (g : Gallery) (old : Option Nat) : Gallery :=
  match old with
  | some id => g.release id
  | none => g

theorem next_freed (g : Gallery) (old : Option Nat) : (freed g old).next = g.next := by
  cases old with
  | some id => exact Gallery.next_release g id
  | none => rfl

theorem image?_of_freed {g : Gallery} {old : Option Nat} {j : Nat} {image : Image}
    (h : (freed g old).image? j = some image) : g.image? j = some image := by
  cases old with
  | some id => exact Gallery.image?_of_release g id h
  | none => exact h

theorem image?_freed_ne {g : Gallery} {old : Option Nat} {j : Nat} (hne : old ≠ some j) :
    (freed g old).image? j = g.image? j := by
  cases old with
  | some id => exact Gallery.image?_release_ne g id fun heq => hne (congrArg some heq)
  | none => rfl

/-- An image is new and takes a name over.  The image that had the name may be gone, and no other one is. -/
structure Hangs (image : Image) (s s' : Services κ) : Prop where
  next_eq : s'.gallery.next = s.gallery.next + 1
  of_image : ∀ (id : Nat) image', s'.gallery.image? id = some image' →
    s.gallery.next = id ∧ image' = image ∨ s.gallery.image? id = some image'
  image_eq : ∀ id : Nat, s.textures[image.name]? ≠ some id →
    s'.gallery.image? id = if s.gallery.next = id then some image else s.gallery.image? id
  name_eq : ∀ name : String,
    s'.textures[name]? = if image.name = name then some s.gallery.next else s.textures[name]?
  outbox_eq : s'.outbox = s.outbox

theorem hangs_createTexture {name : String} {width height id : Nat}
    (h : s.createTexture name width height = .ok (id, s')) : Hangs (.blank name width height) s s' := by
  let blank := Image.blank name width height
  let made := Gallery.insert { s.gallery with used := s.gallery.used + width * height } blank true
  obtain rfl : s' = { s with
      gallery := freed made.2 s.textures[name]?, textures := s.textures.insert name s.gallery.next } := by
    unfold Services.createTexture at h
    rw [Gallery.create_eq] at h
    split at h
    · cases h
      rfl
    · cases h
  have hmade (j : Nat) : made.2.image? j = if s.gallery.next = j then some blank else s.gallery.image? j := by
    simp only [made, Gallery.image?, Gallery.insert, Std.ExtTreeMap.getElem?_insert, Nat.compare_eq_eq]
    split
    · rfl
    · rfl
  constructor
  · exact next_freed made.2 _
  · intro j image himage
    have himage := image?_of_freed himage
    rw [hmade] at himage
    split at himage
    · next heq => exact .inl ⟨heq, (Option.some.inj himage).symm⟩
    · exact .inr himage
  · intro j hne
    exact (image?_freed_ne hne).trans (hmade j)
  · intro name'
    simp only [Std.ExtTreeMap.getElem?_insert, Std.LawfulEqCmp.compare_eq_iff_eq]
    rfl
  · rfl

/-- The name belongs to the new image then, and all others to the images that they belonged to. -/
theorem Hung.hang {image : Image} (hhung : Hung s) (h : Hangs image s s') : Hung s' := by
  refine ⟨fun id image' himage' => ?_, fun name id hname => ?_⟩
  · rw [h.next_eq]
    obtain ⟨heq, -⟩ | hold := h.of_image id image' himage'
    · exact heq ▸ Nat.lt_succ_self _
    · exact Nat.lt_succ_of_lt (hhung.lt_next id image' hold)
  · rw [h.name_eq] at hname
    split at hname
    · next heq =>
      obtain rfl := Option.some.inj hname
      have hnew : s.textures[image.name]? ≠ some s.gallery.next := fun hold => by
        obtain ⟨image', himage', -⟩ := hhung.named _ _ hold
        exact Nat.lt_irrefl _ (hhung.lt_next _ image' himage')
      exact ⟨image, (h.image_eq _ hnew).trans (if_pos rfl), heq⟩
    · next hne =>
      obtain ⟨image', himage', hname'⟩ := hhung.named name id hname
      have hother : s.textures[image.name]? ≠ some id := fun hold => hne (hhung.name_eq hold hname)
      have hold : s.gallery.next ≠ id := Nat.ne_of_gt (hhung.lt_next id image' himage')
      exact ⟨image', (h.image_eq id hother).trans ((if_neg hold).trans himage'), hname'⟩

/-- A new image is dirty. -/
theorem drawn_createTexture {name : String} {width height id : Nat}
    (h : s.createTexture name width height = .ok (id, s')) : Drawn targets s s' := by
  have hhangs := hangs_createTexture h
  constructor
  · exact Nat.le_of_lt (hhangs.next_eq ▸ Nat.lt_succ_self _)
  · intro j image himage
    obtain ⟨heq, rfl⟩ | hold := hhangs.of_image j image himage
    · exact .inr ⟨rfl, .inr (Nat.le_of_eq heq)⟩
    · exact .inl hold
  · intro name' j hname
    rw [hhangs.name_eq] at hname
    split at hname
    · exact .inr (Nat.le_of_eq (Option.some.inj hname))
    · exact .inl hname
  · exact fun hhung => hhung.hang hhangs
  · rw [uploadsIn, hhangs.outbox_eq, uploadsIn]

/-- At its end a package lets go of its images. -/
theorem drawn_shutdown (s : Services κ) : Drawn targets s s.shutdown := by
  obtain ⟨hnext, himage⟩ := Gallery.releaseAll s.gallery (s.textures.toList.map (·.2))
  rw [← Services.gallery_shutdown] at hnext himage
  have hnone (name : String) : s.shutdown.textures[name]? = none := Std.ExtTreeMap.getElem?_empty
  constructor
  · exact Nat.le_of_eq hnext.symm
  · exact fun j image h => .inl (himage j image h)
  · intro name id hname
    rw [hnone] at hname
    cases hname
  · intro hhung
    refine ⟨fun j image h => hnext ▸ hhung.lt_next j image (himage j image h), fun name id hname => ?_⟩
    rw [hnone] at hname
    cases hname
  · rfl

end Drawn

end Package

namespace Api

open Package (Drawn wall)

variable {α β : Type} {targets : Nat → Prop}

/-! ## Actions -/

/-- An action that draws on the targets at most. -/
def Draws (targets : Nat → Prop) (a : Action Thing α) : Prop := ∀ w, Drawn targets w.host (a w).2.host

theorem draws_pure (a : α) : Draws targets (pure a) := fun w => .refl w.host

theorem draws_lift (x : Except String α) : Draws targets (liftM x) := fun w => .refl w.host

theorem draws_fail (message : String) : Draws targets (Action.fail message : Action Thing α) := fun w => .refl w.host

theorem draws_look (f : Services → α) : Draws targets (Action.look f) := fun w => .refl w.host

theorem draws_onHeap (f : Lua.Heap → α × Lua.Heap) : Draws targets (Action.onHeap f) := fun w => .refl w.host

/-- A change of the services that has nothing to do with images. -/
theorem draws_plain {f : Services → α × Services} (h : ∀ s, wall (f s).2 = wall s) :
    Draws targets (Action.onServices f) := fun w => .of_wall (h w.host)

theorem draws_edit {f : Services → Services} (h : ∀ s, wall (f s) = wall s) : Draws targets (Action.edit f) :=
  draws_plain h

/-- Any call of the host that is no upload. -/
theorem draws_tell {call : Services → Host.Call}
    (h : ∀ s package, (Package.Effect.call package (call s)).upload? = none) :
    Draws targets (Action.edit fun s => s.tell (call s)) :=
  draws_edit fun s => congrArg (s.gallery, s.textures, ·) (List.filterMap_cons_none (h s s.package))

theorem Draws.bind {a : Action Thing α} {f : α → Action Thing β} (ha : Draws targets a)
    (hf : ∀ x, Draws targets (f x)) : Draws targets (a >>= f) := fun w =>
  Action.bind_keeps (P := fun w' => Drawn targets w.host w'.host) (ha w) fun x w' h => h.trans (hf x w')

theorem draws_ite {c : Prop} [Decidable c] {a b : Action Thing α} (ha : Draws targets a) (hb : Draws targets b) :
    Draws targets (if c then a else b) := by
  split
  · exact ha
  · exact hb

/-! ## Things -/

section Things

variable {c : Call}

theorem draws_thing (type : String) (state : Nat) (view : Thing → Option α) :
    Draws targets (thing type state view) := by
  refine .bind (draws_look _) fun t => ?_
  split
  · exact draws_pure _
  · exact draws_fail _

theorem draws_on {type : String} {view : Thing → Option α} {run : Call → α → Action Thing (List Value)}
    (h : ∀ a, Draws targets (run c a)) : Draws targets (on type view run c) := .bind (draws_thing _ _ _) h

theorem draws_self (c : Call) : Draws targets (c.self : Action Thing (List Value)) := draws_pure _

/-- An object changes, and is given back. -/
theorem draws_update (t : Thing) : Draws targets (do put c t; c.self : Action Thing (List Value)) :=
  .bind (draws_edit fun _ => rfl) fun _ => draws_self c

/-- A new object as the only result. -/
theorem draws_newObject (type : String) (t : Thing) :
    Draws targets (do return [← create type t] : Action Thing (List Value)) :=
  .bind (.bind (draws_plain fun _ => rfl) fun _ => draws_plain fun _ => rfl) fun _ => draws_pure _

theorem draws_vector (xs : List Float) : Draws targets (vector xs) := .bind (draws_onHeap _) fun _ => draws_pure _

theorem draws_truth (b : Bool) : Draws targets (truth b) := draws_pure _

theorem draws_number (x : Float) : Draws targets (number x) := draws_pure _

theorem draws_count (n : Nat) : Draws targets (count n) := draws_pure _

theorem draws_text (s : String) : Draws targets (text s) := draws_pure _

/-! ## Trust -/

theorem wall_trustValue (policy : Trust.Policy) (capability : Trust.Capability) (s : Services) :
    wall (s.trustValue policy capability).2 = wall s :=
  Package.Services.trustValue_keeps policy s (fun _ _ => rfl) capability

theorem draws_tryUse (capability : Trust.Capability) :
    Draws targets (Action.onServices (·.tryUse capability) : Action Thing Bool) := draws_plain fun _ => rfl

theorem draws_trustValue (policy : Trust.Policy) (capability : Trust.Capability) :
    Draws targets (Action.onServices (·.trustValue policy capability) : Action Thing Trust.Effective) :=
  draws_plain (wall_trustValue policy capability)

theorem draws_check (policy : Trust.Policy) (capability : Trust.Capability) (least : Int) :
    Draws targets (Action.onServices (·.check policy capability least) : Action Thing Bool) := by
  refine draws_plain fun s => Eq.trans ?_ (wall_trustValue policy capability s)
  unfold Package.Services.check
  simp only
  split <;> rfl

/-! ## Sounds and particles -/

theorem draws_setSound (change : Call → Sound → Except String Sound) : Draws targets (setSound change c) :=
  draws_on fun _ => .bind (draws_lift _) fun _ => draws_update _

theorem draws_playSound (s : Sound) : Draws targets (playSound c s) := by
  refine draws_ite (.bind (draws_self c) fun _ => draws_pure _) ?_
  refine .bind (draws_tryUse _) fun granted => draws_ite ?_ (draws_self c)
  refine .bind (draws_trustValue _ _) fun percent => ?_
  exact .bind (draws_tell fun _ _ => rfl) fun _ => draws_update _

theorem draws_stopSound (s : Sound) : Draws targets (stopSound c s) :=
  draws_ite (.bind (draws_tell fun _ _ => rfl) fun _ => draws_update _) (draws_update _)

theorem draws_pauseSound (s : Sound) : Draws targets (pauseSound c s) :=
  draws_ite (.bind (draws_tell fun _ _ => rfl) fun _ => draws_update _) (draws_self c)

theorem draws_setParticle (change : Call → Particle → Except String Particle) : Draws targets (setParticle change c) :=
  draws_on fun _ => .bind (draws_lift _) fun _ => draws_update _

theorem draws_spawnParticle (p : Particle) : Draws targets (spawnParticle c p) := by
  have hshow : Draws targets (do
      let handle ← Action.onServices (·.takeHandle)
      Action.edit (·.tell (.spawn (p.shown handle)))
      put c (.particle { p with handle := some handle })
      c.self : Action Thing (List Value)) :=
    .bind (draws_plain fun _ => rfl) fun _ => .bind (draws_tell fun _ _ => rfl) fun _ => draws_update _
  refine .bind (draws_tryUse _) fun granted => draws_ite ?_ (draws_self c)
  split
  · exact .bind (draws_tell fun _ _ => rfl) fun _ => hshow
  · exact hshow

theorem draws_removeParticle (p : Particle) : Draws targets (removeParticle c p) := by
  unfold removeParticle
  split
  · exact .bind (draws_tell fun _ _ => rfl) fun _ => draws_update _
  · exact draws_self c

/-! ## The nameplate, the renderer, the network and events -/

theorem draws_showNameplate {run : Host.Nameplate → Action Thing (List Value)} (h : ∀ n, Draws targets (run n)) :
    Draws targets (showNameplate run c) := draws_on fun _ => .bind (draws_look _) h

theorem draws_setNameplate (read : Call → Except String α) (change : α → Host.Nameplate → Host.Nameplate) :
    Draws targets (setNameplate read change c) := by
  refine draws_on fun _ => .bind (draws_lift _) fun a => .bind (draws_check _ _ _) fun granted => ?_
  exact draws_ite (.bind (draws_edit fun _ => rfl) fun _ => draws_self c) (draws_self c)

theorem draws_setTextureOverride : Draws targets (setTextureOverride c) := by
  refine .bind (draws_lift _) fun (kind, value) => .bind (draws_check _ _ _) fun granted => ?_
  exact draws_ite (.bind (draws_tell fun _ _ => rfl) fun _ => draws_truth _) (draws_truth _)

theorem draws_sendRequest : Draws targets (sendRequest c) := by
  refine .bind (draws_lift _) fun request => .bind (draws_tryUse _) fun granted => ?_
  refine draws_ite (.bind (draws_plain fun s => ?_) fun _ => draws_count _) (draws_pure _)
  unfold Package.Services.send
  simp only
  split <;> rfl

/-- The functions registered for events change, and the object is given back. -/
theorem draws_callbacks (change : Services → Std.ExtTreeMap String (List Value)) : Draws targets (do
    Action.edit fun s => { s with callbacks := change s }
    c.self : Action Thing (List Value)) :=
  .bind (draws_edit fun _ => rfl) fun _ => draws_self c

/-! ## Images -/

theorem draws_onGallery {f : Gallery → α × Gallery} (h : ∀ g : Gallery, g.Redrawn targets (f g).2) :
    Draws targets (onGallery f) := fun w => .of_gallery (h w.host.gallery)

theorem draws_tryServices {f : Services → Except Fault (α × Services)}
    (h : ∀ s a s', f s = .ok (a, s') → Drawn targets s s') : Draws targets (tryServices c f) := by
  intro w
  rw [tryServices_apply]
  cases hf : f w.host with
  | error e => exact .refl w.host
  | ok made => exact h w.host made.1 made.2 hf

theorem draws_tryGallery {f : Gallery → Except Fault (α × Gallery)}
    (h : ∀ g a g', f g = .ok (a, g') → g.Redrawn targets g') : Draws targets (tryGallery c f) := by
  refine draws_tryServices fun s a s' hmade => ?_
  obtain ⟨gallery, hf, rfl⟩ := Package.Services.of_gallery_ok hmade
  exact .of_gallery (h _ _ _ hf)

theorem draws_textureObject (id : Nat) : Draws targets (textureObject create id) :=
  .bind (draws_onGallery fun g => g.redrawn_hold id) fun _ => draws_newObject _ _

theorem draws_findTexture : Draws targets (findTexture create c) := by
  refine .bind (draws_lift _) fun name => .bind (draws_look _) fun found => ?_
  split
  · exact draws_textureObject _
  · exact draws_pure _

theorem draws_newTexture : Draws targets (newTexture create c) := by
  have hmake (name : String) (width height : Nat) : Draws targets (do
      let id ← tryServices c (·.createTexture name width height)
      textureObject create id : Action Thing (List Value)) :=
    .bind (draws_tryServices fun _ _ _ => Package.drawn_createTexture) draws_textureObject
  refine .bind (draws_lift _) fun name => .bind (draws_lift _) fun width => ?_
  refine .bind (draws_lift _) fun height => .bind (draws_look _) fun most => ?_
  exact draws_ite (.bind (draws_lift _) fun _ => hmake _ _ _) (hmake _ _ _)

theorem draws_listTextures : Draws targets listTextures :=
  .bind (draws_look _) fun _ => .bind (draws_onHeap _) fun _ => draws_pure _

/-- What is painted over an image, unless that is refused. -/
theorem draws_painted {paint : Image → Except Fault Image} (h : ∀ i i', paint i = .ok i' → i.Touched i') (id : Nat) :
    Draws (· = id) (do
      let image ← orFail c (paint (← imageOf id))
      onGallery fun g => ((), g.editImage id fun _ => image)
      c.self : Action Thing (List Value)) := by
  intro w
  simp only [imageOf, Action.bind_apply, Action.look]
  cases hpainted : paint ((w.host.gallery.image? id).getD default) with
  | error e => exact .refl w.host
  | ok image =>
    refine .of_gallery (Gallery.redrawn_editImage fun image' himage' => h _ _ ?_)
    rw [himage'] at hpainted
    exact hpainted

theorem draws_setTexturePixel (id : Nat) : Draws (· = id) (setTexturePixel c id) := by
  refine .bind (draws_lift _) fun x => .bind (draws_lift _) fun y => .bind (draws_lift _) fun color => ?_
  exact draws_painted (fun _ _ => Image.touched_set) id

theorem draws_fillTexture (id : Nat) : Draws (· = id) (fillTexture c id) := by
  have hfill (unit : Vec4) : Draws (· = id) (do
      let x ← c.int 0
      let y ← c.int 1
      let width ← c.int 2
      let height ← c.int 3
      let image ← orFail c
        ((← imageOf id).fill x.toInt y.toInt width.toInt height.toInt (.ofUnit unit))
      onGallery fun g => ((), g.editImage id fun _ => image)
      c.self : Action Thing (List Value)) := by
    refine .bind (draws_lift _) fun x => .bind (draws_lift _) fun y => .bind (draws_lift _) fun width => ?_
    exact .bind (draws_lift _) fun height => draws_painted (fun _ _ => Image.touched_fill) id
  exact draws_ite (.bind (draws_lift _) fun _ => hfill _) (.bind (draws_lift _) fun _ => hfill _)

theorem draws_applyToTexture (id : Nat) : Draws (· = id) (applyToTexture c id) := by
  refine .bind (fun w => .of_wall (by rw [Bridge.reads_object c _ _ w])) fun (_, draft) => ?_
  refine .bind (draws_look _) fun target => ?_
  have happly : Draws (· = id) (do count (← onGallery fun g => g.applyDraft draft id) : Action Thing (List Value)) :=
    .bind (draws_onGallery fun g => g.redrawn_applyDraft draft id) fun _ => draws_count _
  exact draws_ite (.bind (draws_lift _) fun _ => happly) happly

theorem draws_readDraft (draft : Nat) : Draws targets (readDraft c draft) := by
  refine .bind (draws_lift _) fun x => .bind (draws_lift _) fun y => .bind (draws_lift _) fun prefer => ?_
  exact .bind (draws_look _) fun _ => .bind (draws_lift _) fun _ => draws_vector _

theorem draws_queuePixel (draft : Nat) : Draws targets (queuePixel c draft) := by
  refine .bind (draws_lift _) fun x => .bind (draws_lift _) fun y => .bind (draws_lift _) fun color => ?_
  refine .bind (draws_tryGallery fun g a g' hmade => ?_) fun _ => draws_self c
  obtain ⟨queued, hqueued, hdone⟩ := exists_of_bind_ok hmade
  cases hdone
  exact Gallery.redrawn_queueCell hqueued

theorem draws_cancelPixel (draft : Nat) : Draws targets (cancelPixel c draft) :=
  .bind (draws_lift _) fun x => .bind (draws_lift _) fun y =>
    .bind (draws_onGallery fun g => g.redrawn_cancel draft x.toInt y.toInt) draws_truth

theorem draws_cancelRegion (draft : Nat) : Draws targets (cancelRegion c draft) := by
  have hcancel (rect : Texture.Rect) : Draws targets (do
      count (← onGallery fun g => g.cancelRect draft rect) : Action Thing (List Value)) :=
    .bind (draws_onGallery fun g => g.redrawn_retain draft _) draws_count
  exact draws_ite (.bind (draws_lift _) fun _ => hcancel _) (.bind (draws_lift _) fun _ => hcancel _)

theorem draws_queueRegion {queue : Gallery → Nat → Texture.Rect → Texture.Color → Except Fault (Nat × Gallery)}
    (h : ∀ g k r color n g', queue g k r color = .ok (n, g') → g.Redrawn targets g') (draft : Nat) :
    Draws targets (queueRegion queue c draft) :=
  .bind (draws_lift _) fun _ => .bind (draws_tryGallery fun _ _ _ => h _ _ _ _ _ _) draws_count

end Things

/-! ## The surface -/

/-- A method draws on an image: a script calls it on the image itself, or on a draft that is open on it. -/
inductive Strokes (s : Services) (state : Nat) : String → String → Nat → Prop
  | written {name : String} {id : Nat} (hname : name ∈ ["setPixel", "fill", "apply"])
    (himage : s.states[state]? = some (.texture id)) : Strokes s state textureType name id
  | committed {draft : Nat} {d : Texture.Draft} (hdraft : s.states[state]? = some (.draft draft))
    (hopen : s.gallery.drafts[draft]? = some d) : Strokes s state draftType "commit" d.target

/-- A member draws on nothing but what it is to draw on. -/
def Paints (type name : String) : Member Thing → Prop
  | .method _ run => ∀ c w, Drawn (Strokes w.host c.state type name) w.host (run c w).2.host
  | .field _ get => ∀ state, (get state).Reads

/-- A method of a thing that the method finds. -/
theorem drawn_on {type : String} {view : Thing → Option α} {run : Call → α → Action Thing (List Value)} {c : Call}
    {w : Lua.World Services} (h : ∀ a, (w.host.states[c.state]?).bind view = some a →
      Drawn targets w.host (run c a w).2.host) : Drawn targets w.host (on type view run c w).2.host := by
  unfold on thing
  simp only [Action.bind_apply, Action.look]
  cases hview : (w.host.states[c.state]?).bind view with
  | none => exact .refl w.host
  | some a => exact h a hview

/-- A method of an image draws on that image. -/
theorem drawn_onTexture {run : Call → Nat → Action Thing (List Value)} {name : String}
    (hname : name ∈ ["setPixel", "fill", "apply"]) (hrun : ∀ c id, Draws (· = id) (run c id)) (c : Call)
    (w : Lua.World Services) : Drawn (Strokes w.host c.state textureType name) w.host (onTexture run c w).2.host := by
  refine drawn_on fun id hview => (hrun c id w).mono ?_
  rintro _ rfl
  obtain ⟨t, hstate, ht⟩ := Option.bind_eq_some_iff.1 hview
  cases t with
  | texture id' =>
    cases ht
    exact .written hname hstate
  | _ => cases ht

/-- A commit draws on the image that the draft is open on. -/
theorem drawn_commit (c : Call) (w : Lua.World Services) :
    Drawn (Strokes w.host c.state draftType "commit") w.host
      (onDraft (fun _ draft => do count (← onGallery fun g => g.commit draft)) c w).2.host := by
  refine drawn_on fun draft hview => ?_
  have hcommitted : Drawn (fun id => ∃ d, w.host.gallery.drafts[draft]? = some d ∧ d.target = id) w.host
      { w.host with gallery := (w.host.gallery.commit draft).2 } := .of_gallery (Gallery.redrawn_commit _ draft)
  refine hcommitted.mono ?_
  rintro _ ⟨d, hopen, rfl⟩
  obtain ⟨t, hstate, ht⟩ := Option.bind_eq_some_iff.1 hview
  cases t with
  | draft draft' =>
    cases ht
    exact .committed hstate hopen
  | _ => cases ht

end Api

namespace Bridge.TypeEntry.All

open Api (Draws Paints Thing)

variable {α : Type} {type : String} {t : TypeEntry Thing}

/-- A method that does not draw. -/
theorem plain (ht : t.All (Paints type)) {name : String} (overloads : List Signature) {view : Thing → Option α}
    {run : Call → α → Action Thing (List Value)} (hrun : ∀ c a targets, Draws targets (run c a)) :
    (t.method name overloads (Api.on type view run)).All (Paints type) :=
  ht.method overloads fun _ c w => Api.draws_on (fun a => hrun c a _) w

/-- A method that does not draw, under several names. -/
theorem plains (ht : t.All (Paints type)) {names : List String} (overloads : List Signature)
    {run : Call → Action Thing (List Value)} (hrun : ∀ c targets, Draws targets (run c)) :
    (t.methods names overloads run).All (Paints type) := ht.methods overloads fun _ _ _ c w => hrun c _ w

/-- A method that shows something of the nameplate. -/
theorem shows {t : TypeEntry Thing} (ht : t.All (Paints Api.nameplateType)) {name : String}
    (overloads : List Signature) {run : Host.Nameplate → Action Thing (List Value)}
    (hrun : ∀ n targets, Draws targets (run n)) :
    (t.method name overloads (Api.showNameplate run)).All (Paints Api.nameplateType) :=
  ht.method overloads fun _ _ w => Api.draws_showNameplate (fun n => hrun n _) w

end Bridge.TypeEntry.All

namespace Api

open Bridge.TypeEntry (all_empty)
open Package (Drawn)

/-- A type without members. -/
theorem paints_nothing (type doc : String) : (TypeEntry.describe {} doc).All (Paints type) := all_empty.describe doc

variable {r : Registry Thing}

theorem registerSounds_paints (hr : r.All Paints) : (registerSounds r create).All Paints := by
  refine (hr.register ?_).register ?_
  · exact (paints_nothing soundMaker _).plain _ fun _ _ _ => .bind (draws_lift _) fun _ => draws_newObject _ _
  · exact paints_nothing soundType _
      |>.plain _ (fun _ s _ => draws_playSound s)
      |>.plain _ (fun _ s _ => draws_stopSound s)
      |>.plain _ (fun _ s _ => draws_pauseSound s)
      |>.plain _ (fun _ _ _ => draws_truth _)
      |>.plain _ (fun _ _ _ => draws_text _)
      |>.plain _ (fun _ _ _ => draws_vector _)
      |>.plains _ (fun _ _ => draws_setSound _)
      |>.plain _ (fun _ _ _ => draws_number _)
      |>.plains _ (fun _ _ => draws_setSound _)
      |>.plain _ (fun _ _ _ => draws_number _)
      |>.plains _ (fun _ _ => draws_setSound _)
      |>.plain _ (fun _ _ _ => draws_truth _)
      |>.plains _ (fun _ _ => draws_setSound _)
      |>.plain _ (fun _ _ _ => draws_number _)
      |>.plains _ (fun _ _ => draws_setSound _)

theorem registerParticles_paints (hr : r.All Paints) : (registerParticles r create).All Paints := by
  refine (hr.register ?_).register ?_
  · exact (paints_nothing particleMaker _).plain _ fun _ _ _ => .bind (draws_lift _) fun _ =>
      .bind (draws_lift _) fun _ => draws_newObject _ _
  · exact paints_nothing particleType _
      |>.plain _ (fun _ p _ => draws_spawnParticle p)
      |>.plain _ (fun _ p _ => draws_removeParticle p)
      |>.plain _ (fun _ _ _ => draws_truth _)
      |>.plain _ (fun _ _ _ => draws_text _)
      |>.plain _ (fun _ _ _ => draws_vector _)
      |>.plains _ (fun _ _ => draws_setParticle _)
      |>.plain _ (fun _ _ _ => draws_vector _)
      |>.plains _ (fun _ _ => draws_setParticle _)
      |>.plain _ (fun _ _ _ => draws_vector _)
      |>.plains _ (fun _ _ => draws_setParticle _)
      |>.plain _ (fun _ _ _ => draws_pure _)
      |>.plains _ (fun _ _ => draws_setParticle _)
      |>.plain _ (fun _ _ _ => draws_number _)
      |>.plains _ (fun _ _ => draws_setParticle _)
      |>.plain _ (fun _ _ _ => draws_number _)
      |>.plains _ (fun _ _ => draws_setParticle _)
      |>.plain _ (fun _ _ _ => draws_number _)
      |>.plains _ (fun _ _ => draws_setParticle _)
      |>.plain _ (fun _ _ _ => draws_truth _)
      |>.plains _ (fun _ _ => draws_setParticle _)

theorem registerTextures_paints (hr : r.All Paints) : (registerTextures r create).All Paints := by
  refine ((hr.register ?_).register ?_).register ?_
  · exact paints_nothing textureMaker _
      |>.plain _ (fun _ _ _ => draws_findTexture)
      |>.plain _ (fun _ _ _ => draws_newTexture)
      |>.plain _ (fun _ _ _ => draws_listTextures)
  · exact paints_nothing textureType _
      |>.plain _ (fun _ _ _ => .bind (draws_look _) fun _ => draws_text _)
      |>.plain _ (fun _ _ _ => .bind (draws_look _) fun _ => draws_pure _)
      |>.plain _ (fun _ _ _ => .bind (draws_lift _) fun _ => .bind (draws_lift _) fun _ =>
        .bind (draws_look _) fun _ => .bind (draws_lift _) fun _ => draws_vector _)
      |>.method _ (fun _ => drawn_onTexture (by decide) fun _ => draws_setTexturePixel)
      |>.method _ (fun _ => drawn_onTexture (by decide) fun _ => draws_fillTexture)
      |>.plain _ (fun _ _ _ => .bind (draws_onGallery fun g => g.redrawn_openDraft _) fun _ => draws_newObject _ _)
      |>.method _ (fun _ => drawn_onTexture (by decide) fun _ => draws_applyToTexture)
  · exact paints_nothing draftType _
      |>.field (reads_draftMeasure _)
      |>.field (reads_draftMeasure _)
      |>.plain _ (fun _ draft _ => draws_readDraft draft)
      |>.plain _ (fun _ draft _ => draws_queuePixel draft)
      |>.plain _ (fun _ draft _ => draws_cancelPixel draft)
      |>.plain _ (fun _ draft _ => draws_cancelRegion draft)
      |>.plain _ (fun _ draft _ => draws_queueRegion (fun _ _ _ _ _ _ => Gallery.redrawn_queueRect) draft)
      |>.plain _ (fun _ draft _ => draws_queueRegion (fun _ _ _ _ _ _ => Gallery.redrawn_queueEllipse) draft)
      |>.plain _ (fun _ _ _ => .bind (draws_look _) fun _ => draws_count _)
      |>.method _ (fun _ => drawn_commit)

theorem registerNameplate_paints (hr : r.All Paints) : (registerNameplate r).All Paints := by
  refine hr.register ?_
  exact paints_nothing nameplateType _
    |>.shows _ (fun _ _ => draws_pure _)
    |>.plains _ (fun _ _ => draws_setNameplate _ _)
    |>.shows _ (fun _ _ => draws_truth _)
    |>.plains _ (fun _ _ => draws_setNameplate _ _)
    |>.shows _ (fun _ _ => draws_truth _)
    |>.plains _ (fun _ _ => draws_setNameplate _ _)
    |>.shows _ (fun _ _ => draws_truth _)
    |>.plains _ (fun _ _ => draws_setNameplate _ _)
    |>.shows _ (fun _ _ => draws_vector _)
    |>.plains _ (fun _ _ => draws_setNameplate _ _)
    |>.shows _ (fun _ _ => draws_vector _)
    |>.plains _ (fun _ _ => draws_setNameplate _ _)
    |>.shows _ (fun n _ => by
      cases n.background with
      | none => exact draws_pure _
      | some color => exact draws_vector _)
    |>.plains _ (fun _ _ => draws_setNameplate _ _)

theorem registerRender_paints (hr : r.All Paints) : (registerRender r).All Paints :=
  hr.register ((paints_nothing renderType _).plain _ fun _ _ _ => draws_setTextureOverride)

theorem registerNetwork_paints (hr : r.All Paints) : (registerNetwork r).All Paints :=
  hr.register ((paints_nothing networkType _).plain _ fun _ _ _ => draws_sendRequest)

theorem registerEvents_paints (hr : r.All Paints) : (registerEvents r).All Paints := by
  refine hr.register ?_
  exact paints_nothing eventsType _
    |>.plain _ (fun _ _ _ => .bind (draws_lift _) fun name => .bind (draws_lift _) fun f =>
      draws_callbacks fun s => s.callbacks.insert name (s.callbacks[name]?.getD [] ++ [f]))
    |>.plain _ (fun _ _ _ => .bind (draws_lift _) fun name => draws_callbacks fun s => s.callbacks.erase name)
    |>.plain _ (fun _ _ _ => .bind (draws_lift _) fun _ => .bind (draws_look _) fun _ => draws_count _)

theorem surface_paints : surface.All Paints :=
  registerEvents_paints (registerNetwork_paints (registerRender_paints (registerNameplate_paints
    (registerTextures_paints (registerParticles_paints (registerSounds_paints Bridge.Registry.all_empty))))))

/-! ## Calls -/

/-- A call of a method draws on an image: the object that it is made on is the image, or a draft that is open on it. -/
def CallStrokes (heap : Lua.Heap) (s : Services) (type name : String) (args : List Value) (id : Nat) : Prop :=
  ∃ state, Bridge.Argument.ofValue heap s.objects (args.headD .nil) = .object type state ∧ Strokes s state type name id

theorem callMethod_draws (policy : Trust.Policy) (type name : String) (this : Value) (values : List Value) (state : Nat)
    (shown : List Bridge.Argument) (w : Lua.World Services) : Drawn (Strokes w.host state type name) w.host
      (Bridge.callMethod surface policy type name this values state shown w).2.host := by
  have halive := Bridge.reads_checkAlive (κ := Thing) w
  unfold Bridge.callMethod
  rw [Action.bind_apply]
  split
  · next w' heq =>
    rw [heq] at halive
    obtain rfl : w' = w := halive
    cases hmember : surface.member? type name with
    | none => exact .refl w'.host
    | some m =>
      cases m with
      | field fieldType get => exact .refl w'.host
      | method overloads run =>
        simp only
        cases Bridge.select overloads (Bridge.trimmed shown) with
        | error refusal => exact .refl w'.host
        | ok overload =>
          exact surface_paints type name _ hmember
            ⟨type ++ ":" ++ name, this, state, overload, Bridge.trimmed shown, values, policy⟩ w'
  · next w' heq =>
    rw [heq] at halive
    obtain rfl : w' = w := halive
    exact .refl w'.host

/-- Whatever scripts call draws on nothing else. -/
theorem bridgeCall_draws (policy : Trust.Policy) (type name : String) (args : List Value) (w : Lua.World Services) :
    Drawn (CallStrokes w.heap w.host type name args) w.host
      (Bridge.bridgeCall surface policy type name args w).2.host := by
  cases args with
  | nil => exact .refl w.host
  | cons this values =>
    unfold Bridge.bridgeCall
    simp only [Action.bind_apply, Bridge.seenAll, List.map_cons, List.headD_cons, List.tail_cons]
    cases hthis : Bridge.seen w this with
    | object found state =>
      simp only
      split
      · next hfound =>
        subst hfound
        have hcalled := callMethod_draws policy found name this values state (values.map (Bridge.seen w)) w
        exact hcalled.mono fun id hstrokes => ⟨state, hthis, hstrokes⟩
      · exact .refl w.host
    | _ => exact .refl w.host

end Api

end ScriptWarden
