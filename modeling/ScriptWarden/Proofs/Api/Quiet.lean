import ScriptWarden.Api.Surface
import ScriptWarden.Proofs.Api.Refusal
set_option autoImplicit false

/-!
# API: quiet methods

Reading what an object stands for, changing it, and everything about images and events is quiet: only five
kinds of calls of the host need a capability, and none of these methods makes one.
-/

namespace ScriptWarden.Api

open Bridge (Action Call quiet_object)
open Lua (Value)

/-! ## Things -/

@[simp] theorem quiet_thing {α : Type} (type : String) (state : Nat) (view : Thing → Option α) :
    (thing type state view).Quiet := by
  unfold thing
  refine Action.quiet_bind (Action.quiet_look _) fun t => ?_
  split
  · exact Action.quiet_pure _
  · exact Action.quiet_fail _

theorem quiet_on {α : Type} {type : String} {view : Thing → Option α}
    {run : Call → α → Action Thing (List Value)} (h : ∀ c a, (run c a).Quiet) (c : Call) :
    (on type view run c).Quiet :=
  Action.quiet_bind (quiet_thing _ _ _) fun a => h c a

@[simp] theorem quiet_put (c : Call) (t : Thing) : (put c t).Quiet :=
  Action.quiet_edit fun _ => .of_eq rfl rfl rfl rfl rfl

@[simp] theorem quiet_create (type : String) (t : Thing) : (create type t).Quiet :=
  Action.quiet_bind (Action.quiet_onServices fun _ => .of_eq rfl rfl rfl rfl rfl) fun _ =>
    Action.quiet_onServices fun _ => .of_eq rfl rfl rfl rfl rfl

@[simp] theorem quiet_vector (xs : List Float) : (vector xs).Quiet := by
  simp [vector]

@[simp] theorem quiet_truth (b : Bool) : (truth b).Quiet := Action.quiet_pure _

@[simp] theorem quiet_number (x : Float) : (number x).Quiet := Action.quiet_pure _

@[simp] theorem quiet_count (n : Nat) : (count n).Quiet := Action.quiet_pure _

@[simp] theorem quiet_text (s : String) : (text s).Quiet := Action.quiet_pure _

/-! ## Sounds, particles and the nameplate -/

theorem quiet_setSound (change : Call → Sound → Except String Sound) (c : Call) :
    (setSound change c).Quiet := quiet_on (fun c s => by simp) c

theorem quiet_stopSound (c : Call) (s : Sound) : (stopSound c s).Quiet := by
  have hstop : (Action.edit (·.tell (.stop s.id)) : Action Thing Unit).Quiet := Action.quiet_tell rfl
  unfold stopSound
  split
  · exact Action.quiet_bind hstop fun _ => by simp
  · simp

theorem quiet_pauseSound (c : Call) (s : Sound) : (pauseSound c s).Quiet := by
  have hpause : (Action.edit (·.tell (.pause s.id)) : Action Thing Unit).Quiet :=
    Action.quiet_tell rfl
  unfold pauseSound
  split
  · exact Action.quiet_bind hpause fun _ => by simp
  · simp

theorem quiet_setParticle (change : Call → Particle → Except String Particle) (c : Call) :
    (setParticle change c).Quiet := quiet_on (fun c p => by simp) c

theorem quiet_removeParticle (c : Call) (p : Particle) : (removeParticle c p).Quiet := by
  unfold removeParticle
  split
  · next handle _ =>
    have hremove : (Action.edit (·.tell (.remove handle)) : Action Thing Unit).Quiet :=
      Action.quiet_tell rfl
    exact Action.quiet_bind hremove fun _ => by simp
  · simp

theorem quiet_showNameplate {run : Host.Nameplate → Action Thing (List Value)}
    (h : ∀ n, (run n).Quiet) (c : Call) : (showNameplate run c).Quiet :=
  quiet_on (fun _ _ => Action.quiet_bind (Action.quiet_look _) h) c

/-! ## Images -/

section Images

variable (c : Call) (id draft : Nat)

@[simp] theorem quiet_imageOf : (imageOf id).Quiet := Action.quiet_look _

@[simp] theorem quiet_onGallery {α : Type} (f : Texture.Gallery → α × Texture.Gallery) :
    (onGallery f).Quiet := Action.quiet_onServices fun _ => .of_eq rfl rfl rfl rfl rfl

theorem quiet_tryServices {α : Type} {f : Services → Except Texture.Fault (α × Services)}
    (h : ∀ s a s', f s = .ok (a, s') → Package.Calm s s') : (tryServices c f).Quiet := by
  intro w
  rw [tryServices_apply]
  cases hf : f w.host with
  | error e => exact .refl w.host
  | ok made => exact h w.host made.1 made.2 hf

@[simp] theorem quiet_tryGallery {α : Type}
    (f : Texture.Gallery → Except Texture.Fault (α × Texture.Gallery)) : (tryGallery c f).Quiet := by
  refine quiet_tryServices c fun s a s' h => ?_
  obtain ⟨gallery, -, rfl⟩ := Package.Services.of_gallery_ok h
  exact .of_eq rfl rfl rfl rfl rfl

@[simp] theorem quiet_textureObject : (textureObject create id).Quiet := by
  simp [textureObject]

theorem quiet_findTexture : (findTexture create c).Quiet := by
  unfold findTexture
  refine Action.quiet_bind (Action.quiet_lift _) fun name => ?_
  refine Action.quiet_bind (Action.quiet_look _) fun found => ?_
  split <;> simp

theorem createTexture_quiet {s s' : Services} {name : String} {width height : Nat}
    (h : s.createTexture name width height = .ok (id, s')) : Package.Calm s s' := by
  obtain ⟨gallery, rfl⟩ := Package.Services.of_createTexture_ok h
  exact .of_eq rfl rfl rfl rfl rfl

theorem quiet_newTexture : (newTexture create c).Quiet := by
  have hmake : ∀ name width height, (do
      let id ← tryServices c (·.createTexture name width height)
      textureObject create id : Action Thing (List Value)).Quiet := fun name width height =>
    Action.quiet_bind (quiet_tryServices c fun _ _ _ h => createTexture_quiet _ h) fun _ => by simp
  simp only [newTexture, Action.quiet_lift_bind]
  intro name _ width _ height _
  refine Action.quiet_bind (Action.quiet_look _) fun most => ?_
  simp [hmake]

theorem quiet_listTextures : listTextures.Quiet := by
  simp [listTextures]

theorem quiet_setTexturePixel : (setTexturePixel c id).Quiet := by
  simp [setTexturePixel]

theorem quiet_fillTexture : (fillTexture c id).Quiet := by
  simp [fillTexture]

theorem quiet_applyToTexture : (applyToTexture c id).Quiet := by
  unfold applyToTexture
  refine Action.quiet_bind (quiet_object _ _ _) fun found => ?_
  refine Action.quiet_bind (Action.quiet_look _) fun target => ?_
  simp

theorem quiet_readDraft : (readDraft c draft).Quiet := by
  simp [readDraft]

theorem quiet_queuePixel : (queuePixel c draft).Quiet := by
  simp [queuePixel]

theorem quiet_cancelPixel : (cancelPixel c draft).Quiet := by
  simp [cancelPixel]

theorem quiet_cancelRegion : (cancelRegion c draft).Quiet := by
  simp [cancelRegion]

theorem quiet_queueRegion
    (queue : Texture.Gallery → Nat → Texture.Rect → Texture.Color →
      Except Texture.Fault (Nat × Texture.Gallery)) : (queueRegion queue c draft).Quiet := by
  simp [queueRegion]

theorem quiet_draftMeasure (measure : Texture.Image → Nat) (state : Nat) :
    (draftMeasure measure state).Quiet := by
  simp [draftMeasure]

end Images

end ScriptWarden.Api
