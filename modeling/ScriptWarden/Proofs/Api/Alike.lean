import ScriptWarden.Api.Surface
import ScriptWarden.Proofs.Api.Refusal
import ScriptWarden.Proofs.Bridge.Alike
set_option autoImplicit false

/-!
# API: looking at one package

No member of the surface gives anything away about the number of a load, or about calls that other packages make.
-/

namespace ScriptWarden.Api

open Bridge (Action Call Member Registry TypeEntry respects_self respects_object)
open Bridge.Action (respects_pure respects_lift respects_fail respects_look respects_onServices respects_plain
  respects_edit respects_change respects_tell respects_onHeap respects_ite)
open Lua (Value)

variable {v : View}

/-! ## Things -/

section Things

variable {α : Type} {c : Call}

theorem respects_thing (type : String) (state : Nat) (view : Thing → Option α) :
    (thing type state view).Respects v := by
  refine .bind (respects_look fun _ => rfl) fun t => ?_
  split
  · exact respects_pure _
  · exact respects_fail _

theorem respects_on {type : String} {view : Thing → Option α} {run : Call → α → Action Thing (List Value)}
    (h : ∀ a, (run c a).Respects v) : (on type view run c).Respects v := .bind (respects_thing _ _ _) h

theorem respects_put (t : Thing) : (put c t).Respects v := respects_change (fun _ => rfl) fun _ => rfl

/-- An object changes, and is given back. -/
theorem respects_update (t : Thing) : (do put c t; c.self : Action Thing (List Value)).Respects v :=
  .bind (respects_put t) fun _ => respects_self c

theorem respects_create (type : String) (t : Thing) : (create type t).Respects v :=
  .bind (respects_plain (fun _ => rfl) fun _ => rfl) fun _ => respects_plain (fun _ => rfl) fun _ => rfl

/-- A new object as the only result. -/
theorem respects_newObject (type : String) (t : Thing) :
    (do return [← create type t] : Action Thing (List Value)).Respects v :=
  .bind (respects_create type t) fun _ => respects_pure _

theorem respects_vector (xs : List Float) : (vector xs).Respects v :=
  .bind (respects_onHeap _) fun _ => respects_pure _

theorem respects_truth (b : Bool) : (truth b).Respects v := respects_pure _

theorem respects_number (x : Float) : (number x).Respects v := respects_pure _

theorem respects_count (n : Nat) : (count n).Respects v := respects_pure _

theorem respects_text (s : String) : (text s).Respects v := respects_pure _

/-! ## Trust -/

theorem respects_tryUse (capability : Trust.Capability) :
    (Action.onServices (·.tryUse capability) : Action Thing Bool).Respects v :=
  respects_plain (fun _ => rfl) fun _ => rfl

theorem respects_trustValue (policy : Trust.Policy) (capability : Trust.Capability) :
    (Action.onServices (·.trustValue policy capability) : Action Thing Trust.Effective).Respects v :=
  respects_onServices fun _ _ hshows => View.shows_trustValue hshows policy capability

theorem respects_check (policy : Trust.Policy) (capability : Trust.Capability) (least : Int) :
    (Action.onServices (·.check policy capability least) : Action Thing Bool).Respects v :=
  respects_onServices fun _ _ hshows => View.shows_check hshows policy capability least

/-! ## Sounds and particles -/

theorem respects_setSound (change : Call → Sound → Except String Sound) : (setSound change c).Respects v :=
  respects_on fun _ => .bind (respects_lift _) fun _ => respects_update _

theorem respects_playSound (s : Sound) : (playSound c s).Respects v := by
  refine respects_ite (.bind (respects_self c) fun _ => respects_pure _) ?_
  refine .bind (respects_tryUse _) fun granted => respects_ite ?_ (respects_self c)
  refine .bind (respects_trustValue _ _) fun percent => ?_
  exact .bind (respects_tell rfl) fun _ => respects_update _

theorem respects_stopSound (s : Sound) : (stopSound c s).Respects v :=
  respects_ite (.bind (respects_tell rfl) fun _ => respects_update _) (respects_update _)

theorem respects_pauseSound (s : Sound) : (pauseSound c s).Respects v :=
  respects_ite (.bind (respects_tell rfl) fun _ => respects_update _) (respects_self c)

theorem respects_setParticle (change : Call → Particle → Except String Particle) : (setParticle change c).Respects v :=
  respects_on fun _ => .bind (respects_lift _) fun _ => respects_update _

theorem respects_spawnParticle (p : Particle) : (spawnParticle c p).Respects v := by
  have hshow : (do
      let handle ← Action.onServices (·.takeHandle)
      Action.edit (·.tell (.spawn (p.shown handle)))
      put c (.particle { p with handle := some handle })
      c.self : Action Thing (List Value)).Respects v :=
    .bind (respects_plain (fun _ => rfl) fun _ => rfl) fun _ => .bind (respects_tell rfl) fun _ => respects_update _
  refine .bind (respects_tryUse _) fun granted => respects_ite ?_ (respects_self c)
  split
  · exact .bind (respects_tell rfl) fun _ => hshow
  · exact hshow

theorem respects_removeParticle (p : Particle) : (removeParticle c p).Respects v := by
  unfold removeParticle
  split
  · exact .bind (respects_tell rfl) fun _ => respects_update _
  · exact respects_self c

/-! ## The nameplate, the renderer and the network -/

theorem respects_showNameplate {run : Host.Nameplate → Action Thing (List Value)} (h : ∀ n, (run n).Respects v) :
    (showNameplate run c).Respects v := respects_on fun _ => .bind (respects_look fun _ => rfl) h

theorem respects_setNameplate (read : Call → Except String α) (change : α → Host.Nameplate → Host.Nameplate) :
    (setNameplate read change c).Respects v := by
  refine respects_on fun _ => .bind (respects_lift _) fun a => ?_
  refine .bind (respects_check _ _ _) fun granted => respects_ite (.bind ?_ fun _ => respects_self c) (respects_self c)
  refine respects_edit fun s s' hshows => ?_
  have hplate : s'.nameplate = s.nameplate := by rw [hshows.seen]; rfl
  unfold Package.Services.editNameplate
  rw [hplate]
  have hchanged := hshows.map (f := fun t => { t with nameplate := change a s.nameplate }) (fun _ => rfl) fun _ => rfl
  exact hchanged.tell (.nameplate (change a s.nameplate))

theorem respects_setTextureOverride : (setTextureOverride c).Respects v := by
  refine .bind (respects_lift _) fun (kind, value) => .bind (respects_check _ _ _) fun granted => ?_
  exact respects_ite (.bind (respects_tell rfl) fun _ => respects_truth _) (respects_truth _)

theorem respects_sendRequest : (sendRequest c).Respects v := by
  refine .bind (respects_lift _) fun request => .bind (respects_tryUse _) fun granted => ?_
  refine respects_ite (.bind (respects_onServices fun s s' hshows => ?_) fun _ => respects_count _) (respects_pure _)
  exact View.shows_send hshows request

/-! ## Images -/

theorem respects_imageOf (id : Nat) : (imageOf id).Respects v := respects_look fun _ => rfl

theorem respects_onGallery (f : Texture.Gallery → α × Texture.Gallery) : (onGallery f).Respects v :=
  respects_plain (fun _ => rfl) fun _ => rfl

theorem respects_tryServices {f : Services → Except Texture.Fault (α × Services)}
    (hpackage : ∀ s a t, f s = .ok (a, t) → t.package = s.package)
    (hf : ∀ s, f (v.services s) = (f s).map fun made => (made.1, v.services made.2)) :
    (tryServices c f).Respects v := by
  rintro _ _ @⟨heap, meter, s, s', hname, rfl⟩
  rw [tryServices_apply, tryServices_apply, hf]
  cases hmade : f s with
  | error e => exact ⟨rfl, .intro heap meter (View.shows_services hname)⟩
  | ok made => exact ⟨rfl, .intro heap meter (View.shows_services ((hpackage _ _ _ hmade).trans hname))⟩

theorem respects_tryGallery (f : Texture.Gallery → Except Texture.Fault (α × Texture.Gallery)) :
    (tryGallery c f).Respects v := by
  refine respects_tryServices (fun s a t hmade => ?_) fun s => ?_
  · obtain ⟨gallery, -, rfl⟩ := Package.Services.of_gallery_ok hmade
    rfl
  · have hgallery : (v.services s).gallery = s.gallery := rfl
    rw [hgallery]
    cases f s.gallery <;> rfl

theorem respects_textureObject (id : Nat) : (textureObject create id).Respects v :=
  .bind (respects_onGallery _) fun _ => respects_newObject _ _

theorem respects_findTexture : (findTexture create c).Respects v := by
  refine .bind (respects_lift _) fun name => .bind (respects_look fun _ => rfl) fun found => ?_
  split
  · exact respects_textureObject _
  · exact respects_pure _

theorem respects_createTexture (name : String) (width height : Nat) :
    (tryServices c (·.createTexture name width height)).Respects v := by
  refine respects_tryServices (fun s a t hmade => ?_) fun s => ?_
  · obtain ⟨gallery, rfl⟩ := Package.Services.of_createTexture_ok hmade
    rfl
  · unfold Package.Services.createTexture
    have hgallery : (v.services s).gallery = s.gallery := rfl
    rw [hgallery]
    cases s.gallery.create name width height <;> rfl

theorem respects_newTexture : (newTexture create c).Respects v := by
  have hmake : ∀ name width height, (do
      let id ← tryServices c (·.createTexture name width height)
      textureObject create id : Action Thing (List Value)).Respects v := fun name width height =>
    .bind (respects_createTexture name width height) respects_textureObject
  refine .bind (respects_lift _) fun name => .bind (respects_lift _) fun width => ?_
  refine .bind (respects_lift _) fun height => .bind (respects_look fun _ => rfl) fun most => ?_
  exact respects_ite (.bind (respects_lift _) fun _ => hmake _ _ _) (hmake _ _ _)

theorem respects_listTextures : listTextures.Respects v :=
  .bind (respects_look fun _ => rfl) fun _ => .bind (respects_onHeap _) fun _ => respects_pure _

theorem respects_setTexturePixel (id : Nat) : (setTexturePixel c id).Respects v := by
  refine .bind (respects_lift _) fun x => .bind (respects_lift _) fun y => .bind (respects_lift _) fun color => ?_
  refine .bind (respects_imageOf id) fun image => .bind (respects_lift _) fun image => ?_
  exact .bind (respects_onGallery _) fun _ => respects_self c

theorem respects_fillTexture (id : Nat) : (fillTexture c id).Respects v := by
  have hfill : ∀ unit : Vec4, (do
      let x ← c.int 0
      let y ← c.int 1
      let width ← c.int 2
      let height ← c.int 3
      let image ← orFail c
        ((← imageOf id).fill x.toInt y.toInt width.toInt height.toInt (.ofUnit unit))
      onGallery fun g => ((), g.editImage id fun _ => image)
      c.self : Action Thing (List Value)).Respects v := by
    intro unit
    refine .bind (respects_lift _) fun x => .bind (respects_lift _) fun y => .bind (respects_lift _) fun width => ?_
    refine .bind (respects_lift _) fun height => .bind (respects_imageOf id) fun image => ?_
    exact .bind (respects_lift _) fun image => .bind (respects_onGallery _) fun _ => respects_self c
  exact respects_ite (.bind (respects_lift _) fun _ => hfill _) (.bind (respects_lift _) fun _ => hfill _)

theorem respects_applyToTexture (id : Nat) : (applyToTexture c id).Respects v := by
  refine .bind (respects_object c _ _) fun (_, draft) => .bind (respects_look fun _ => rfl) fun target => ?_
  have happly : (do count (← onGallery fun g => g.applyDraft draft id) : Action Thing (List Value)).Respects v :=
    .bind (respects_onGallery _) fun _ => respects_count _
  exact respects_ite (.bind (respects_lift _) fun _ => happly) happly

theorem respects_readDraft (draft : Nat) : (readDraft c draft).Respects v := by
  refine .bind (respects_lift _) fun x => .bind (respects_lift _) fun y => .bind (respects_lift _) fun prefer => ?_
  exact .bind (respects_look fun _ => rfl) fun _ => .bind (respects_lift _) fun _ => respects_vector _

theorem respects_queuePixel (draft : Nat) : (queuePixel c draft).Respects v := by
  refine .bind (respects_lift _) fun x => .bind (respects_lift _) fun y => .bind (respects_lift _) fun color => ?_
  exact .bind (respects_tryGallery _) fun _ => respects_self c

theorem respects_cancelPixel (draft : Nat) : (cancelPixel c draft).Respects v :=
  .bind (respects_lift _) fun _ => .bind (respects_lift _) fun _ => .bind (respects_onGallery _) respects_truth

theorem respects_cancelRegion (draft : Nat) : (cancelRegion c draft).Respects v := by
  have hcancel : ∀ rect, (do
      count (← onGallery fun g => g.cancelRect draft rect) : Action Thing (List Value)).Respects v :=
    fun _ => .bind (respects_onGallery _) respects_count
  exact respects_ite (.bind (respects_lift _) fun _ => hcancel _) (.bind (respects_lift _) fun _ => hcancel _)

theorem respects_queueRegion
    (queue : Texture.Gallery → Nat → Texture.Rect → Texture.Color → Except Texture.Fault (Nat × Texture.Gallery))
    (draft : Nat) : (queueRegion queue c draft).Respects v :=
  .bind (respects_lift _) fun _ => .bind (respects_tryGallery _) respects_count

theorem respects_draftMeasure (measure : Texture.Image → Nat) (state : Nat) : (draftMeasure measure state).Respects v :=
  .bind (respects_thing _ _ _) fun _ => .bind (respects_look fun _ => rfl) fun _ => respects_pure _

/-! ## Events -/

/-- The functions registered for events change, and the object is given back. -/
theorem respects_callbacks (change : Std.ExtTreeMap String (List Value) → Std.ExtTreeMap String (List Value)) :
    (do
      Action.edit fun s => { s with callbacks := change s.callbacks }
      c.self : Action Thing (List Value)).Respects v :=
  .bind (respects_change (fun _ => rfl) fun _ => rfl) fun _ => respects_self c

end Things

/-! ## The surface -/

/-- A type whose members respect a view. -/
def RespectsAll (v : View) (t : TypeEntry Thing) : Prop := t.All fun _ m => m.Respects v

section Types

variable {t : TypeEntry Thing} {r : Registry Thing}

theorem respectsAll_empty (doc : String) : RespectsAll v (TypeEntry.describe {} doc) :=
  Bridge.TypeEntry.all_empty.describe doc

theorem RespectsAll.method (ht : RespectsAll v t) {name : String} (overloads : List Bridge.Signature)
    {run : Call → Action Thing (List Value)} (hrun : ∀ c, (run c).Respects v) :
    RespectsAll v (t.method name overloads run) := TypeEntry.All.method ht overloads fun _ => hrun

theorem RespectsAll.methods (ht : RespectsAll v t) {names : List String} (overloads : List Bridge.Signature)
    {run : Call → Action Thing (List Value)} (hrun : ∀ c, (run c).Respects v) :
    RespectsAll v (t.methods names overloads run) := TypeEntry.All.methods ht overloads fun _ _ _ => hrun

theorem RespectsAll.field (ht : RespectsAll v t) {name : String} {type : Bridge.ArgType}
    {get : Nat → Action Thing Value} (hget : ∀ state, (get state).Respects v) :
    RespectsAll v (t.field name type get) := TypeEntry.All.field ht hget

/-- A method on what its object stands for. -/
theorem RespectsAll.on (ht : RespectsAll v t) {name type : String} (overloads : List Bridge.Signature) {α : Type}
    {view : Thing → Option α} {run : Call → α → Action Thing (List Value)} (hrun : ∀ c a, (run c a).Respects v) :
    RespectsAll v (t.method name overloads (Api.on type view run)) :=
  ht.method overloads fun c => respects_on (hrun c)

theorem registerSounds_respects (hr : r.Respects v) : (registerSounds r create).Respects v := by
  refine (hr.register ?_).register ?_
  · exact (respectsAll_empty _).on _ fun _ _ => .bind (respects_lift _) fun _ => respects_newObject _ _
  · exact respectsAll_empty _
      |>.on _ (fun _ => respects_playSound)
      |>.on _ (fun _ => respects_stopSound)
      |>.on _ (fun _ => respects_pauseSound)
      |>.on _ (fun _ _ => respects_truth _)
      |>.on _ (fun _ _ => respects_text _)
      |>.on _ (fun _ _ => respects_vector _)
      |>.methods _ (fun _ => respects_setSound _)
      |>.on _ (fun _ _ => respects_number _)
      |>.methods _ (fun _ => respects_setSound _)
      |>.on _ (fun _ _ => respects_number _)
      |>.methods _ (fun _ => respects_setSound _)
      |>.on _ (fun _ _ => respects_truth _)
      |>.methods _ (fun _ => respects_setSound _)
      |>.on _ (fun _ _ => respects_number _)
      |>.methods _ (fun _ => respects_setSound _)

theorem registerParticles_respects (hr : r.Respects v) : (registerParticles r create).Respects v := by
  refine (hr.register ?_).register ?_
  · exact (respectsAll_empty _).on _ fun _ _ => .bind (respects_lift _) fun _ => .bind (respects_lift _) fun _ =>
      respects_newObject _ _
  · exact respectsAll_empty _
      |>.on _ (fun _ => respects_spawnParticle)
      |>.on _ (fun _ => respects_removeParticle)
      |>.on _ (fun _ _ => respects_truth _)
      |>.on _ (fun _ _ => respects_text _)
      |>.on _ (fun _ _ => respects_vector _)
      |>.methods _ (fun _ => respects_setParticle _)
      |>.on _ (fun _ _ => respects_vector _)
      |>.methods _ (fun _ => respects_setParticle _)
      |>.on _ (fun _ _ => respects_vector _)
      |>.methods _ (fun _ => respects_setParticle _)
      |>.on _ (fun _ _ => respects_pure _)
      |>.methods _ (fun _ => respects_setParticle _)
      |>.on _ (fun _ _ => respects_number _)
      |>.methods _ (fun _ => respects_setParticle _)
      |>.on _ (fun _ _ => respects_number _)
      |>.methods _ (fun _ => respects_setParticle _)
      |>.on _ (fun _ _ => respects_number _)
      |>.methods _ (fun _ => respects_setParticle _)
      |>.on _ (fun _ _ => respects_truth _)
      |>.methods _ (fun _ => respects_setParticle _)

theorem registerTextures_respects (hr : r.Respects v) : (registerTextures r create).Respects v := by
  refine ((hr.register ?_).register ?_).register ?_
  · exact respectsAll_empty _
      |>.on _ (fun _ _ => respects_findTexture)
      |>.on _ (fun _ _ => respects_newTexture)
      |>.on _ (fun _ _ => respects_listTextures)
  · exact respectsAll_empty _
      |>.on _ (fun _ _ => .bind (respects_imageOf _) fun _ => respects_text _)
      |>.on _ (fun _ _ => .bind (respects_imageOf _) fun _ => respects_pure _)
      |>.on _ (fun _ _ => .bind (respects_lift _) fun _ => .bind (respects_lift _) fun _ =>
        .bind (respects_imageOf _) fun _ => .bind (respects_lift _) fun _ => respects_vector _)
      |>.on _ (fun _ => respects_setTexturePixel)
      |>.on _ (fun _ => respects_fillTexture)
      |>.on _ (fun _ _ => .bind (respects_onGallery _) fun _ => respects_newObject _ _)
      |>.on _ (fun _ => respects_applyToTexture)
  · exact ((respectsAll_empty _).field (respects_draftMeasure _)).field (respects_draftMeasure _)
      |>.on _ (fun _ => respects_readDraft)
      |>.on _ (fun _ => respects_queuePixel)
      |>.on _ (fun _ => respects_cancelPixel)
      |>.on _ (fun _ => respects_cancelRegion)
      |>.on _ (fun _ => respects_queueRegion _)
      |>.on _ (fun _ => respects_queueRegion _)
      |>.on _ (fun _ _ => .bind (respects_look fun _ => rfl) fun _ => respects_count _)
      |>.on _ (fun _ _ => .bind (respects_onGallery _) fun _ => respects_count _)

theorem registerNameplate_respects (hr : r.Respects v) : (registerNameplate r).Respects v := by
  refine hr.register ?_
  exact respectsAll_empty _
    |>.method _ (fun _ => respects_showNameplate fun _ => respects_pure _)
    |>.methods _ (fun _ => respects_setNameplate _ _)
    |>.method _ (fun _ => respects_showNameplate fun _ => respects_truth _)
    |>.methods _ (fun _ => respects_setNameplate _ _)
    |>.method _ (fun _ => respects_showNameplate fun _ => respects_truth _)
    |>.methods _ (fun _ => respects_setNameplate _ _)
    |>.method _ (fun _ => respects_showNameplate fun _ => respects_truth _)
    |>.methods _ (fun _ => respects_setNameplate _ _)
    |>.method _ (fun _ => respects_showNameplate fun _ => respects_vector _)
    |>.methods _ (fun _ => respects_setNameplate _ _)
    |>.method _ (fun _ => respects_showNameplate fun _ => respects_vector _)
    |>.methods _ (fun _ => respects_setNameplate _ _)
    |>.method _ (fun _ => respects_showNameplate fun n => by
      cases n.background with
      | none => exact respects_pure _
      | some color => exact respects_vector _)
    |>.methods _ (fun _ => respects_setNameplate _ _)

theorem registerRender_respects (hr : r.Respects v) : (registerRender r).Respects v :=
  hr.register ((respectsAll_empty _).on _ fun _ _ => respects_setTextureOverride)

theorem registerNetwork_respects (hr : r.Respects v) : (registerNetwork r).Respects v :=
  hr.register ((respectsAll_empty _).on _ fun _ _ => respects_sendRequest)

theorem registerEvents_respects (hr : r.Respects v) : (registerEvents r).Respects v := by
  refine hr.register ?_
  exact respectsAll_empty _
    |>.on _ (fun _ _ => .bind (respects_lift _) fun name => .bind (respects_lift _) fun f =>
      respects_callbacks fun callbacks => callbacks.insert name (callbacks[name]?.getD [] ++ [f]))
    |>.on _ (fun _ _ => .bind (respects_lift _) fun name => respects_callbacks fun callbacks => callbacks.erase name)
    |>.on _ (fun _ _ => .bind (respects_lift _) fun _ => .bind (respects_look fun _ => rfl) fun _ =>
      respects_count _)

end Types

/-- Whatever scripts can reach of the host gives the same, and does the same, to what a view shows of it. -/
theorem surface_respects (v : View) : surface.Respects v :=
  registerEvents_respects (registerNetwork_respects (registerRender_respects (registerNameplate_respects
    (registerTextures_respects (registerParticles_respects (registerSounds_respects
      Bridge.Registry.all_empty))))))

end ScriptWarden.Api
