import ScriptWarden.Proofs.Api.Kinds
import ScriptWarden.Proofs.Api.Readers
import ScriptWarden.Proofs.Api.Refusal
set_option autoImplicit false

/-!
# API: methods have an order

Every method reads its arguments, checks them, and only then takes something from a budget, changes a thing, an image
or the services, or tells the host; what it does then never fails (`Orderly`).  One lemma for each method that does more
than show what it is called on.
-/

namespace ScriptWarden.Api

open Bridge (Action Call Readable required reads_object)
open Lua (Value)
open Texture (Gallery)
open Trust (Capability)

variable {k : Kind} {state : Nat} {c : Call}

/-! ## Results -/

theorem serves_self : Serves state k (c.self : Action Thing (List Value)) := serves_pure _

theorem serves_truth (b : Bool) : Serves state k (truth b) := serves_pure _

theorem serves_number (x : Float) : Serves state k (number x) := serves_pure _

theorem serves_count (n : Nat) : Serves state k (count n) := serves_pure _

theorem serves_text (s : String) : Serves state k (text s) := serves_pure _

theorem serves_vector (xs : List Float) : Serves state k (vector xs) :=
  (serves_onHeap _).bind fun _ => serves_pure _

/-! ## Changes -/

theorem serves_put (c : Call) (t : Thing) : Serves c.state t.kind (put c t) :=
  ⟨fun _ => ⟨(), rfl⟩, fun _ h => ⟨.put h, rfl⟩⟩

/-- A thing is changed, and the object itself is the result. -/
theorem serves_putSound (s : Sound) : Serves c.state .sound (put c (.sound s) >>= fun _ => c.self) :=
  (serves_put c (.sound s)).bind fun _ => serves_self

theorem serves_putParticle (p : Particle) : Serves c.state .particle (put c (.particle p) >>= fun _ => c.self) :=
  (serves_put c (.particle p)).bind fun _ => serves_self

theorem serves_create {type : String} {t : Thing} (h : t.kind = kindOf type) : Serves state k (create type t) :=
  ⟨fun _ => ⟨_, rfl⟩, fun _ _ => ⟨.create h, rfl⟩⟩

theorem serves_tell (call : Host.Call) : Serves state k (Action.edit (·.tell call)) := serves_edit fun _ => rfl

theorem serves_tryUse (x : Capability) : Serves state k (Action.onServices (·.tryUse x)) :=
  serves_onServices fun _ => rfl

theorem serves_trustValue (policy : Trust.Policy) (x : Capability) :
    Serves state k (Action.onServices (·.trustValue policy x)) :=
  serves_onServices fun s => Package.Services.trustValue_keeps policy s (fun _ _ => rfl) x

theorem serves_check (policy : Trust.Policy) (x : Capability) (least : Int) :
    Serves state k (Action.onServices (·.check policy x least)) := by
  refine serves_onServices fun s => ?_
  refine Eq.trans ?_ (Package.Services.trustValue_keeps policy s (fun _ _ => rfl) x)
  unfold Package.Services.check
  simp only
  split <;> rfl

theorem serves_onGallery {α : Type} (f : Gallery → α × Gallery) : Serves state k (onGallery f) :=
  serves_onServices fun _ => rfl

/-! ## Sounds -/

theorem serves_playSound (s : Sound) : Serves c.state .sound (playSound c s) := by
  unfold playSound
  refine .ite serves_self ?_
  refine (serves_tryUse _).bind fun granted => .ite ?_ serves_self
  exact (serves_trustValue _ _).bind fun percent => (serves_tell _).bind fun _ => serves_putSound _

theorem serves_stopSound (s : Sound) : Serves c.state .sound (stopSound c s) :=
  .ite ((serves_tell _).bind fun _ => serves_putSound _) (serves_putSound _)

theorem serves_pauseSound (s : Sound) : Serves c.state .sound (pauseSound c s) :=
  .ite ((serves_tell _).bind fun _ => serves_putSound _) serves_self

/-! ## Particles -/

theorem serves_spawnParticle (p : Particle) : Serves c.state .particle (spawnParticle c p) := by
  unfold spawnParticle
  refine (serves_tryUse _).bind fun granted => .ite ?_ serves_self
  have hshow : Serves c.state .particle (do
      let handle ← Action.onServices (·.takeHandle)
      Action.edit (·.tell (.spawn (p.shown handle)))
      put c (.particle { p with handle := some handle })
      c.self) :=
    (serves_onServices fun _ => rfl).bind fun handle => (serves_tell _).bind fun _ => serves_putParticle _
  simp only
  split
  · exact (serves_tell _).bind fun _ => hshow
  · exact hshow

theorem serves_removeParticle (p : Particle) : Serves c.state .particle (removeParticle c p) := by
  unfold removeParticle
  split
  · exact (serves_tell _).bind fun _ => serves_putParticle _
  · exact serves_self

theorem orderly_newParticle (h : c.Accepted particleOverloads) : Orderly c k (do
    let name ← c.text 0
    let pos ← particlePlace c
    return [← create particleType (.particle { name, pos })]) :=
  .read (readable_particleName h) fun _ => .read (readable_particlePlace h) fun _ =>
    ((serves_create rfl).bind fun _ => serves_pure _).orderly

/-! ## The nameplate, the renderer, the network and events -/

theorem orderly_setNameplate {α : Type} {read : Call → Except String α} (hread : Readable (read c))
    (change : α → Host.Nameplate → Host.Nameplate) : Orderly c k (do
      let a ← read c
      if ← Action.onServices (·.check c.policy .nameplateEdit 1) then
        Action.edit (·.editNameplate (change a))
      c.self) := by
  have hchange (a : α) : Serves c.state k (Action.edit (·.editNameplate (change a))) := serves_edit fun _ => rfl
  refine .read hread fun a => ((serves_check _ _ _).bind fun granted => ?_).orderly
  exact .ite ((hchange a).bind fun _ => serves_self) serves_self

theorem orderly_setTextureOverride (hkind : Readable (c.text 0)) (hvalue : Readable (c.optional 1 Call.text)) :
    Orderly c k (setTextureOverride c) := by
  refine .check (fun e => objection_of_overrideOf hkind hvalue) fun (kind, value) => ?_
  refine ((serves_check _ _ _).bind fun granted => ?_).orderly
  exact .ite ((serves_tell _).bind fun _ => serves_truth _) (serves_truth _)

theorem serves_send (request : Host.Request) : Serves state k (Action.onServices (·.send request)) := by
  refine serves_onServices fun s => ?_
  unfold Package.Services.send
  simp only
  split <;> rfl

theorem orderly_sendRequest (hpath : Readable (c.text 0)) (hmethod : Readable (c.optional 1 Call.text))
    (hbody : Readable (c.optional 2 Call.text)) : Orderly c k (sendRequest c) := by
  refine .check (fun e => objection_of_requestOf hpath hmethod hbody) fun request => ?_
  refine ((serves_tryUse _).bind fun granted => ?_).orderly
  exact .ite ((serves_send _).bind fun _ => serves_count _) (serves_pure _)

theorem serves_callbacks (f : Services → Std.ExtTreeMap String (List Value)) :
    Serves state k (do
      Action.edit fun s => { s with callbacks := f s }
      c.self) := by
  refine Serves.bind ?_ fun _ => serves_self
  exact serves_edit fun _ => rfl

/-! ## Images -/

section Images

variable {id draft : Nat}

theorem objection_of_orFail {α : Type} {x : Except Texture.Fault α} {e : String} (he : orFail c x = .error e) :
    Bridge.Objection c.method e := by
  cases x with
  | error fault =>
    cases he
    exact objection_of_fault fault
  | ok a => cases he

/-- A change of the services that may be refused, and leaves objects, states, modules and functions of methods alone. -/
theorem orderly_tryServices {α : Type} {f : Services → Except Texture.Fault (α × Services)}
    (hf : ∀ s a s', f s = .ok (a, s') → lasting s' = lasting s) :
    Orderly c k (tryServices c f) := by
  have hcases (w : Lua.World Services) : (∃ e, (tryServices c f) w = (.error e, w) ∧ Bridge.Objection c.method e) ∨
      ∃ a s', f w.host = .ok (a, s') ∧ (tryServices c f) w = (.ok a, ⟨w.heap, s', w.meter⟩) := by
    rw [tryServices_apply]
    cases hdone : f w.host with
    | error fault => exact .inl ⟨_, rfl, objection_of_fault fault⟩
    | ok made => exact .inr ⟨made.1, made.2, rfl, rfl⟩
  constructor
  · intro w e w' h
    obtain ⟨e', heq, -⟩ | ⟨a, s', -, heq⟩ := hcases w
    · rw [heq] at h
      cases h
      rfl
    · rw [heq] at h
      cases h
  · intro w e _ h
    obtain ⟨e', heq, hobjection⟩ | ⟨a, s', -, heq⟩ := hcases w
    · rw [heq] at h
      cases h
      exact hobjection
    · rw [heq] at h
      cases h
  · intro w _
    obtain ⟨e', heq, -⟩ | ⟨a, s', hdone, heq⟩ := hcases w
    · rw [heq]
      exact .refl _
    · rw [heq]
      exact .of_lasting (hf _ a s' hdone)

theorem orderly_tryGallery {α : Type} (f : Gallery → Except Texture.Fault (α × Gallery)) :
    Orderly c k (tryGallery c f) := by
  refine orderly_tryServices fun s a s' h => ?_
  obtain ⟨gallery, -, rfl⟩ := Package.Services.of_gallery_ok h
  rfl

theorem serves_textureObject : Serves state k (textureObject create id) :=
  (serves_onGallery _).bind fun _ => (serves_create rfl).bind fun _ => serves_pure _

theorem orderly_findTexture (hname : Readable (c.text 0)) : Orderly c k (findTexture create c) := by
  refine .read hname fun name => .look fun found => ?_
  split
  · exact serves_textureObject.orderly
  · exact (serves_pure _).orderly

theorem orderly_createTexture (name : String) (width height : Nat) :
    Orderly c k (tryServices c (·.createTexture name width height)) := by
  refine orderly_tryServices fun s a s' h => ?_
  obtain ⟨gallery, rfl⟩ := Package.Services.of_createTexture_ok h
  rfl

theorem orderly_newTexture (hname : Readable (c.text 0)) (hwidth : Readable (c.int 1))
    (hheight : Readable (c.int 2)) : Orderly c k (newTexture create c) := by
  refine .read hname fun name => .read hwidth fun width => .read hheight fun height => .look fun most => ?_
  have hmake : Orderly c k (do
      let id ← tryServices c (·.createTexture name width.toInt.toNat height.toInt.toNat)
      textureObject create id) := (orderly_createTexture _ _ _).before fun _ => serves_textureObject
  refine .ite (fun _ => .check (fun e he => ?_) fun _ => hmake) fun _ => hmake
  cases he
  exact objection_of_fault _

theorem serves_listTextures : Serves state k listTextures :=
  (serves_look _).bind fun _ => (serves_onHeap _).bind fun _ => serves_pure _

theorem orderly_getPixel (hx : Readable (c.int 0)) (hy : Readable (c.int 1)) : Orderly c k (do
    let x ← c.int 0
    let y ← c.int 1
    vector (← orFail c ((← imageOf id).get x.toInt y.toInt)).toUnit.toList) :=
  .read hx fun _ => .read hy fun _ => .look fun _ => .check (fun _ => objection_of_orFail) fun _ =>
    (serves_vector _).orderly

theorem orderly_setTexturePixel (h : c.Accepted pixelOverloads) : Orderly c k (setTexturePixel c id) := by
  obtain ⟨hx, hy⟩ := readable_pixelPlace h
  refine .read hx fun x => .read hy fun y => .read (readable_pixelColor h) fun color => .look fun image => ?_
  refine .check (fun _ => objection_of_orFail) fun image => ?_
  exact ((serves_onGallery _).bind fun _ => serves_self).orderly

theorem orderly_fillTexture (h : c.Accepted fillOverloads) : Orderly c k (fillTexture c id) := by
  have hpaint (hx : Readable (c.int 0)) (hy : Readable (c.int 1)) (hwidth : Readable (c.int 2))
      (hheight : Readable (c.int 3)) (unit : Vec4) : Orderly c k (do
        let x ← c.int 0
        let y ← c.int 1
        let width ← c.int 2
        let height ← c.int 3
        let image ← orFail c ((← imageOf id).fill x.toInt y.toInt width.toInt height.toInt (.ofUnit unit))
        onGallery fun g => ((), g.editImage id fun _ => image)
        c.self) :=
    .read hx fun _ => .read hy fun _ => .read hwidth fun _ => .read hheight fun _ => .look fun _ =>
      .check (fun _ => objection_of_orFail) fun _ => ((serves_onGallery _).bind fun _ => serves_self).orderly
  unfold fillTexture
  obtain ⟨h0, hx, hy, hwidth, hheight, hrgb, -⟩ | ⟨h1, hx, hy, hwidth, hheight, hrgba, -⟩ | hnone := h.fits
  · rw [if_pos h0]
    exact .read (Call.readable_vec3 hrgb) fun _ => hpaint (Call.readable_int hx) (Call.readable_int hy)
      (Call.readable_int hwidth) (Call.readable_int hheight) _
  · rw [if_neg (by simp [h1])]
    exact .read (Call.readable_vec4 hrgba) fun _ => hpaint (Call.readable_int hx) (Call.readable_int hy)
      (Call.readable_int hwidth) (Call.readable_int hheight) _
  · cases hnone

/-- An object that stands for a thing of its type can be seen as one. -/
theorem object_succeeds {α : Type} {i : Nat} {type : String} {view : Thing → Option α} {w : Lua.World Services}
    (hargument : c.argument i = .object type state) (hview : Views view (kindOf type))
    (hkind : kindAt w.host state = some (kindOf type)) : ∃ x, (c.object i view w).1 = .ok x := by
  obtain ⟨t, ht, hkind⟩ := Option.map_eq_some_iff.1 hkind
  obtain ⟨a, ha⟩ := Option.isSome_iff_exists.1 ((hview t).2 hkind)
  have hid : c.stateOf i = .ok state := by
    simp only [Call.stateOf, Call.read, hargument]
    rfl
  refine ⟨(state, a), ?_⟩
  unfold Call.object
  simp only [hid, Action.bind_apply, Action.lift_apply, Action.look, ht, Option.bind_some, ha]
  rfl

theorem orderly_applyToTexture (h : c.Accepted [[required "context" (.object draftType)]]) :
    Orderly c k (applyToTexture c id) := by
  obtain ⟨state, hargument⟩ := Call.object_of_takes (fits_of_one h).1
  refine .after (reads_object _ _ _) (fun w e hfounded he => ?_) fun _ (_, draft) _ => .look fun target => ?_
  · have hkind := (hfounded 0 draftType state hargument).resolve_left (by decide)
    obtain ⟨x, hx⟩ := object_succeeds hargument views_draft hkind
    rw [hx] at he
    cases he
  · have happly : Orderly c k (do count (← onGallery fun g => g.applyDraft draft id)) :=
      ((serves_onGallery _).bind fun _ => serves_count _).orderly
    refine .ite (fun _ => .check (fun e he => ?_) fun _ => happly) fun _ => happly
    cases he
    exact Bridge.objection_of_head (x := 'c') rfl (by decide)

theorem orderly_readDraft (hx : Readable (c.int 0)) (hy : Readable (c.int 1))
    (hprefer : Readable (c.optional 2 Call.bool)) : Orderly c k (readDraft c draft) :=
  .read hx fun _ => .read hy fun _ => .read hprefer fun _ => .look fun _ =>
    .check (fun _ => objection_of_orFail) fun _ => (serves_vector _).orderly

theorem orderly_queuePixel (h : c.Accepted pixelOverloads) : Orderly c k (queuePixel c draft) := by
  obtain ⟨hx, hy⟩ := readable_pixelPlace h
  refine .read hx fun x => .read hy fun y => .read (readable_pixelColor h) fun color => ?_
  exact (orderly_tryGallery _).before fun _ => serves_self

theorem orderly_cancelPixel (hx : Readable (c.int 0)) (hy : Readable (c.int 1)) :
    Orderly c k (cancelPixel c draft) :=
  .read hx fun _ => .read hy fun _ => ((serves_onGallery _).bind fun _ => serves_truth _).orderly

theorem orderly_cancelRegion (h : c.Accepted [integers ["x1", "y1", "x2", "y2"], [required "rect" .vec4]]) :
    Orderly c k (cancelRegion c draft) := by
  have hcancel (rect : Texture.Rect) : Orderly c k (do count (← onGallery fun g => g.cancelRect draft rect)) :=
    ((serves_onGallery _).bind fun _ => serves_count _).orderly
  unfold cancelRegion
  obtain ⟨h0, hcorners⟩ | ⟨h1, hrect, -⟩ | hnone := h.fits
  · rw [if_pos h0]
    exact .read (readable_cornersOf hcorners) fun _ => hcancel _
  · rw [if_neg (by simp [h1])]
    exact .read (Call.readable_vec4 hrect) fun _ => hcancel _
  · cases hnone

theorem orderly_queueRegion (h : c.Accepted regionOverloads)
    (queue : Gallery → Nat → Texture.Rect → Texture.Color → Except Texture.Fault (Nat × Gallery)) :
    Orderly c k (queueRegion queue c draft) :=
  .read (readable_regionOf h) fun _ => (orderly_tryGallery _).before fun _ => serves_count _

end Images

end ScriptWarden.Api
