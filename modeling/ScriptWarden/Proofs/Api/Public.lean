import ScriptWarden.Api.Surface
import ScriptWarden.Proofs.Api.Refusal
import ScriptWarden.Proofs.Bridge.Public
set_option autoImplicit false

/-!
# API: the surface keeps the guard

Members give numbers, texts, new tables of numbers and objects.  The only values of scripts that the host keeps
are the functions registered for events.
-/

namespace ScriptWarden.Api

open Bridge (Action Call Member Registry TypeEntry)
open Lua (Closure IsPublic Value)

variable {guard : Closure}

/-! ## Services -/

section Services

variable {s s' : Services}

/-- The services after something that did not touch the registered functions. -/
theorem public_of_eq (hs : s.Public) (h : s'.callbacks = s.callbacks) : s'.Public := by
  intro name
  rw [h]
  exact hs name

theorem public_trustValue (hs : s.Public) (policy : Trust.Policy) (c : Trust.Capability) :
    (s.trustValue policy c).2.Public := by
  unfold Package.Services.trustValue
  split
  · exact hs
  · exact public_of_eq hs rfl

theorem public_check (hs : s.Public) (policy : Trust.Policy) (c : Trust.Capability) (least : Int) :
    (s.check policy c least).2.Public := by
  have htrust := public_trustValue hs policy c
  unfold Package.Services.check
  simp only
  split
  · exact public_of_eq htrust rfl
  · exact public_of_eq htrust rfl

theorem public_send (hs : s.Public) (request : Host.Request) : (s.send request).2.Public := by
  unfold Package.Services.send
  simp only
  split
  · exact public_of_eq hs rfl
  · exact public_of_eq hs rfl

theorem public_createTexture {name : String} {width height : Nat} {id : Nat} (hs : s.Public)
    (h : s.createTexture name width height = .ok (id, s')) : s'.Public := by
  obtain ⟨gallery, rfl⟩ := Package.Services.of_createTexture_ok h
  exact public_of_eq hs rfl

end Services

/-! ## Things -/

theorem keeps_thing_bind {α β : Type} [Lua.HasPublic β] (type : String) (state : Nat)
    (view : Thing → Option α) {k : α → Action Thing β} (hk : ∀ a, (k a).Keeps guard) :
    (thing type state view >>= k).Keeps guard := by
  intro shared w hw
  simp only [thing, Action.bind_apply, Action.look]
  cases (w.host.states[state]?).bind view with
  | none => exact ⟨hw.later, Lua.isPublic_error _⟩
  | some a => exact hk a shared w hw

theorem keeps_on {α : Type} {type : String} {view : Thing → Option α}
    {run : Call → α → Action Thing (List Value)} {c : Call} (h : ∀ a, (run c a).Keeps guard) :
    (on type view run c).Keeps guard := keeps_thing_bind _ _ _ h

theorem keeps_self {c : Call} (hc : IsPublic c.this) :
    (c.self : Action Thing (List Value)).Keeps guard := Action.keeps_pure (by simpa using hc)

/-- An edit of the services that does not touch the registered functions. -/
theorem keeps_edit_bind {f : Services → Services} {k : Unit → Action Thing (List Value)}
    (hf : ∀ s, (f s).callbacks = s.callbacks) (hk : (k ()).Keeps guard) :
    (Action.edit f >>= k).Keeps guard :=
  Action.keeps_onServices_bind (fun s hs => public_of_eq hs (hf s)) fun _ => hk

theorem keeps_put_bind {c : Call} {t : Thing} {k : Unit → Action Thing (List Value)}
    (hk : (k ()).Keeps guard) : (put c t >>= k).Keeps guard := keeps_edit_bind (fun _ => rfl) hk

theorem keeps_create (type : String) (t : Thing) : (create type t).Keeps guard := by
  refine Action.keeps_onServices_bind (fun s hs => public_of_eq hs rfl) fun state => ?_
  exact Action.keeps_onServices fun s hs => ⟨Lua.isPublic_object _, public_of_eq hs rfl⟩

/-- A new object as the only result. -/
theorem keeps_newObject (type : String) (t : Thing) :
    (do return [← create type t] : Action Thing (List Value)).Keeps guard :=
  (keeps_create type t).bind fun _ hv => Action.keeps_pure (by simpa using hv)

/-- A table of numbers holds numbers. -/
theorem only_numbers (entries : List (String × Float)) {t : Lua.Table} (ht : IsPublic t) :
    IsPublic (entries.foldl (fun t (name, x) => t.setText name (.float x)) t) := by
  induction entries generalizing t with
  | nil => exact ht
  | cons entry rest ih =>
    have hname : IsPublic (Value.text entry.1) := Lua.isPublic_text _
    exact ih (ht.setKey Lua.isPublic_nil _ hname (Lua.isPublic_float entry.2))

theorem only_empty : IsPublic ({} : Lua.Table) := Lua.Table.only_empty

theorem keeps_vector (xs : List Float) : (vector xs).Keeps guard := by
  refine Action.Keeps.bind (Action.keeps_onHeap (fun shared h hh => ?_) (fun _ => rfl) fun _ => rfl)
    fun id _ => Action.keeps_pure (by simp)
  exact ⟨trivial, hh.newTable (only_numbers _ only_empty)⟩

theorem keeps_truth (b : Bool) : (truth b).Keeps guard := Action.keeps_pure (by simp)

theorem keeps_number (x : Float) : (number x).Keeps guard := Action.keeps_pure (by simp)

theorem keeps_count (n : Nat) : (count n).Keeps guard := by
  refine Action.keeps_pure ((Lua.isPublic_cons _ _).2 ⟨?_, Lua.isPublic_emptyList⟩)
  unfold wordValue
  split
  · exact Lua.isPublic_nat n
  · exact Lua.isPublic_float _

theorem keeps_text (s : String) : (text s).Keeps guard := Action.keeps_pure (by simp)

/-! ## Sounds -/

section Methods

variable {c : Call}

theorem keeps_setSound (change : Call → Sound → Except String Sound) (hc : IsPublic c.this) :
    (setSound change c).Keeps guard :=
  keeps_on fun _ => Action.keeps_lift_bind fun _ _ => keeps_put_bind (keeps_self hc)

theorem keeps_playSound (hc : IsPublic c.this) (s : Sound) : (playSound c s).Keeps guard := by
  have hself : (c.self : Action Thing (List Value)).Keeps guard := keeps_self hc
  refine Action.keeps_ite (hself.bind fun _ hvs => Action.keeps_pure hvs) ?_
  refine Action.keeps_onServices_bind (fun s hs => public_of_eq hs rfl) fun granted => ?_
  refine Action.keeps_ite ?_ hself
  refine Action.keeps_onServices_bind (fun s hs => public_trustValue hs _ _) fun percent => ?_
  exact keeps_edit_bind (fun _ => rfl) (keeps_put_bind hself)

theorem keeps_stopSound (hc : IsPublic c.this) (s : Sound) : (stopSound c s).Keeps guard :=
  Action.keeps_ite (keeps_edit_bind (fun _ => rfl) (keeps_put_bind (keeps_self hc)))
    (keeps_put_bind (keeps_self hc))

theorem keeps_pauseSound (hc : IsPublic c.this) (s : Sound) : (pauseSound c s).Keeps guard :=
  Action.keeps_ite (keeps_edit_bind (fun _ => rfl) (keeps_put_bind (keeps_self hc))) (keeps_self hc)

/-! ## Particles -/

theorem keeps_setParticle (change : Call → Particle → Except String Particle) (hc : IsPublic c.this) :
    (setParticle change c).Keeps guard :=
  keeps_on fun _ => Action.keeps_lift_bind fun _ _ => keeps_put_bind (keeps_self hc)

theorem keeps_spawnParticle (hc : IsPublic c.this) (p : Particle) : (spawnParticle c p).Keeps guard := by
  have hself : (c.self : Action Thing (List Value)).Keeps guard := keeps_self hc
  refine Action.keeps_onServices_bind (fun s hs => public_of_eq hs rfl) fun granted => ?_
  have hshow : (do
      let handle ← Action.onServices (·.takeHandle)
      Action.edit (·.tell (.spawn (p.shown handle)))
      put c (.particle { p with handle := some handle })
      c.self : Action Thing (List Value)).Keeps guard := by
    refine Action.keeps_onServices_bind (fun s hs => public_of_eq hs rfl) fun handle => ?_
    exact keeps_edit_bind (fun _ => rfl) (keeps_put_bind hself)
  refine Action.keeps_ite ?_ hself
  split
  · exact keeps_edit_bind (fun _ => rfl) hshow
  · exact hshow

theorem keeps_removeParticle (hc : IsPublic c.this) (p : Particle) :
    (removeParticle c p).Keeps guard := by
  unfold removeParticle
  split
  · exact keeps_edit_bind (fun _ => rfl) (keeps_put_bind (keeps_self hc))
  · exact keeps_self hc

/-! ## The nameplate, the renderer and the network -/

theorem keeps_showNameplate {run : Host.Nameplate → Action Thing (List Value)}
    (h : ∀ n, (run n).Keeps guard) : (showNameplate run c).Keeps guard :=
  keeps_on fun _ => Action.keeps_look_bind _ h

theorem keeps_setNameplate {α : Type} (read : Call → Except String α)
    (change : α → Host.Nameplate → Host.Nameplate) (hc : IsPublic c.this) :
    (setNameplate read change c).Keeps guard := by
  have hself : (c.self : Action Thing (List Value)).Keeps guard := keeps_self hc
  refine keeps_on fun _ => Action.keeps_lift_bind fun a _ => ?_
  refine Action.keeps_onServices_bind (fun s hs => public_check hs _ _ _) fun granted => ?_
  exact Action.keeps_ite (keeps_edit_bind (fun _ => rfl) hself) hself

theorem keeps_setTextureOverride : (setTextureOverride c).Keeps guard := by
  refine Action.keeps_lift_bind fun ⟨kind, value⟩ _ => ?_
  refine Action.keeps_onServices_bind (fun s hs => public_check hs _ _ _) fun granted => ?_
  exact Action.keeps_ite (keeps_edit_bind (fun _ => rfl) (keeps_truth _)) (keeps_truth _)

theorem keeps_sendRequest : (sendRequest c).Keeps guard := by
  refine Action.keeps_lift_bind fun request _ => ?_
  refine Action.keeps_onServices_bind (fun s hs => public_of_eq hs rfl) fun granted => ?_
  refine Action.keeps_ite ?_ (Action.keeps_pure (by simp))
  exact Action.keeps_onServices_bind (fun s hs => public_send hs request) fun id => keeps_count id

/-! ## Images -/

theorem keeps_onGallery_bind {α : Type} (f : Texture.Gallery → α × Texture.Gallery)
    {k : α → Action Thing (List Value)} (hk : ∀ a, (k a).Keeps guard) :
    (onGallery f >>= k).Keeps guard :=
  Action.keeps_onServices_bind (fun _ hs => public_of_eq hs rfl) hk

theorem keeps_tryServices_bind {α : Type} {f : Services → Except Texture.Fault (α × Services)}
    (hf : ∀ s a s', s.Public → f s = .ok (a, s') → s'.Public) {k : α → Action Thing (List Value)}
    (hk : ∀ a, (k a).Keeps guard) : (tryServices c f >>= k).Keeps guard := by
  intro shared w hw
  rw [Action.bind_apply, tryServices_apply]
  cases hmade : f w.host with
  | error e => exact ⟨hw.later, Lua.isPublic_error _⟩
  | ok made =>
    have hafter := hf _ _ _ hw.2 hmade
    exact hk made.1 shared ⟨w.heap, made.2, w.meter⟩ ⟨hw.1, hafter⟩

theorem keeps_tryGallery_bind {α : Type} (f : Texture.Gallery → Except Texture.Fault (α × Texture.Gallery))
    {k : α → Action Thing (List Value)} (hk : ∀ a, (k a).Keeps guard) :
    (tryGallery c f >>= k).Keeps guard := by
  refine keeps_tryServices_bind (fun s a s' hs h => ?_) hk
  obtain ⟨gallery, -, rfl⟩ := Package.Services.of_gallery_ok h
  exact public_of_eq hs rfl

theorem keeps_textureObject (id : Nat) : (textureObject create id).Keeps guard :=
  keeps_onGallery_bind _ fun _ => keeps_newObject _ _

theorem keeps_findTexture : (findTexture create c).Keeps guard := by
  refine Action.keeps_lift_bind fun name _ => Action.keeps_look_bind _ fun found => ?_
  split
  · exact keeps_textureObject _
  · exact Action.keeps_pure (by simp)

theorem keeps_newTexture : (newTexture create c).Keeps guard := by
  refine Action.keeps_lift_bind fun name _ => Action.keeps_lift_bind fun width _ => ?_
  refine Action.keeps_lift_bind fun height _ => Action.keeps_look_bind _ fun most => ?_
  have hmake : (do
      let id ← tryServices c (·.createTexture name width.toInt.toNat height.toInt.toNat)
      textureObject create id : Action Thing (List Value)).Keeps guard :=
    keeps_tryServices_bind (fun _ _ _ hs h => public_createTexture hs h) fun id => keeps_textureObject id
  exact Action.keeps_ite (Action.keeps_lift_bind fun _ _ => hmake) hmake

theorem keeps_listTextures : listTextures.Keeps guard := by
  refine Action.keeps_look_bind _ fun names => ?_
  refine Action.Keeps.bind (Action.keeps_onHeap (fun shared h hh => ?_) (fun _ => rfl) fun _ => rfl)
    fun id _ => Action.keeps_pure (by simp)
  refine ⟨trivial, Lua.Library.guarded_newList hh fun v hv => ?_⟩
  obtain ⟨name, _, rfl⟩ := List.mem_map.1 hv
  exact Lua.isPublic_text name

theorem keeps_setTexturePixel (hc : IsPublic c.this) (id : Nat) :
    (setTexturePixel c id).Keeps guard := by
  refine Action.keeps_lift_bind fun x _ => Action.keeps_lift_bind fun y _ => ?_
  refine Action.keeps_lift_bind fun color _ => Action.keeps_look_bind _ fun image => ?_
  exact Action.keeps_lift_bind fun image _ => keeps_onGallery_bind _ fun _ => keeps_self hc

theorem keeps_fillTexture (hc : IsPublic c.this) (id : Nat) : (fillTexture c id).Keeps guard := by
  have hfill : ∀ unit : Vec4, (do
      let x ← c.int 0
      let y ← c.int 1
      let width ← c.int 2
      let height ← c.int 3
      let image ← orFail c
        ((← imageOf id).fill x.toInt y.toInt width.toInt height.toInt (.ofUnit unit))
      onGallery fun g => ((), g.editImage id fun _ => image)
      c.self : Action Thing (List Value)).Keeps guard := by
    intro unit
    refine Action.keeps_lift_bind fun x _ => Action.keeps_lift_bind fun y _ => ?_
    refine Action.keeps_lift_bind fun width _ => Action.keeps_lift_bind fun height _ => ?_
    refine Action.keeps_look_bind _ fun image => Action.keeps_lift_bind fun image _ => ?_
    exact keeps_onGallery_bind _ fun _ => keeps_self hc
  exact Action.keeps_ite (Action.keeps_lift_bind fun _ _ => hfill _)
    (Action.keeps_lift_bind fun _ _ => hfill _)

theorem keeps_object_bind {α : Type} (i : Nat) (view : Thing → Option α)
    {k : Nat × α → Action Thing (List Value)} (hk : ∀ a, (k a).Keeps guard) :
    (c.object i view >>= k).Keeps guard := by
  intro shared w hw
  rw [Call.object, Action.bind_apply, Action.bind_apply, Action.lift_apply]
  cases c.stateOf i with
  | error e => exact ⟨hw.later, Lua.isPublic_error _⟩
  | ok state =>
    simp only [Action.bind_apply, Action.look]
    cases (w.host.states[state]?).bind view with
    | none => exact ⟨hw.later, Lua.isPublic_error _⟩
    | some a => exact hk (state, a) shared w hw

theorem keeps_applyToTexture (id : Nat) : (applyToTexture c id).Keeps guard := by
  refine keeps_object_bind _ _ fun ⟨_, draft⟩ => Action.keeps_look_bind _ fun target => ?_
  have happly : (do
      count (← onGallery fun g => g.applyDraft draft id) : Action Thing (List Value)).Keeps guard :=
    keeps_onGallery_bind _ fun _ => keeps_count _
  exact Action.keeps_ite (Action.keeps_lift_bind fun _ _ => happly) happly

theorem keeps_readDraft (draft : Nat) : (readDraft c draft).Keeps guard := by
  refine Action.keeps_lift_bind fun x _ => Action.keeps_lift_bind fun y _ => ?_
  refine Action.keeps_lift_bind fun prefer _ => Action.keeps_look_bind _ fun gallery => ?_
  exact Action.keeps_lift_bind fun color _ => keeps_vector _

theorem keeps_queuePixel (hc : IsPublic c.this) (draft : Nat) : (queuePixel c draft).Keeps guard := by
  refine Action.keeps_lift_bind fun x _ => Action.keeps_lift_bind fun y _ => ?_
  exact Action.keeps_lift_bind fun color _ => keeps_tryGallery_bind _ fun _ => keeps_self hc

theorem keeps_cancelPixel (draft : Nat) : (cancelPixel c draft).Keeps guard :=
  Action.keeps_lift_bind fun _ _ => Action.keeps_lift_bind fun _ _ =>
    keeps_onGallery_bind _ fun _ => keeps_truth _

theorem keeps_cancelRegion (draft : Nat) : (cancelRegion c draft).Keeps guard := by
  have hcancel : ∀ rect : Texture.Rect, (do
      count (← onGallery fun g => g.cancelRect draft rect) : Action Thing (List Value)).Keeps guard :=
    fun _ => keeps_onGallery_bind _ fun _ => keeps_count _
  exact Action.keeps_ite (Action.keeps_lift_bind fun _ _ => hcancel _)
    (Action.keeps_lift_bind fun _ _ => hcancel _)

theorem keeps_queueRegion
    (queue : Texture.Gallery → Nat → Texture.Rect → Texture.Color →
      Except Texture.Fault (Nat × Texture.Gallery)) (draft : Nat) :
    (queueRegion queue c draft).Keeps guard :=
  Action.keeps_lift_bind fun _ _ => keeps_tryGallery_bind _ fun _ => keeps_count _

theorem keeps_draftMeasure (measure : Texture.Image → Nat) (state : Nat) :
    (draftMeasure measure state).Keeps guard :=
  keeps_thing_bind _ _ _ fun _ => Action.keeps_look_bind _ fun _ =>
    Action.keeps_pure (Lua.isPublic_nat _)

/-! ## Events -/

theorem public_function {i : Nat} {f : Value} (harguments : IsPublic c.arguments)
    (h : c.function i = .ok f) : IsPublic f := by
  have hargument : IsPublic (c.argument i) := by
    unfold Call.argument
    cases hi : c.arguments[i]? with
    | none => exact trivial
    | some a => exact harguments a (List.mem_of_getElem? hi)
  unfold Call.function Call.read at h
  cases ha : c.argument i with
  | function g =>
    rw [ha] at h hargument
    cases h
    exact hargument
  | _ =>
    rw [ha] at h
    cases h

theorem public_insert {s : Services} (hs : s.Public) (name : String) {fs : List Value}
    (hfs : IsPublic fs) :
    Package.Services.Public { s with callbacks := s.callbacks.insert name fs } := by
  intro other
  rw [Std.ExtTreeMap.getElem?_insert]
  split
  · exact hfs
  · exact hs other

theorem public_erase {s : Services} (hs : s.Public) (name : String) :
    Package.Services.Public { s with callbacks := s.callbacks.erase name } := by
  intro other
  rw [Std.ExtTreeMap.getElem?_erase]
  split
  · exact Lua.isPublic_emptyList
  · exact hs other

theorem keeps_register (hc : IsPublic c.this) (harguments : IsPublic c.arguments) : (do
    let name ← eventOf c
    let f ← c.function 1
    Action.edit fun s => { s with callbacks := s.callbacks.insert name (callbacksOf s name ++ [f]) }
    c.self : Action Thing (List Value)).Keeps guard := by
  refine Action.keeps_lift_bind fun name _ => Action.keeps_lift_bind fun f hf => ?_
  refine Action.keeps_onServices_bind (fun s hs => public_insert hs name ?_) fun _ => keeps_self hc
  exact (Lua.isPublic_append _ _).2 ⟨hs name, by simpa using public_function harguments hf⟩

theorem keeps_clear (hc : IsPublic c.this) : (do
    let name ← eventOf c
    Action.edit fun s => { s with callbacks := s.callbacks.erase name }
    c.self : Action Thing (List Value)).Keeps guard := by
  refine Action.keeps_lift_bind fun name _ => ?_
  exact Action.keeps_onServices_bind (fun s hs => public_erase hs name) fun _ => keeps_self hc

end Methods

/-! ## The surface -/

open Bridge.TypeEntry (all_empty)

/-- A type whose members keep the guard. -/
def KeepsAll (guard : Closure) (t : TypeEntry Thing) : Prop := t.All fun _ m => m.Keeps guard

theorem keepsAll_empty (doc : String) : KeepsAll guard (TypeEntry.describe {} doc) :=
  all_empty.describe doc

section Types

variable {t : TypeEntry Thing} {r : Registry Thing}

theorem KeepsAll.method (ht : KeepsAll guard t) {name : String} (overloads : List Bridge.Signature)
    {run : Call → Action Thing (List Value)}
    (hrun : ∀ c : Call, IsPublic c.this → IsPublic c.arguments → (run c).Keeps guard) :
    KeepsAll guard (t.method name overloads run) :=
  TypeEntry.All.method ht overloads fun _ => hrun

theorem KeepsAll.methods (ht : KeepsAll guard t) {names : List String}
    (overloads : List Bridge.Signature) {run : Call → Action Thing (List Value)}
    (hrun : ∀ c : Call, IsPublic c.this → IsPublic c.arguments → (run c).Keeps guard) :
    KeepsAll guard (t.methods names overloads run) :=
  TypeEntry.All.methods ht overloads fun _ _ _ => hrun

theorem KeepsAll.field (ht : KeepsAll guard t) {name : String} {type : Bridge.ArgType}
    {get : Nat → Action Thing Value} (hget : ∀ state, (get state).Keeps guard) :
    KeepsAll guard (t.field name type get) := TypeEntry.All.field ht hget

/-- A getter: a method that shows something of what its object stands for. -/
theorem KeepsAll.getter (ht : KeepsAll guard t) {name type : String} (overloads : List Bridge.Signature)
    {α : Type} {view : Thing → Option α} {show_ : Call → α → Action Thing (List Value)}
    (hshow : ∀ c a, (show_ c a).Keeps guard) :
    KeepsAll guard (t.method name overloads (on type view show_)) :=
  ht.method overloads fun c _ _ => keeps_on (hshow c)

theorem registerSounds_keeps (hr : r.Keeps guard) : (registerSounds r create).Keeps guard := by
  refine (hr.register ?_).register ?_
  · exact (keepsAll_empty _).getter _ fun _ _ => Action.keeps_lift_bind fun _ _ => keeps_newObject _ _
  · exact keepsAll_empty _
      |>.method _ (fun _ hc _ => keeps_on (keeps_playSound hc))
      |>.method _ (fun _ hc _ => keeps_on (keeps_stopSound hc))
      |>.method _ (fun _ hc _ => keeps_on (keeps_pauseSound hc))
      |>.getter _ (fun _ _ => keeps_truth _)
      |>.getter _ (fun _ _ => keeps_text _)
      |>.getter _ (fun _ _ => keeps_vector _)
      |>.methods _ (fun _ hc _ => keeps_setSound _ hc)
      |>.getter _ (fun _ _ => keeps_number _)
      |>.methods _ (fun _ hc _ => keeps_setSound _ hc)
      |>.getter _ (fun _ _ => keeps_number _)
      |>.methods _ (fun _ hc _ => keeps_setSound _ hc)
      |>.getter _ (fun _ _ => keeps_truth _)
      |>.methods _ (fun _ hc _ => keeps_setSound _ hc)
      |>.getter _ (fun _ _ => keeps_number _)
      |>.methods _ (fun _ hc _ => keeps_setSound _ hc)

theorem registerParticles_keeps (hr : r.Keeps guard) : (registerParticles r create).Keeps guard := by
  refine (hr.register ?_).register ?_
  · exact (keepsAll_empty _).getter _ fun _ _ => Action.keeps_lift_bind fun _ _ =>
      Action.keeps_lift_bind fun _ _ => keeps_newObject _ _
  · exact keepsAll_empty _
      |>.method _ (fun _ hc _ => keeps_on (keeps_spawnParticle hc))
      |>.method _ (fun _ hc _ => keeps_on (keeps_removeParticle hc))
      |>.getter _ (fun _ _ => keeps_truth _)
      |>.getter _ (fun _ _ => keeps_text _)
      |>.getter _ (fun _ _ => keeps_vector _)
      |>.methods _ (fun _ hc _ => keeps_setParticle _ hc)
      |>.getter _ (fun _ _ => keeps_vector _)
      |>.methods _ (fun _ hc _ => keeps_setParticle _ hc)
      |>.getter _ (fun _ _ => keeps_vector _)
      |>.methods _ (fun _ hc _ => keeps_setParticle _ hc)
      |>.getter _ (fun _ _ => Action.keeps_pure (by simp))
      |>.methods _ (fun _ hc _ => keeps_setParticle _ hc)
      |>.getter _ (fun _ _ => keeps_number _)
      |>.methods _ (fun _ hc _ => keeps_setParticle _ hc)
      |>.getter _ (fun _ _ => keeps_number _)
      |>.methods _ (fun _ hc _ => keeps_setParticle _ hc)
      |>.getter _ (fun _ _ => keeps_number _)
      |>.methods _ (fun _ hc _ => keeps_setParticle _ hc)
      |>.getter _ (fun _ _ => keeps_truth _)
      |>.methods _ (fun _ hc _ => keeps_setParticle _ hc)

theorem registerTextures_keeps (hr : r.Keeps guard) : (registerTextures r create).Keeps guard := by
  refine ((hr.register ?_).register ?_).register ?_
  · exact keepsAll_empty _
      |>.getter _ (fun _ _ => keeps_findTexture)
      |>.getter _ (fun _ _ => keeps_newTexture)
      |>.getter _ (fun _ _ => keeps_listTextures)
  · exact keepsAll_empty _
      |>.getter _ (fun _ _ => Action.keeps_look_bind _ fun _ => keeps_text _)
      |>.getter _ (fun _ _ => Action.keeps_look_bind _ fun _ => Action.keeps_pure (by simp))
      |>.getter _ (fun _ _ => Action.keeps_lift_bind fun _ _ => Action.keeps_lift_bind fun _ _ =>
        Action.keeps_look_bind _ fun _ => Action.keeps_lift_bind fun _ _ => keeps_vector _)
      |>.method _ (fun _ hc _ => keeps_on (keeps_setTexturePixel hc))
      |>.method _ (fun _ hc _ => keeps_on (keeps_fillTexture hc))
      |>.getter _ (fun _ _ => keeps_onGallery_bind _ fun _ => keeps_newObject _ _)
      |>.getter _ (fun _ => keeps_applyToTexture)
  · exact ((keepsAll_empty _).field (keeps_draftMeasure _)).field (keeps_draftMeasure _)
      |>.getter _ (fun _ => keeps_readDraft)
      |>.method _ (fun _ hc _ => keeps_on (keeps_queuePixel hc))
      |>.getter _ (fun _ => keeps_cancelPixel)
      |>.getter _ (fun _ => keeps_cancelRegion)
      |>.getter _ (fun _ => keeps_queueRegion _)
      |>.getter _ (fun _ => keeps_queueRegion _)
      |>.getter _ (fun _ _ => Action.keeps_look_bind _ fun _ => keeps_count _)
      |>.getter _ (fun _ _ => keeps_onGallery_bind _ fun _ => keeps_count _)

theorem registerNameplate_keeps (hr : r.Keeps guard) : (registerNameplate r).Keeps guard := by
  refine hr.register ?_
  exact keepsAll_empty _
    |>.method _ (fun _ _ _ => keeps_showNameplate fun n => Action.keeps_pure (by cases n.text <;> simp))
    |>.methods _ (fun _ hc _ => keeps_setNameplate _ _ hc)
    |>.method _ (fun _ _ _ => keeps_showNameplate fun _ => keeps_truth _)
    |>.methods _ (fun _ hc _ => keeps_setNameplate _ _ hc)
    |>.method _ (fun _ _ _ => keeps_showNameplate fun _ => keeps_truth _)
    |>.methods _ (fun _ hc _ => keeps_setNameplate _ _ hc)
    |>.method _ (fun _ _ _ => keeps_showNameplate fun _ => keeps_truth _)
    |>.methods _ (fun _ hc _ => keeps_setNameplate _ _ hc)
    |>.method _ (fun _ _ _ => keeps_showNameplate fun _ => keeps_vector _)
    |>.methods _ (fun _ hc _ => keeps_setNameplate _ _ hc)
    |>.method _ (fun _ _ _ => keeps_showNameplate fun _ => keeps_vector _)
    |>.methods _ (fun _ hc _ => keeps_setNameplate _ _ hc)
    |>.method _ (fun _ _ _ => keeps_showNameplate fun n => by
      cases n.background with
      | none => exact Action.keeps_pure (by simp)
      | some v => exact keeps_vector _)
    |>.methods _ (fun _ hc _ => keeps_setNameplate _ _ hc)

theorem registerRender_keeps (hr : r.Keeps guard) : (registerRender r).Keeps guard :=
  hr.register ((keepsAll_empty _).getter _ fun _ _ => keeps_setTextureOverride)

theorem registerNetwork_keeps (hr : r.Keeps guard) : (registerNetwork r).Keeps guard :=
  hr.register ((keepsAll_empty _).getter _ fun _ _ => keeps_sendRequest)

theorem registerEvents_keeps (hr : r.Keeps guard) : (registerEvents r).Keeps guard := by
  refine hr.register ?_
  exact keepsAll_empty _
    |>.method _ (fun _ hc harguments => keeps_on fun _ => keeps_register hc harguments)
    |>.method _ (fun _ hc _ => keeps_on fun _ => keeps_clear hc)
    |>.getter _ (fun _ _ => Action.keeps_lift_bind fun _ _ => Action.keeps_look_bind _ fun _ =>
      keeps_count _)

end Types

/-- Whatever scripts can reach of the host keeps the guard. -/
theorem surface_keeps (guard : Closure) : surface.Keeps guard :=
  registerEvents_keeps (registerNetwork_keeps (registerRender_keeps (registerNameplate_keeps
    (registerTextures_keeps (registerParticles_keeps (registerSounds_keeps
      Bridge.Registry.all_empty))))))

end ScriptWarden.Api
