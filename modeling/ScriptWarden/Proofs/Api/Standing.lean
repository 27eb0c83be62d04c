import ScriptWarden.Proofs.Api.Methods
import ScriptWarden.Proofs.Package.Turn
set_option autoImplicit false

/-!
# API: functions and numbers

What stands between a package and its host from one call to the next are the functions that it registered for events,
and the numbers under which the host knows its particles and requests.  Five methods of the surface change any of it,
and all others leave it alone (`surface_sparing`): two register functions or drop them, and three use numbers.  What a
call can do to any of it, whichever method it is of, is one of the ways of `Alters` (`bridgeCall_cases`).
-/

namespace ScriptWarden

open Bridge (Action Call Member Registry Signature TypeEntry)
open Lua (Value World)
open Texture (Fault Gallery)

/-! ## Numbers -/

namespace Host

/-- A call of the host about a particle or a request that goes by a number. -/
inductive NumberCall where
  | spawn (handle : Nat)
  | remove (handle : Nat)
  | request (id : Nat)
  deriving DecidableEq, Repr

/-- What a call of the host does with a number, if it is about one. -/
def Call.number? : Call → Option NumberCall
  | .spawn p => some (.spawn p.handle)
  | .remove handle => some (.remove handle)
  | .request token _ => some (.request token.request)
  | _ => none

end Host

namespace Package

open Host (NumberCall)

/-- The package that makes a call of the host about a number, and the call. -/
def Effect.number? : Effect → Option (String × NumberCall)
  | .call package c => c.number?.map (package, ·)
  | _ => none

/-- The calls of the host about numbers among some effects. -/
def numbered (effects : List Effect) : List (String × NumberCall) := effects.filterMap Effect.number?

theorem numbered_cons_none {e : Effect} (effects : List Effect) (h : e.number? = none) :
    numbered (e :: effects) = numbered effects := List.filterMap_cons_none h

end Package

namespace Api

open Host (NumberCall)
open Package (numbered)

/-- The number under which the host shows a thing. -/
def Thing.handle? : Thing → Option Nat
  | .particle p => p.handle
  | _ => none

/-- The number under which the host shows what a state is of. -/
def handleAt (s : Services) (state : Nat) : Option Nat := (s.states[state]?).bind Thing.handle?

/-- The numbers of a package: the next one, the calls that are about numbers, and which of them its things have. -/
def numbers (s : Services) : Nat × List (String × NumberCall) × (Nat → Option Nat) × String :=
  (s.nextHandle, numbered s.outbox, handleAt s, s.package)

/-- The functions and the numbers of a package. -/
def standing (s : Services) : Std.ExtTreeMap String (List Value) × Nat × List (String × NumberCall) ×
    (Nat → Option Nat) × String := (s.callbacks, numbers s)

section States

variable {s : Services}

theorem handleAt_eq_of_standing {s' : Services} (h : standing s' = standing s) : handleAt s' = handleAt s :=
  congrArg (·.2.2.2.1) h

/-- A thing takes the place of another one. -/
theorem handleAt_put {state : Nat} {t t' : Thing} (h : s.states[state]? = some t') :
    handleAt { s with states := s.states.setIfInBounds state t } =
      Function.update (handleAt s) state t.handle? := by
  funext state'
  unfold handleAt
  simp only [Array.getElem?_setIfInBounds]
  by_cases hstate : state = state'
  · subst hstate
    obtain ⟨hbound, -⟩ := Array.getElem?_eq_some_iff.1 h
    simp [hbound]
  · rw [if_neg hstate, Function.update_of_ne (Ne.symm hstate)]

/-- A thing that shows the same number takes the place of another one. -/
theorem handleAt_put_same {state : Nat} {t : Thing} (h : handleAt s state = t.handle?) :
    handleAt { s with states := s.states.setIfInBounds state t } = handleAt s := by
  cases hold : s.states[state]? with
  | some t' => rw [handleAt_put hold, ← h, Function.update_eq_self]
  | none =>
    rw [Array.getElem?_eq_none_iff] at hold
    rw [Array.setIfInBounds_eq_of_size_le hold]

/-- A new thing shows nothing. -/
theorem handleAt_push {t : Thing} (h : t.handle? = none) :
    handleAt { s with states := s.states.push t } = handleAt s := by
  funext state
  unfold handleAt
  simp only [Array.getElem?_push]
  split
  · next hstate =>
    rw [hstate, Array.getElem?_eq_none (Nat.le_refl _)]
    exact h
  · rfl

end States

/-! ## Actions -/

variable {α β : Type} {state : Nat} {shown : Option Nat}

/-- An action that leaves functions and numbers alone, if a state shows a number, or none. -/
def Spares (state : Nat) (shown : Option Nat) (a : Action Thing α) : Prop :=
  ∀ w, handleAt w.host state = shown → standing (a w).2.host = standing w.host

/-- An action that leaves functions and numbers alone. -/
def Idle (a : Action Thing α) : Prop := ∀ w, standing (a w).2.host = standing w.host

theorem Spares.bind {a : Action Thing α} {f : α → Action Thing β} (ha : Spares state shown a)
    (hf : ∀ x, Spares state shown (f x)) : Spares state shown (a >>= f) := by
  intro w hshown
  refine Action.bind_keeps (P := fun w' => standing w'.host = standing w.host) (ha w hshown) fun x w' h => ?_
  exact (hf x w' ((congrFun (handleAt_eq_of_standing h) state).trans hshown)).trans h

theorem spares_ite {c : Prop} [Decidable c] {a b : Action Thing α} (ha : Spares state shown a)
    (hb : Spares state shown b) : Spares state shown (if c then a else b) := by
  split
  · exact ha
  · exact hb

theorem spares_pure (a : α) : Spares state shown (pure a) := fun _ _ => rfl

theorem spares_lift (x : Except String α) : Spares state shown (liftM x) := fun _ _ => rfl

theorem spares_lift_bind {x : Except String α} {f : α → Action Thing β}
    (h : ∀ a, x = .ok a → Spares state shown (f a)) : Spares state shown (liftM x >>= f) := by
  cases x with
  | error e => exact fun _ _ => rfl
  | ok a => exact h a rfl

theorem spares_look (f : Services → α) : Spares state shown (Action.look f) := fun _ _ => rfl

theorem spares_onHeap (f : Lua.Heap → α × Lua.Heap) : Spares state shown (Action.onHeap f) := fun _ _ => rfl

theorem spares_onServices {f : Services → α × Services} (h : ∀ s, standing (f s).2 = standing s) :
    Spares state shown (Action.onServices f) := fun w _ => h w.host

theorem spares_edit {f : Services → Services} (h : ∀ s, standing (f s) = standing s) :
    Spares state shown (Action.edit f) := spares_onServices h

/-- Something for the world outside that is not about a number. -/
theorem standing_emit (s : Services) {e : Package.Effect} (h : e.number? = none) :
    standing (s.emit e) = standing s := by
  unfold standing numbers
  rw [Package.Services.emit, Package.numbered_cons_none _ h]
  rfl

theorem standing_note (s : Services) (d : Diagnostic) : standing (s.note d) = standing s := standing_emit s rfl

theorem spares_tell {call : Services → Host.Call} (h : ∀ s, (call s).number? = none) :
    Spares state shown (Action.edit fun s => s.tell (call s)) :=
  spares_edit fun s => standing_emit s (by simp [Package.Effect.number?, h])

/-! ## Things -/

section Things

variable {c : Call}

/-- A view of things that show no numbers. -/
def Plain (view : Thing → Option α) : Prop := ∀ t a, view t = some a → t.handle? = none

theorem plain_service : Plain Thing.service? := by
  rintro (_ | _ | _ | _ | _) _ ⟨⟩
  rfl

theorem plain_sound : Plain Thing.sound? := by
  rintro (_ | _ | _ | _ | _) _ ⟨⟩
  rfl

theorem plain_texture : Plain Thing.texture? := by
  rintro (_ | _ | _ | _ | _) _ ⟨⟩
  rfl

theorem plain_draft : Plain Thing.draft? := by
  rintro (_ | _ | _ | _ | _) _ ⟨⟩
  rfl

/-- A method of a thing, which shows a number or none. -/
theorem idle_on {type : String} {view : Thing → Option α} {run : Call → α → Action Thing (List Value)}
    (h : ∀ t a, view t = some a → Spares c.state t.handle? (run c a)) : Idle (on type view run c) := by
  intro w
  unfold on thing
  simp only [Action.bind_apply, Action.look]
  cases hview : (w.host.states[c.state]?).bind view with
  | none => rfl
  | some a =>
    obtain ⟨t, hstate, ht⟩ := Option.bind_eq_some_iff.1 hview
    exact h t a ht w (by rw [handleAt, hstate]; rfl)

theorem spares_self (c : Call) : Spares state shown (c.self : Action Thing (List Value)) := spares_pure _

/-- An object changes, but not its number, and is given back. -/
theorem spares_update {t : Thing} (h : t.handle? = shown) :
    Spares c.state shown (do put c t; c.self : Action Thing (List Value)) := by
  refine .bind (fun w hshown => ?_) fun _ => spares_self c
  change standing { w.host with states := w.host.states.setIfInBounds c.state t } = standing w.host
  unfold standing numbers
  rw [handleAt_put_same (hshown.trans h.symm)]

/-- A new object as the only result. -/
theorem spares_newObject (type : String) {t : Thing} (h : t.handle? = none) :
    Spares state shown (do return [← create type t] : Action Thing (List Value)) := by
  refine .bind (.bind (spares_onServices fun s => ?_) fun _ => spares_onServices fun _ => rfl) fun _ => spares_pure _
  change standing { s with states := s.states.push t } = standing s
  unfold standing numbers
  rw [handleAt_push h]

theorem spares_vector (xs : List Float) : Spares state shown (vector xs) :=
  .bind (spares_onHeap _) fun _ => spares_pure _

theorem spares_truth (b : Bool) : Spares state shown (truth b) := spares_pure _

theorem spares_number (x : Float) : Spares state shown (number x) := spares_pure _

theorem spares_count (n : Nat) : Spares state shown (count n) := spares_pure _

theorem spares_text (s : String) : Spares state shown (text s) := spares_pure _

/-! ## Trust -/

theorem standing_trustValue (policy : Trust.Policy) (capability : Trust.Capability) (s : Services) :
    standing (s.trustValue policy capability).2 = standing s :=
  Package.Services.trustValue_keeps policy s standing_note capability

theorem spares_tryUse (capability : Trust.Capability) :
    Spares state shown (Action.onServices (·.tryUse capability) : Action Thing Bool) := spares_onServices fun _ => rfl

theorem spares_trustValue (policy : Trust.Policy) (capability : Trust.Capability) :
    Spares state shown (Action.onServices (·.trustValue policy capability) : Action Thing Trust.Effective) :=
  spares_onServices (standing_trustValue policy capability)

theorem spares_check (policy : Trust.Policy) (capability : Trust.Capability) (least : Int) :
    Spares state shown (Action.onServices (·.check policy capability least) : Action Thing Bool) := by
  refine spares_onServices fun s => Eq.trans ?_ (standing_trustValue policy capability s)
  unfold Package.Services.check
  simp only
  split <;> rfl

/-! ## Sounds and particles -/

theorem idle_setSound (change : Call → Sound → Except String Sound) : Idle (setSound change c) :=
  idle_on fun t _ ht => .bind (spares_lift _) fun _ => spares_update (plain_sound t _ ht).symm

theorem spares_playSound (s : Sound) : Spares c.state none (playSound c s) := by
  refine spares_ite (.bind (spares_self c) fun _ => spares_pure _) ?_
  refine .bind (spares_tryUse _) fun granted => spares_ite ?_ (spares_self c)
  refine .bind (spares_trustValue _ _) fun percent => ?_
  exact .bind (spares_tell fun _ => rfl) fun _ => spares_update rfl

theorem spares_stopSound (s : Sound) : Spares c.state none (stopSound c s) :=
  spares_ite (.bind (spares_tell fun _ => rfl) fun _ => spares_update rfl) (spares_update rfl)

theorem spares_pauseSound (s : Sound) : Spares c.state none (pauseSound c s) :=
  spares_ite (.bind (spares_tell fun _ => rfl) fun _ => spares_update rfl) (spares_self c)

theorem eq_of_particle? {t : Thing} {p : Particle} (h : t.particle? = some p) : t = .particle p := by
  cases t with
  | particle p' => exact congrArg Thing.particle (Option.some.inj h)
  | _ => cases h

/-- A setter keeps the number of its particle. -/
theorem idle_setParticle {read : Call → Except String α} {change : Particle → α → Particle}
    (h : ∀ p a, (change p a).handle = p.handle) :
    Idle (setParticle (fun c p => do return change p (← read c)) c) := by
  refine idle_on fun t p ht => spares_lift_bind fun p' hp' => ?_
  obtain rfl := eq_of_particle? ht
  obtain ⟨a, -, hchanged⟩ := exists_of_bind_ok hp'
  cases hchanged
  exact spares_update (h p a)

/-! ## The nameplate, the renderer and the network -/

theorem idle_showNameplate {run : Host.Nameplate → Action Thing (List Value)}
    (h : ∀ n, Spares c.state none (run n)) : Idle (showNameplate run c) :=
  idle_on fun t _ ht => plain_service t _ ht ▸ .bind (spares_look _) h

theorem idle_setNameplate (read : Call → Except String α) (change : α → Host.Nameplate → Host.Nameplate) :
    Idle (setNameplate read change c) := by
  refine idle_on fun t _ _ => .bind (spares_lift _) fun a => .bind (spares_check _ _ _) fun granted => ?_
  exact spares_ite (.bind (spares_edit fun s => standing_emit _ rfl) fun _ => spares_self c) (spares_self c)

theorem spares_setTextureOverride : Spares state shown (setTextureOverride c) := by
  refine .bind (spares_lift _) fun (kind, value) => .bind (spares_check _ _ _) fun granted => ?_
  exact spares_ite (.bind (spares_tell fun _ => rfl) fun _ => spares_truth _) (spares_truth _)

/-! ## Images -/

theorem spares_onGallery (f : Gallery → α × Gallery) : Spares state shown (onGallery f) :=
  spares_onServices fun _ => rfl

theorem spares_tryServices {f : Services → Except Fault (α × Services)}
    (h : ∀ s a s', f s = .ok (a, s') → standing s' = standing s) : Spares state shown (tryServices c f) := by
  intro w _
  rw [tryServices_apply]
  cases hf : f w.host with
  | error e => rfl
  | ok made => exact h w.host made.1 made.2 hf

theorem spares_tryGallery (f : Gallery → Except Fault (α × Gallery)) : Spares state shown (tryGallery c f) := by
  refine spares_tryServices fun s a s' hmade => ?_
  obtain ⟨gallery, -, rfl⟩ := Package.Services.of_gallery_ok hmade
  rfl

theorem spares_textureObject (id : Nat) : Spares state shown (textureObject create id) :=
  .bind (spares_onGallery _) fun _ => spares_newObject _ rfl

theorem spares_findTexture : Spares state shown (findTexture create c) := by
  refine .bind (spares_lift _) fun name => .bind (spares_look _) fun found => ?_
  split
  · exact spares_textureObject _
  · exact spares_pure _

theorem standing_createTexture {s s' : Services} {name : String} {width height id : Nat}
    (h : s.createTexture name width height = .ok (id, s')) : standing s' = standing s := by
  obtain ⟨gallery, rfl⟩ := Package.Services.of_createTexture_ok h
  rfl

theorem spares_newTexture : Spares state shown (newTexture create c) := by
  have hmake (name : String) (width height : Nat) : Spares state shown (do
      let id ← tryServices c (·.createTexture name width height)
      textureObject create id : Action Thing (List Value)) :=
    .bind (spares_tryServices fun _ _ _ => standing_createTexture) spares_textureObject
  refine .bind (spares_lift _) fun name => .bind (spares_lift _) fun width => ?_
  refine .bind (spares_lift _) fun height => .bind (spares_look _) fun most => ?_
  exact spares_ite (.bind (spares_lift _) fun _ => hmake _ _ _) (hmake _ _ _)

theorem spares_listTextures : Spares state shown listTextures :=
  .bind (spares_look _) fun _ => .bind (spares_onHeap _) fun _ => spares_pure _

theorem spares_setTexturePixel (id : Nat) : Spares state shown (setTexturePixel c id) := by
  refine .bind (spares_lift _) fun x => .bind (spares_lift _) fun y => .bind (spares_lift _) fun color => ?_
  refine .bind (spares_look _) fun image => .bind (spares_lift _) fun painted => ?_
  exact .bind (spares_onGallery _) fun _ => spares_self c

theorem spares_fillTexture (id : Nat) : Spares state shown (fillTexture c id) := by
  have hfill (unit : Vec4) : Spares state shown (do
      let x ← c.int 0
      let y ← c.int 1
      let width ← c.int 2
      let height ← c.int 3
      let image ← orFail c
        ((← imageOf id).fill x.toInt y.toInt width.toInt height.toInt (.ofUnit unit))
      onGallery fun g => ((), g.editImage id fun _ => image)
      c.self : Action Thing (List Value)) := by
    refine .bind (spares_lift _) fun x => .bind (spares_lift _) fun y => .bind (spares_lift _) fun width => ?_
    refine .bind (spares_lift _) fun height => .bind (spares_look _) fun image => ?_
    refine .bind (spares_lift _) fun painted => ?_
    exact .bind (spares_onGallery _) fun _ => spares_self c
  exact spares_ite (.bind (spares_lift _) fun _ => hfill _) (.bind (spares_lift _) fun _ => hfill _)

theorem spares_applyToTexture (id : Nat) : Spares state shown (applyToTexture c id) := by
  refine .bind (fun w _ => by rw [Bridge.reads_object c _ _ w]) fun (_, draft) => ?_
  refine .bind (spares_look _) fun target => ?_
  have happly : Spares state shown (do
      count (← onGallery fun g => g.applyDraft draft id) : Action Thing (List Value)) :=
    .bind (spares_onGallery _) fun _ => spares_count _
  exact spares_ite (.bind (spares_lift _) fun _ => happly) happly

theorem spares_readDraft (draft : Nat) : Spares state shown (readDraft c draft) := by
  refine .bind (spares_lift _) fun x => .bind (spares_lift _) fun y => .bind (spares_lift _) fun prefer => ?_
  exact .bind (spares_look _) fun _ => .bind (spares_lift _) fun _ => spares_vector _

theorem spares_queuePixel (draft : Nat) : Spares state shown (queuePixel c draft) := by
  refine .bind (spares_lift _) fun x => .bind (spares_lift _) fun y => .bind (spares_lift _) fun color => ?_
  exact .bind (spares_tryGallery _) fun _ => spares_self c

theorem spares_cancelPixel (draft : Nat) : Spares state shown (cancelPixel c draft) :=
  .bind (spares_lift _) fun _ => .bind (spares_lift _) fun _ => .bind (spares_onGallery _) spares_truth

theorem spares_cancelRegion (draft : Nat) : Spares state shown (cancelRegion c draft) := by
  have hcancel (rect : Texture.Rect) : Spares state shown (do
      count (← onGallery fun g => g.cancelRect draft rect) : Action Thing (List Value)) :=
    .bind (spares_onGallery _) spares_count
  exact spares_ite (.bind (spares_lift _) fun _ => hcancel _) (.bind (spares_lift _) fun _ => hcancel _)

theorem spares_queueRegion (queue : Gallery → Nat → Texture.Rect → Texture.Color → Except Fault (Nat × Gallery))
    (draft : Nat) : Spares state shown (queueRegion queue c draft) :=
  .bind (spares_lift _) fun _ => .bind (spares_tryGallery _) spares_count

end Things

/-! ## The surface -/

/-- The methods that change functions or numbers. -/
def standingMethods : List (String × String) :=
  [(particleType, "spawn"), (particleType, "remove"), (networkType, "request"), (eventsType, "register"),
    (eventsType, "clear")]

/-- A member leaves functions and numbers alone, unless it is one of those methods. -/
def Sparing (type name : String) : Member Thing → Prop
  | .method _ run => (type, name) ∉ standingMethods → ∀ c, Idle (run c)
  | .field _ get => ∀ state, (get state).Reads

end Api

namespace Bridge.TypeEntry.All

open Api (Idle Plain Spares Sparing Thing)

variable {α : Type} {type : String} {t : TypeEntry Thing}

/-- A method of a thing without a number. -/
theorem spare (ht : t.All (Sparing type)) {name : String} (overloads : List Signature) {view : Thing → Option α}
    {run : Call → α → Action Thing (List Value)} (hview : Plain view)
    (hrun : ∀ c a, Spares c.state none (run c a)) :
    (t.method name overloads (Api.on type view run)).All (Sparing type) :=
  ht.method overloads fun _ _ c => Api.idle_on fun t a ha => (hview t a ha) ▸ hrun c a

/-- A method of a particle. -/
theorem reports (ht : t.All (Sparing type)) {name : String} (overloads : List Signature)
    {run : Call → Api.Particle → Action Thing (List Value)} (hrun : ∀ c p, Spares c.state p.handle (run c p)) :
    (t.method name overloads (Api.on type Thing.particle? run)).All (Sparing type) :=
  ht.method overloads fun _ _ c => Api.idle_on fun _ p hp => (Api.eq_of_particle? hp) ▸ hrun c p

/-- A setter of a particle. -/
theorem setParticle {t : TypeEntry Thing} (ht : t.All (Sparing Api.particleType)) {names : List String}
    (overloads : List Signature) {read : Call → Except String α} {change : Api.Particle → α → Api.Particle}
    (h : ∀ p a, (change p a).handle = p.handle) :
    (t.methods names overloads (Api.setParticle fun c p => do return change p (← read c))).All
      (Sparing Api.particleType) :=
  ht.methods overloads fun _ _ _ _ _ => Api.idle_setParticle h

/-- A method under several names, on whatever it is. -/
theorem spares (ht : t.All (Sparing type)) {names : List String} (overloads : List Signature)
    {run : Call → Action Thing (List Value)} (hrun : ∀ c, Idle (run c)) :
    (t.methods names overloads run).All (Sparing type) := ht.methods overloads fun _ _ _ _ => hrun

/-- A method on whatever it is. -/
theorem idle (ht : t.All (Sparing type)) {name : String} (overloads : List Signature)
    {run : Call → Action Thing (List Value)} (hrun : ∀ c, Idle (run c)) :
    (t.method name overloads run).All (Sparing type) := ht.method overloads fun _ _ => hrun

/-- A method that changes functions or numbers. -/
theorem stands (ht : t.All (Sparing type)) {name : String} (overloads : List Signature)
    {run : Call → Action Thing (List Value)} (hname : (type, name) ∈ Api.standingMethods) :
    (t.method name overloads run).All (Sparing type) := ht.method overloads fun _ hnot => absurd hname hnot

end Bridge.TypeEntry.All

namespace Api

open Bridge.TypeEntry (all_empty)
open Host (NumberCall)
open Package (numbered)

/-- A type without members. -/
theorem sparing_nothing (type doc : String) : (TypeEntry.describe {} doc).All (Sparing type) := all_empty.describe doc

variable {r : Registry Thing}

theorem registerSounds_sparing (hr : r.All Sparing) : (registerSounds r create).All Sparing := by
  refine (hr.register ?_).register ?_
  · exact (sparing_nothing soundMaker _).spare _ plain_service fun _ _ =>
      .bind (spares_lift _) fun _ => spares_newObject _ rfl
  · exact sparing_nothing soundType _
      |>.spare _ plain_sound (fun _ => spares_playSound)
      |>.spare _ plain_sound (fun _ => spares_stopSound)
      |>.spare _ plain_sound (fun _ => spares_pauseSound)
      |>.spare _ plain_sound (fun _ _ => spares_truth _)
      |>.spare _ plain_sound (fun _ _ => spares_text _)
      |>.spare _ plain_sound (fun _ _ => spares_vector _)
      |>.spares _ (fun _ => idle_setSound _)
      |>.spare _ plain_sound (fun _ _ => spares_number _)
      |>.spares _ (fun _ => idle_setSound _)
      |>.spare _ plain_sound (fun _ _ => spares_number _)
      |>.spares _ (fun _ => idle_setSound _)
      |>.spare _ plain_sound (fun _ _ => spares_truth _)
      |>.spares _ (fun _ => idle_setSound _)
      |>.spare _ plain_sound (fun _ _ => spares_number _)
      |>.spares _ (fun _ => idle_setSound _)

theorem registerParticles_sparing (hr : r.All Sparing) : (registerParticles r create).All Sparing := by
  refine (hr.register ?_).register ?_
  · exact (sparing_nothing particleMaker _).spare _ plain_service fun _ _ => .bind (spares_lift _) fun _ =>
      .bind (spares_lift _) fun _ => spares_newObject _ rfl
  · exact sparing_nothing particleType _
      |>.stands _ (by decide)
      |>.stands _ (by decide)
      |>.reports _ (fun _ _ => spares_truth _)
      |>.reports _ (fun _ _ => spares_text _)
      |>.reports _ (fun _ _ => spares_vector _)
      |>.setParticle _ (fun _ _ => by rfl)
      |>.reports _ (fun _ _ => spares_vector _)
      |>.setParticle _ (fun _ _ => by rfl)
      |>.reports _ (fun _ _ => spares_vector _)
      |>.setParticle _ (fun _ _ => by rfl)
      |>.reports _ (fun _ _ => spares_pure _)
      |>.setParticle _ (fun _ _ => by rfl)
      |>.reports _ (fun _ _ => spares_number _)
      |>.setParticle _ (fun _ _ => by rfl)
      |>.reports _ (fun _ _ => spares_number _)
      |>.setParticle _ (fun _ _ => by rfl)
      |>.reports _ (fun _ _ => spares_number _)
      |>.setParticle _ (fun _ _ => by rfl)
      |>.reports _ (fun _ _ => spares_truth _)
      |>.setParticle _ (fun _ _ => by rfl)

theorem registerTextures_sparing (hr : r.All Sparing) : (registerTextures r create).All Sparing := by
  refine ((hr.register ?_).register ?_).register ?_
  · exact sparing_nothing textureMaker _
      |>.spare _ plain_service (fun _ _ => spares_findTexture)
      |>.spare _ plain_service (fun _ _ => spares_newTexture)
      |>.spare _ plain_service (fun _ _ => spares_listTextures)
  · exact sparing_nothing textureType _
      |>.spare _ plain_texture (fun _ _ => .bind (spares_look _) fun _ => spares_text _)
      |>.spare _ plain_texture (fun _ _ => .bind (spares_look _) fun _ => spares_pure _)
      |>.spare _ plain_texture (fun _ _ => .bind (spares_lift _) fun _ => .bind (spares_lift _) fun _ =>
        .bind (spares_look _) fun _ => .bind (spares_lift _) fun _ => spares_vector _)
      |>.spare _ plain_texture (fun _ => spares_setTexturePixel)
      |>.spare _ plain_texture (fun _ => spares_fillTexture)
      |>.spare _ plain_texture (fun _ _ => .bind (spares_onGallery _) fun _ => spares_newObject _ rfl)
      |>.spare _ plain_texture (fun _ => spares_applyToTexture)
  · exact sparing_nothing draftType _
      |>.field (reads_draftMeasure _)
      |>.field (reads_draftMeasure _)
      |>.spare _ plain_draft (fun _ => spares_readDraft)
      |>.spare _ plain_draft (fun _ => spares_queuePixel)
      |>.spare _ plain_draft (fun _ => spares_cancelPixel)
      |>.spare _ plain_draft (fun _ => spares_cancelRegion)
      |>.spare _ plain_draft (fun _ => spares_queueRegion _)
      |>.spare _ plain_draft (fun _ => spares_queueRegion _)
      |>.spare _ plain_draft (fun _ _ => .bind (spares_look _) fun _ => spares_count _)
      |>.spare _ plain_draft (fun _ _ => .bind (spares_onGallery _) fun _ => spares_count _)

theorem registerNameplate_sparing (hr : r.All Sparing) : (registerNameplate r).All Sparing := by
  refine hr.register ?_
  exact sparing_nothing nameplateType _
    |>.idle _ (fun _ => idle_showNameplate fun _ => spares_pure _)
    |>.spares _ (fun _ => idle_setNameplate _ _)
    |>.idle _ (fun _ => idle_showNameplate fun _ => spares_truth _)
    |>.spares _ (fun _ => idle_setNameplate _ _)
    |>.idle _ (fun _ => idle_showNameplate fun _ => spares_truth _)
    |>.spares _ (fun _ => idle_setNameplate _ _)
    |>.idle _ (fun _ => idle_showNameplate fun _ => spares_truth _)
    |>.spares _ (fun _ => idle_setNameplate _ _)
    |>.idle _ (fun _ => idle_showNameplate fun _ => spares_vector _)
    |>.spares _ (fun _ => idle_setNameplate _ _)
    |>.idle _ (fun _ => idle_showNameplate fun _ => spares_vector _)
    |>.spares _ (fun _ => idle_setNameplate _ _)
    |>.idle _ (fun _ => idle_showNameplate fun n => by
      cases n.background with
      | none => exact spares_pure _
      | some color => exact spares_vector _)
    |>.spares _ (fun _ => idle_setNameplate _ _)

theorem registerRender_sparing (hr : r.All Sparing) : (registerRender r).All Sparing :=
  hr.register ((sparing_nothing renderType _).spare _ plain_service fun _ _ => spares_setTextureOverride)

theorem registerNetwork_sparing (hr : r.All Sparing) : (registerNetwork r).All Sparing :=
  hr.register ((sparing_nothing networkType _).stands _ (by decide))

theorem registerEvents_sparing (hr : r.All Sparing) : (registerEvents r).All Sparing := by
  refine hr.register ?_
  exact sparing_nothing eventsType _
    |>.stands _ (by decide)
    |>.stands _ (by decide)
    |>.spare _ plain_service (fun _ _ => .bind (spares_lift _) fun _ => .bind (spares_look _) fun _ => spares_count _)

/-- All members of the surface but those methods leave functions and numbers alone. -/
theorem surface_sparing : surface.All Sparing :=
  registerEvents_sparing (registerNetwork_sparing (registerRender_sparing (registerNameplate_sparing
    (registerTextures_sparing (registerParticles_sparing (registerSounds_sparing Bridge.Registry.all_empty))))))

/-! ## Calls -/

/-- A call that succeeds is one of a method on an object of its type, in a package that lives, with arguments that a
signature takes. -/
structure Succeeds (policy : Trust.Policy) (type name : String) (args : List Value) (w : World Services)
    (vs : List Value) (w' : World Services) (run : Call → Action Thing (List Value)) (c : Call) : Prop where
  args_eq : args = c.this :: c.values
  receiver : Bridge.seen w c.this = .object type c.state
  arguments_eq : c.arguments = Bridge.trimmed (c.values.map (Bridge.seen w))
  member : ∃ overloads, surface.member? type name = some (.method overloads run)
  ran : run c w = (.ok vs, w')

theorem bridgeCall_succeeds {policy : Trust.Policy} {type name : String} {args vs : List Value} {w w' : World Services}
    (h : Bridge.bridgeCall surface policy type name args w = (.ok vs, w')) :
    ∃ run c, Succeeds policy type name args w vs w' run c := by
  cases args with
  | nil => cases h
  | cons this values =>
    simp only [Bridge.bridgeCall, Action.bind_apply, Bridge.seenAll, List.map_cons, List.headD_cons,
      List.tail_cons] at h
    cases hthis : Bridge.seen w this with
    | object found state =>
      rw [hthis] at h
      simp only at h
      split at h
      · next hfound =>
        subst hfound
        rw [Bridge.callMethod, Action.bind_apply] at h
        have halive := Bridge.reads_checkAlive (κ := Thing) w
        cases hchecked : Bridge.checkAlive (κ := Thing) w with
        | mk r w₁ =>
          rw [hchecked] at h halive
          obtain rfl : w₁ = w := halive
          cases r with
          | error e => cases h
          | ok _ =>
            cases hmember : surface.member? found name with
            | none =>
              rw [hmember] at h
              cases h
            | some m =>
              rw [hmember] at h
              cases m with
              | field => cases h
              | method overloads run =>
                cases hselect : Bridge.select overloads (Bridge.trimmed (values.map (Bridge.seen w₁))) with
                | error refusal =>
                  simp only [hselect] at h
                  cases h
                | ok overload =>
                  simp only [hselect] at h
                  exact ⟨run, ⟨found ++ ":" ++ name, this, state, overload, _, values, policy⟩, rfl, hthis, rfl,
                    ⟨overloads, hmember⟩, h⟩
      · cases h
    | _ =>
      rw [hthis] at h
      cases h

/-- Arguments that are left out at the end are nothing. -/
theorem getD_trimmed (args : List Bridge.Argument) (i : Nat) :
    (Bridge.trimmed args)[i]?.getD .nil = args[i]?.getD .nil := by
  have hsplit : Bridge.trimmed args ++ (args.reverse.takeWhile (·.isNil)).reverse = args := by
    rw [Bridge.trimmed, ← List.reverse_append, List.takeWhile_append_dropWhile, List.reverse_reverse]
  generalize Bridge.trimmed args = front at hsplit ⊢
  have hback : ∀ a ∈ (args.reverse.takeWhile (·.isNil)).reverse, a = .nil := by
    intro a ha
    have hnil : a.isNil = true := List.all_eq_true.1 List.all_takeWhile a (List.mem_reverse.1 ha)
    cases a with
    | nil => rfl
    | _ => cases hnil
  generalize (args.reverse.takeWhile (·.isNil)).reverse = back at hsplit hback
  subst hsplit
  rw [List.getElem?_append]
  split
  · rfl
  · next hbeyond =>
    rw [List.getElem?_eq_none (Nat.not_lt.1 hbeyond)]
    cases hget : back[i - front.length]? with
    | none => rfl
    | some a => exact (hback a (List.mem_of_getElem? hget)).symm

/-- An argument is what the call sees of the value that a script passed. -/
theorem Succeeds.argument_eq {policy : Trust.Policy} {type name : String} {args vs : List Value} {w w' : World Services}
    {run : Call → Action Thing (List Value)} {c : Call} (h : Succeeds policy type name args w vs w' run c) (i : Nat) :
    c.argument i = (c.values[i]?.map (Bridge.seen w)).getD .nil := by
  rw [Call.argument, h.arguments_eq, getD_trimmed, List.getElem?_map]

/-! ## Alterations -/

/-- What a call that succeeds does to functions and numbers, by its method. -/
inductive Alters (c : Call) (s s' : Services) : String → String → Prop
  /-- Nothing; the two methods that change functions are no such calls. -/
  | nothing {type name : String} (hname : type = eventsType → name ≠ "register" ∧ name ≠ "clear")
      (h : standing s' = standing s) : Alters c s s' type name
  /-- A particle gets the next number, once the number that it had is removed. -/
  | spawned (hgranted : (s.gate.tryUse .spawnParticle).1 = true)
      (h : standing s' = (s.callbacks, s.nextHandle + 1,
        (s.package, .spawn s.nextHandle) :: ((handleAt s c.state).map fun old => (s.package, .remove old)).toList ++
          numbered s.outbox,
        Function.update (handleAt s) c.state (some s.nextHandle), s.package)) : Alters c s s' particleType "spawn"
  /-- A particle loses its number. -/
  | removed {handle : Nat} (hshown : handleAt s c.state = some handle)
      (h : standing s' = (s.callbacks, s.nextHandle, (s.package, .remove handle) :: numbered s.outbox,
        Function.update (handleAt s) c.state none, s.package)) : Alters c s s' particleType "remove"
  /-- A request gets the next number. -/
  | requested (h : standing s' = (s.callbacks, s.nextHandle + 1,
      (s.package, .request s.nextHandle) :: numbered s.outbox, handleAt s, s.package)) :
      Alters c s s' networkType "request"
  /-- A function is registered. -/
  | registered {event : String} {f : Value} (hevent : (c.argument 0).text? = some event)
      (hfunction : c.argument 1 = .function f)
      (h : standing s' = (s.callbacks.insert event (callbacksOf s event ++ [f]), numbers s)) :
      Alters c s s' eventsType "register"
  /-- The functions of an event are dropped. -/
  | cleared {event : String} (hevent : (c.argument 0).text? = some event)
      (h : standing s' = (s.callbacks.erase event, numbers s)) : Alters c s s' eventsType "clear"

section Alters

variable {α : Type} {c : Call} {w w' : World Services} {vs : List Value}

/-- What is read of an argument is what it is seen as. -/
theorem read_eq_ok {i : Nat} {what : String} {f : Bridge.Argument → Option α} {a : α} (h : c.read i what f = .ok a) :
    f (c.argument i) = some a := by
  unfold Call.read at h
  split at h
  · next heq => rw [heq, Except.ok.inj h]
  · cases h

theorem eq_of_function? {a : Bridge.Argument} {f : Value} (h : a.function? = some f) : a = .function f := by
  cases a with
  | function f' => exact congrArg Bridge.Argument.function (Option.some.inj h)
  | _ => cases h

theorem lift_bind_ok {x : Except String α} {run : α → Action Thing (List Value)}
    (h : (liftM x >>= run) w = (.ok vs, w')) : ∃ a, x = .ok a ∧ run a w = (.ok vs, w') := by
  cases x with
  | error e => cases h
  | ok a => exact ⟨a, rfl, h⟩

theorem eventOf_eq_ok {event : String} (h : eventOf c = .ok event) :
    (c.argument 0).text? = some event ∧ event ∈ Event.names := by
  obtain ⟨name, hname, h⟩ := exists_of_bind_ok h
  split at h
  · cases h
  · next hknown =>
    cases h
    exact ⟨read_eq_ok hname, by simpa using hknown⟩

theorem on_ok {type : String} {view : Thing → Option α} {run : Call → α → Action Thing (List Value)}
    (h : on type view run c w = (.ok vs, w')) :
    ∃ t a, w.host.states[c.state]? = some t ∧ view t = some a ∧ run c a w = (.ok vs, w') := by
  unfold on thing at h
  simp only [Action.bind_apply, Action.look] at h
  cases hview : (w.host.states[c.state]?).bind view with
  | none =>
    rw [hview] at h
    cases h
  | some a =>
    rw [hview] at h
    obtain ⟨t, hstate, ht⟩ := Option.bind_eq_some_iff.1 hview
    exact ⟨t, a, hstate, ht, h⟩

theorem spawnParticle_alters {p : Particle} (hstate : w.host.states[c.state]? = some (.particle p))
    (h : spawnParticle c p w = (.ok vs, w')) : Alters c w.host w'.host particleType "spawn" := by
  have hhandle : handleAt w.host c.state = p.handle := by
    rw [handleAt, hstate]
    rfl
  unfold spawnParticle at h
  simp only [Action.bind_apply, Action.onServices, Package.Services.tryUse] at h
  cases hgranted : (w.host.gate.tryUse .spawnParticle).1 with
  | false =>
    rw [if_neg (by rw [hgranted]; decide)] at h
    cases h
    exact .nothing (by decide) rfl
  | true =>
    rw [if_pos hgranted] at h
    refine .spawned hgranted ?_
    rw [hhandle]
    have hhost := congrArg (fun r => standing r.2.host) h
    cases hold : p.handle with
    | none | some old =>
      rw [hold] at hhost
      exact hhost.symm.trans (Prod.ext rfl (Prod.ext rfl (Prod.ext rfl (Prod.ext (handleAt_put hstate) rfl))))

theorem removeParticle_alters {p : Particle} (hstate : w.host.states[c.state]? = some (.particle p))
    (h : removeParticle c p w = (.ok vs, w')) : Alters c w.host w'.host particleType "remove" := by
  have hhandle : handleAt w.host c.state = p.handle := by
    rw [handleAt, hstate]
    rfl
  have hhost := congrArg (fun r => standing r.2.host) h
  unfold removeParticle at hhost
  cases hold : p.handle with
  | none =>
    rw [hold] at hhost
    exact .nothing (by decide) hhost.symm
  | some handle =>
    rw [hold] at hhost hhandle
    exact .removed hhandle
      (hhost.symm.trans (Prod.ext rfl (Prod.ext rfl (Prod.ext rfl (Prod.ext (handleAt_put hstate) rfl)))))

theorem sendRequest_alters (h : sendRequest c w = (.ok vs, w')) : Alters c w.host w'.host networkType "request" := by
  obtain ⟨request, -, h⟩ := lift_bind_ok h
  simp only [Action.bind_apply, Action.onServices, Package.Services.tryUse] at h
  have hhost := congrArg (fun r => standing r.2.host) h
  cases hgranted : (w.host.gate.tryUse .networkCall).1 with
  | false =>
    rw [if_neg (by rw [hgranted]; decide)] at hhost
    exact .nothing (by decide) hhost.symm
  | true =>
    rw [if_pos hgranted] at hhost
    refine .requested (hhost.symm.trans ?_)
    simp only [Action.bind_apply, Action.onServices, Package.Services.send, Package.Services.takeHandle]
    split <;> rfl

/-- Whatever method succeeds alters nothing, or what it is to alter. -/
theorem run_alters {type name : String} {overloads : List Signature} {run : Call → Action Thing (List Value)}
    (hmember : surface.member? type name = some (.method overloads run)) (h : run c w = (.ok vs, w')) :
    Alters c w.host w'.host type name := by
  by_cases hname : (type, name) ∈ standingMethods
  · simp only [standingMethods, List.mem_cons, Prod.mk.injEq, List.not_mem_nil, or_false] at hname
    obtain ⟨rfl, rfl⟩ | ⟨rfl, rfl⟩ | ⟨rfl, rfl⟩ | ⟨rfl, rfl⟩ | ⟨rfl, rfl⟩ := hname
    · cases hmember
      obtain ⟨t, p, hstate, hp, h⟩ := on_ok h
      exact spawnParticle_alters (eq_of_particle? hp ▸ hstate) h
    · cases hmember
      obtain ⟨t, p, hstate, hp, h⟩ := on_ok h
      exact removeParticle_alters (eq_of_particle? hp ▸ hstate) h
    · cases hmember
      obtain ⟨-, -, -, -, h⟩ := on_ok h
      exact sendRequest_alters h
    · cases hmember
      obtain ⟨-, -, -, -, h⟩ := on_ok h
      obtain ⟨event, hevent, h⟩ := lift_bind_ok h
      obtain ⟨f, hf, h⟩ := lift_bind_ok h
      refine .registered (eventOf_eq_ok hevent).1 (eq_of_function? (read_eq_ok hf)) ?_
      exact (congrArg (fun r => standing r.2.host) h).symm
    · cases hmember
      obtain ⟨-, -, -, -, h⟩ := on_ok h
      obtain ⟨event, hevent, h⟩ := lift_bind_ok h
      exact .cleared (eventOf_eq_ok hevent).1 (congrArg (fun r => standing r.2.host) h).symm
  · refine .nothing ?_ ?_
    · rintro rfl
      constructor
      · rintro rfl
        exact hname (by decide)
      · rintro rfl
        exact hname (by decide)
    · have hidle := surface_sparing type name _ hmember hname c w
      rwa [h] at hidle

end Alters

/-- A call fails and changes nothing, or it succeeds and alters what its method is to alter. -/
theorem bridgeCall_cases (policy : Trust.Policy) (type name : String) (args : List Value) (w : World Services) :
    (∃ e, Bridge.bridgeCall surface policy type name args w = (.error e, w)) ∨
      ∃ run c vs w', Bridge.bridgeCall surface policy type name args w = (.ok vs, w') ∧
        Succeeds policy type name args w vs w' run c ∧ Alters c w.host w'.host type name := by
  cases hcall : Bridge.bridgeCall surface policy type name args w with
  | mk r w' =>
    cases r with
    | error e =>
      obtain rfl := Bridge.atomic_bridgeCall surface_atomic policy type name args w e w' hcall
      exact .inl ⟨e, rfl⟩
    | ok vs =>
      obtain ⟨run, c, hdone⟩ := bridgeCall_succeeds hcall
      obtain ⟨overloads, hmember⟩ := hdone.member
      exact .inr ⟨run, c, vs, w', rfl, hdone, run_alters hmember hdone.ran⟩

end Api

namespace Package

open Api (standing)
open Lua (Heap)

/-! ## Turns -/

theorem standing_uploadDirty (s : Api.Services) : standing s.uploadDirty.2 = standing s := by
  have hone (s : Api.Services) (id : Nat) : standing (s.uploadOne id) = standing s := by
    unfold Services.uploadOne
    split
    · split
      · exact Api.standing_emit s rfl
      · rfl
    · rfl
  unfold Services.uploadDirty
  simp only
  generalize s.textures.values = ids
  induction ids generalizing s with
  | nil => rfl
  | cons id rest ih => exact (ih _).trans (hone s id)

/-- A script calls a method. -/
def Turn.IsCall : Turn → Prop
  | .call .. => True
  | _ => False

/-- Every other turn leaves functions and numbers alone. -/
theorem standing_turn (policy : Trust.Policy) {turn : Turn} (hcall : ¬ turn.IsCall) (s : Api.Services) :
    standing (turn.apply policy s) = standing s := by
  cases turn with
  | call => exact absurd trivial hcall
  | field heap type name state =>
    unfold Turn.apply
    simp only
    split
    · next fieldType get hmember =>
      have hreads : (Bridge.readField get state).Reads :=
        Action.reads_bind Bridge.reads_checkAlive fun _ => Api.surface_sparing type name _ hmember state
      rw [hreads ⟨heap, s, none⟩]
    · rfl
  | method type name =>
    unfold Turn.apply
    simp only
    split <;> rfl
  | object type =>
    change standing { s with states := s.states.push .service } = standing s
    unfold standing Api.numbers
    rw [Api.handleAt_push rfl]
  | log level message => exact Api.standing_note s _
  | consult c => exact Api.standing_trustValue policy c s
  | note d => exact Api.standing_note s d
  | printed bytes => exact Api.standing_emit s rfl
  | unending => exact Api.standing_emit s rfl
  | clock => exact Services.tickQuotas_keeps policy s Api.standing_note fun _ _ => rfl
  | taken =>
    unfold Turn.apply
    simp only
    split <;> rfl
  | upload => exact standing_uploadDirty s
  | _ => rfl

/-- What a turn comes to for functions and numbers. -/
inductive Turn.Affects (policy : Trust.Policy) (s : Api.Services) : Turn → Prop
  /-- It is no call. -/
  | spared {turn : Turn} (hcall : ¬ turn.IsCall) (h : standing (turn.apply policy s) = standing s) :
    Affects policy s turn
  /-- It is a call that fails, which changes nothing. -/
  | failed {heap : Heap} {type name : String} {args : List Value} {e : String}
    (h : Bridge.bridgeCall Api.surface policy type name args ⟨heap, s, none⟩ = (.error e, ⟨heap, s, none⟩)) :
    Affects policy s (.call heap type name args)
  /-- It is a call that succeeds. -/
  | altered {heap : Heap} {type name : String} {args vs : List Value} {w' : World Api.Services}
    {run : Call → Action Api.Thing (List Value)} {c : Call}
    (hran : Bridge.bridgeCall Api.surface policy type name args ⟨heap, s, none⟩ = (.ok vs, w'))
    (hdone : Api.Succeeds policy type name args ⟨heap, s, none⟩ vs w' run c)
    (halters : Api.Alters c s w'.host type name) : Affects policy s (.call heap type name args)

theorem turn_affects (policy : Trust.Policy) (turn : Turn) (s : Api.Services) : turn.Affects policy s := by
  by_cases hcall : turn.IsCall
  · cases turn with
    | call heap type name args =>
      obtain ⟨e, hfailed⟩ | ⟨run, c, vs, w', hran, hdone, halters⟩ :=
        Api.bridgeCall_cases policy type name args ⟨heap, s, none⟩
      · exact .failed hfailed
      · exact .altered hran hdone halters
    | _ => exact hcall.elim
  · exact .spared hcall (standing_turn policy hcall s)

end Package

end ScriptWarden
