import ScriptWarden.Proofs.Api.Bodies
import ScriptWarden.Proofs.Bridge.Failure
set_option autoImplicit false

/-!
# API: every method of the surface

The signatures that a method declares and the body that reads its arguments are written apart.  Here they are put
together, member by member in the order of registration: the signatures of a method are apart, and called with what
one of them accepts its body has an order.  So no call is ambiguous (`surface_unambiguous`), a call that fails leaves
no trace (`failed_call_changes_nothing`), and a method reads all that it accepts (`accepted_decodes`).
-/

namespace ScriptWarden

open Bridge (Accepts Action Apart Argument Call Member Objection Registry Signature TypeEntry)
open Lua (Value World)

namespace Api

variable {α : Type} {type : String} {overloads : List Signature}

/-! ## Methods -/

/-- The signatures of a method and its body belong together. -/
structure Coherent (type : String) (overloads : List Signature) (run : Call → Action Thing (List Value)) :
    Prop where
  apart : overloads.Pairwise Apart
  atomic : ∀ c : Call, c.Accepted overloads → (run c).Atomic
  grows : ∀ c : Call, c.Accepted overloads → Growing (run c)
  fails : ∀ c : Call, c.Accepted overloads → ∀ w e, kindAt w.host c.state = some (kindOf type) →
    Founded c w.host → (run c w).1 = .error e → Objection c.method e

/-- What a state is seen as, if it is of the kind. -/
theorem thing_cases {view : Thing → Option α} {k : Kind} (hview : Views view k) (type : String) (state : Nat)
    (w : World Services) : (∃ a, thing type state view w = (.ok a, w) ∧ kindAt w.host state = some k) ∨
      (∃ e, thing type state view w = (.error e, w)) ∧ kindAt w.host state ≠ some k := by
  unfold thing kindAt
  simp only [Action.bind_apply, Action.look]
  cases ht : w.host.states[state]? with
  | none => exact .inr ⟨⟨_, rfl⟩, fun hk => by cases hk⟩
  | some t =>
    cases ha : view t with
    | none =>
      refine .inr ⟨⟨_, by simp only [Option.bind_some, ha]; rfl⟩, fun hk => ?_⟩
      have hsome := (hview t).2 (Option.some.inj hk)
      rw [ha] at hsome
      cases hsome
    | some a =>
      refine .inl ⟨a, by simp only [Option.bind_some, ha]; rfl, ?_⟩
      exact congrArg some ((hview t).1 (by rw [ha]; rfl))

theorem reads_draftMeasure (measure : Texture.Image → Nat) (state : Nat) :
    (draftMeasure measure state).Reads := by
  refine Action.reads_bind (fun w => ?_) fun draft =>
    Action.reads_bind (Action.reads_look _) fun image => Action.reads_pure _
  obtain ⟨a, heq, -⟩ | ⟨⟨e, heq⟩, -⟩ := thing_cases views_draft draftType state w
  · rw [heq]
  · rw [heq]

/-- A field that is looked up in the services, and that objects of a type always have. -/
def Shown (type : String) (get : Nat → Action Thing Value) : Prop :=
  ∀ state, ∃ f : Services → Except String Value, (∀ w, get state w = (f w.host, w)) ∧
    ∀ s, kindAt s state = some (kindOf type) → ∃ v, f s = .ok v

theorem Shown.reads {get : Nat → Action Thing Value} (h : Shown type get) (state : Nat) : (get state).Reads := by
  obtain ⟨f, heq, -⟩ := h state
  intro w
  rw [heq]

theorem shown_draftMeasure (measure : Texture.Image → Nat) : Shown draftType (draftMeasure measure) := by
  intro state
  refine ⟨fun s => (draftMeasure measure state ⟨default, s, none⟩).1, fun w => ?_, fun s hk => ?_⟩
  · refine Prod.ext ?_ (reads_draftMeasure measure state w)
    simp only [draftMeasure, thing, Action.bind_apply, Action.look]
    cases hview : (w.host.states[state]?).bind Thing.draft? <;> rfl
  · obtain ⟨draft, heq, -⟩ | ⟨-, hne⟩ := thing_cases views_draft draftType state ⟨default, s, none⟩
    · refine ⟨.nat (((s.gallery.target? draft).map measure).getD 0), ?_⟩
      simp only [draftMeasure, Action.bind_apply, heq, Action.look]
      rfl
    · exact absurd hk hne

/-- A method on what its type stands for, whose body has an order. -/
theorem coherent_on {view : Thing → Option α} {run : Call → α → Action Thing (List Value)}
    (hview : Views view (kindOf type)) (hapart : overloads.Pairwise Apart)
    (hrun : ∀ c a, c.Accepted overloads → Orderly c (kindOf type) (run c a)) :
    Coherent type overloads (on type view run) := by
  have hcases (c : Call) (w : World Services) :
      (∃ a, on type view run c w = run c a w ∧ kindAt w.host c.state = some (kindOf type)) ∨
        (∃ e, on type view run c w = (.error e, w)) ∧ kindAt w.host c.state ≠ some (kindOf type) := by
    unfold on
    rw [Action.bind_apply]
    obtain ⟨a, heq, hk⟩ | ⟨⟨e, heq⟩, hk⟩ := thing_cases hview type c.state w
    · exact .inl ⟨a, by rw [heq], hk⟩
    · exact .inr ⟨⟨e, by rw [heq]⟩, hk⟩
  constructor
  · exact hapart
  · intro c hc w e w' h
    obtain ⟨a, heq, -⟩ | ⟨⟨e', heq⟩, -⟩ := hcases c w
    · rw [heq] at h
      exact (hrun c a hc).atomic w e w' h
    · rw [heq] at h
      cases h
      rfl
  · intro c hc w
    obtain ⟨a, heq, hk⟩ | ⟨⟨e', heq⟩, -⟩ := hcases c w
    · rw [heq]
      exact (hrun c a hc).grows w hk
    · rw [heq]
      exact .refl _
  · intro c hc w e hk hfounded h
    obtain ⟨a, heq, -⟩ | ⟨-, hne⟩ := hcases c w
    · rw [heq] at h
      exact (hrun c a hc).fails w e hfounded h
    · exact absurd hk hne

/-- What is asked of every member. -/
def Coheres (type : String) (_ : String) : Member Thing → Prop
  | .method overloads run => Coherent type overloads run
  | .field _ get => Shown type get

end Api

namespace Bridge.TypeEntry.All

open Api

variable {α β : Type} {type : String} {t : TypeEntry Thing} {overloads : List Signature}

/-- A method without arguments that never fails. -/
theorem bare (ht : t.All (Coheres type)) {name : String} {view : Thing → Option α}
    {run : Call → α → Action Thing (List Value)} (hview : Views view (kindOf type))
    (hrun : ∀ c a, Serves c.state (kindOf type) (run c a)) :
    (t.method name [] (on type view run)).All (Coheres type) :=
  ht.given (coherent_on hview (List.pairwise_singleton _ _) fun c a _ => (hrun c a).orderly)

/-- A method with signatures. -/
theorem stated (ht : t.All (Coheres type)) {name : String} {view : Thing → Option α}
    {run : Call → α → Action Thing (List Value)} (hview : Views view (kindOf type))
    (hstated : overloads.isEmpty = false ∧ overloads.Pairwise Apart)
    (hrun : ∀ c a, c.Accepted overloads → Orderly c (kindOf type) (run c a)) :
    (t.method name overloads (on type view run)).All (Coheres type) := by
  refine ht.given ?_
  rw [hstated.1]
  exact coherent_on hview hstated.2 hrun

/-- A method with signatures, under several names. -/
theorem statedAs (ht : t.All (Coheres type)) {names : List String} {view : Thing → Option α}
    {run : Call → α → Action Thing (List Value)} (hview : Views view (kindOf type))
    (hstated : overloads.isEmpty = false ∧ overloads.Pairwise Apart)
    (hrun : ∀ c a, c.Accepted overloads → Orderly c (kindOf type) (run c a)) :
    (t.methods names overloads (on type view run)).All (Coheres type) := by
  refine ht.givens fun name _ => ?_
  rw [hstated.1]
  exact coherent_on hview hstated.2 hrun

variable {read : Call → Except String β}

theorem setSounds {t : TypeEntry Thing} (ht : t.All (Coheres soundType)) {names : List String}
    {change : Sound → β → Sound} (hread : ∀ c, c.Accepted overloads → Readable (read c))
    (hstated : overloads.isEmpty = false ∧ overloads.Pairwise Apart) :
    (t.methods names overloads (setSound fun c s => do return change s (← read c))).All (Coheres soundType) :=
  ht.statedAs views_sound hstated fun c _ hc =>
    .read ((hread c hc).bind fun _ => readable_pure _) fun _ => (serves_putSound _).orderly

theorem setParticles {t : TypeEntry Thing} (ht : t.All (Coheres particleType)) {names : List String}
    {change : Particle → β → Particle} (hread : ∀ c, c.Accepted overloads → Readable (read c))
    (hstated : overloads.isEmpty = false ∧ overloads.Pairwise Apart) :
    (t.methods names overloads (setParticle fun c p => do return change p (← read c))).All
      (Coheres particleType) :=
  ht.statedAs views_particle hstated fun c _ hc =>
    .read ((hread c hc).bind fun _ => readable_pure _) fun _ => (serves_putParticle _).orderly

theorem setNameplates {t : TypeEntry Thing} (ht : t.All (Coheres nameplateType)) {names : List String}
    {change : β → Host.Nameplate → Host.Nameplate} (hread : ∀ c, c.Accepted overloads → Readable (read c))
    (hstated : overloads.isEmpty = false ∧ overloads.Pairwise Apart) :
    (t.methods names overloads (setNameplate read change)).All (Coheres nameplateType) :=
  ht.statedAs views_service hstated fun c _ hc => orderly_setNameplate (hread c hc) change

end Bridge.TypeEntry.All

namespace Api

open Bridge (Readable readable_pure required)
open Bridge.TypeEntry (all_empty)

/-- A type without members. -/
theorem coheres_nothing (type doc : String) : (TypeEntry.describe {} doc).All (Coheres type) :=
  all_empty.describe doc

theorem serves_showNameplate {state : Nat} {k : Kind} {run : Host.Nameplate → Action Thing (List Value)}
    (hrun : ∀ n, Serves state k (run n)) : Serves state k (do run (← Action.look (·.nameplate))) :=
  (serves_look _).bind hrun

/-! ## Types -/

variable {r : Registry Thing}

theorem registerSounds_coheres (hr : r.All Coheres) : (registerSounds r create).All Coheres := by
  refine (hr.register ?_).register ?_
  · exact coheres_nothing soundMaker _
      |>.stated views_service (by decide) (fun c _ hc => .read (readable_oneText hc) fun _ =>
        ((serves_create rfl).bind fun _ => serves_pure _).orderly)
  · exact coheres_nothing soundType _
      |>.bare views_sound (fun _ => serves_playSound)
      |>.bare views_sound (fun _ => serves_stopSound)
      |>.bare views_sound (fun _ => serves_pauseSound)
      |>.bare views_sound (fun _ _ => serves_truth _)
      |>.bare views_sound (fun _ _ => serves_text _)
      |>.bare views_sound (fun _ _ => serves_vector _)
      |>.setSounds (fun _ => readable_vec3Of) (by decide)
      |>.bare views_sound (fun _ _ => serves_number _)
      |>.setSounds (fun _ => readable_oneNumber) (by decide)
      |>.bare views_sound (fun _ _ => serves_number _)
      |>.setSounds (fun _ => readable_oneNumber) (by decide)
      |>.bare views_sound (fun _ _ => serves_truth _)
      |>.setSounds (fun _ => readable_oneFlag) (by decide)
      |>.bare views_sound (fun _ _ => serves_number _)
      |>.setSounds (fun _ => readable_oneNumber) (by decide)

theorem registerParticles_coheres (hr : r.All Coheres) : (registerParticles r create).All Coheres := by
  refine (hr.register ?_).register ?_
  · exact coheres_nothing particleMaker _
      |>.stated views_service (by decide) (fun _ _ => orderly_newParticle)
  · exact coheres_nothing particleType _
      |>.bare views_particle (fun _ => serves_spawnParticle)
      |>.bare views_particle (fun _ => serves_removeParticle)
      |>.bare views_particle (fun _ _ => serves_truth _)
      |>.bare views_particle (fun _ _ => serves_text _)
      |>.bare views_particle (fun _ _ => serves_vector _)
      |>.setParticles (fun _ => readable_vec3Of) (by decide)
      |>.bare views_particle (fun _ _ => serves_vector _)
      |>.setParticles (fun _ => readable_vec3Of) (by decide)
      |>.bare views_particle (fun _ _ => serves_vector _)
      |>.setParticles (fun _ => readable_colorOf) (by decide)
      |>.bare views_particle (fun _ _ => serves_pure _)
      |>.setParticles (fun _ => readable_oneInteger) (by decide)
      |>.bare views_particle (fun _ _ => serves_number _)
      |>.setParticles (fun _ => readable_oneNumber) (by decide)
      |>.bare views_particle (fun _ _ => serves_number _)
      |>.setParticles (fun _ => readable_oneNumber) (by decide)
      |>.bare views_particle (fun _ _ => serves_number _)
      |>.setParticles (fun _ => readable_oneNumber) (by decide)
      |>.bare views_particle (fun _ _ => serves_truth _)
      |>.setParticles (fun _ => readable_oneFlag) (by decide)

theorem registerTextures_coheres (hr : r.All Coheres) : (registerTextures r create).All Coheres := by
  refine ((hr.register ?_).register ?_).register ?_
  · exact coheres_nothing textureMaker _
      |>.stated views_service (by decide) (fun _ _ hc => orderly_findTexture (readable_oneText hc))
      |>.stated views_service (by decide) (fun _ _ hc => by
        obtain ⟨hname, hwidth, hheight, -⟩ := fits_of_one hc
        exact orderly_newTexture (Call.readable_text hname) (Call.readable_int hwidth) (Call.readable_int hheight))
      |>.bare views_service (fun _ _ => serves_listTextures)
  · exact coheres_nothing textureType _
      |>.bare views_texture (fun _ _ => (serves_look _).bind fun _ => serves_text _)
      |>.bare views_texture (fun _ _ => (serves_look _).bind fun _ => serves_pure _)
      |>.stated views_texture (by decide) (fun _ _ hc => by
        obtain ⟨hx, hy, -⟩ := fits_of_one hc
        exact orderly_getPixel (Call.readable_int hx) (Call.readable_int hy))
      |>.stated views_texture (by decide) (fun _ _ => orderly_setTexturePixel)
      |>.stated views_texture (by decide) (fun _ _ => orderly_fillTexture)
      |>.bare views_texture (fun _ _ => (serves_onGallery _).bind fun _ =>
        (serves_create rfl).bind fun _ => serves_pure _)
      |>.stated views_texture (by decide) (fun _ _ => orderly_applyToTexture)
  · exact coheres_nothing draftType _
      |>.field (shown_draftMeasure _)
      |>.field (shown_draftMeasure _)
      |>.stated views_draft (by decide) (fun _ _ hc => by
        obtain ⟨hx, hy, hprefer, -⟩ := fits_of_one hc
        exact orderly_readDraft (Call.readable_int hx) (Call.readable_int hy)
          (Call.readable_optional hprefer Call.readable_bool))
      |>.stated views_draft (by decide) (fun _ _ => orderly_queuePixel)
      |>.stated views_draft (by decide) (fun _ _ hc => by
        obtain ⟨hx, hy, -⟩ := fits_of_one hc
        exact orderly_cancelPixel (Call.readable_int hx) (Call.readable_int hy))
      |>.stated views_draft (by decide) (fun _ _ => orderly_cancelRegion)
      |>.stated views_draft (by decide) (fun _ _ hc => orderly_queueRegion hc _)
      |>.stated views_draft (by decide) (fun _ _ hc => orderly_queueRegion hc _)
      |>.bare views_draft (fun _ _ => (serves_look _).bind fun _ => serves_count _)
      |>.bare views_draft (fun _ _ => (serves_onGallery _).bind fun _ => serves_count _)

theorem registerNameplate_coheres (hr : r.All Coheres) : (registerNameplate r).All Coheres := by
  refine hr.register ?_
  exact coheres_nothing nameplateType _
    |>.bare views_service (fun _ _ => serves_showNameplate fun _ => serves_pure _)
    |>.setNameplates (fun _ => readable_oneOption) (by decide)
    |>.bare views_service (fun _ _ => serves_showNameplate fun _ => serves_truth _)
    |>.setNameplates (fun _ => readable_oneFlag) (by decide)
    |>.bare views_service (fun _ _ => serves_showNameplate fun _ => serves_truth _)
    |>.setNameplates (fun _ => readable_oneFlag) (by decide)
    |>.bare views_service (fun _ _ => serves_showNameplate fun _ => serves_truth _)
    |>.setNameplates (fun _ => readable_oneFlag) (by decide)
    |>.bare views_service (fun _ _ => serves_showNameplate fun _ => serves_vector _)
    |>.setNameplates (fun _ => readable_vec3Of) (by decide)
    |>.bare views_service (fun _ _ => serves_showNameplate fun _ => serves_vector _)
    |>.setNameplates (fun _ => readable_vec3Of) (by decide)
    |>.bare views_service (fun _ _ => serves_showNameplate fun n => by
      cases n.background with
      | some v => exact serves_vector _
      | none => exact serves_pure _)
    |>.setNameplates (fun _ => readable_backgroundOf) (by decide)

theorem registerRender_coheres (hr : r.All Coheres) : (registerRender r).All Coheres :=
  hr.register ((coheres_nothing renderType _).stated views_service (by decide) (fun _ _ hc => by
    obtain ⟨hkind, hvalue, -⟩ := fits_of_one hc
    exact orderly_setTextureOverride (Call.readable_text hkind) (Call.readable_optional hvalue Call.readable_text)))

theorem registerNetwork_coheres (hr : r.All Coheres) : (registerNetwork r).All Coheres :=
  hr.register ((coheres_nothing networkType _).stated views_service (by decide) (fun _ _ hc => by
    obtain ⟨hpath, hmethod, hbody, -⟩ := fits_of_one hc
    exact orderly_sendRequest (Call.readable_text hpath) (Call.readable_optional hmethod Call.readable_text)
      (Call.readable_optional hbody Call.readable_text)))

theorem registerEvents_coheres (hr : r.All Coheres) : (registerEvents r).All Coheres := by
  refine hr.register ?_
  exact coheres_nothing eventsType _
    |>.stated views_service (by decide) (fun _ _ hc => by
      obtain ⟨hname, hf, -⟩ := fits_of_one hc
      exact .check (fun _ => objection_of_eventOf (Call.readable_text hname)) fun _ =>
        .read (Call.readable_function hf) fun _ => (serves_callbacks _).orderly)
    |>.stated views_service (by decide) (fun _ _ hc =>
      .check (fun _ => objection_of_eventOf (readable_oneText hc)) fun _ => (serves_callbacks _).orderly)
    |>.stated views_service (by decide) (fun _ _ hc =>
      .read (readable_oneText hc) fun _ => ((serves_look _).bind fun _ => serves_count _).orderly)

/-- The signatures of every method of the surface and its body belong together. -/
theorem surface_coheres : surface.All Coheres := by
  unfold surface
  exact registerEvents_coheres (registerNetwork_coheres (registerRender_coheres (registerNameplate_coheres
    (registerTextures_coheres (registerParticles_coheres (registerSounds_coheres Bridge.Registry.all_empty))))))

/-! ## Choice -/

/-- **No method is ambiguous.**  Of the signatures of a method of the surface at most one accepts the arguments,
whatever these are.  It is the one that is chosen, whatever the scores say and in whatever order the signatures
stand. -/
theorem surface_unambiguous {type name : String} {overloads : List Signature}
    {run : Call → Action Thing (List Value)} (hmember : surface.member? type name = some (.method overloads run))
    (args : List Argument) :
    (∀ (i j : Nat) (s s' : Signature), overloads[i]? = some s → overloads[j]? = some s' →
      Accepts s args → Accepts s' args → i = j) ∧
    (∀ i, Bridge.select overloads args = .ok i ↔ ∃ s, overloads[i]? = some s ∧ Accepts s args) ∧
    (∀ i j, Bridge.select overloads args ≠ .error (.ambiguous i j)) ∧
    ∀ reordered : List Signature, reordered.Perm overloads →
      Bridge.chosen? reordered args = Bridge.chosen? overloads args := by
  have hapart := (surface_coheres type name _ hmember).apart
  exact ⟨fun i j s s' hi hj => Bridge.accepts_unique hapart hi hj, Bridge.select_eq_ok_iff hapart args,
    Bridge.select_ne_ambiguous hapart args, fun _ hperm => Bridge.chosen?_perm hapart hperm args⟩

/-- Three numbers choose the loose colour among five forms of a background, a vector of three the first one. -/
theorem background_unambiguous :
    (surface.member? nameplateType "setBackgroundColor").isSome ∧
    (∀ (i j : Nat) (s s' : Signature), backgroundOverloads[i]? = some s → backgroundOverloads[j]? = some s' →
      Accepts s [.integer 1, .number 2, .integer 3] → Accepts s' [.integer 1, .number 2, .integer 3] → i = j) ∧
    Bridge.select backgroundOverloads [.integer 1, .number 2, .integer 3] = .ok 3 :=
  have hmember : surface.member? nameplateType "setBackgroundColor" = some (.method backgroundOverloads
      (setNameplate backgroundOf fun color n => { n with background := some color })) := rfl
  have hunambiguous := surface_unambiguous hmember [.integer 1, .number 2, .integer 3]
  ⟨by rw [hmember]; rfl, hunambiguous.1, (hunambiguous.2.1 3).2 ⟨_, rfl, 4, rfl⟩⟩

/-! ## Failure -/

theorem surface_atomic : surface.All fun _ _ m => m.Atomic := by
  intro type name m hmember
  have hm := surface_coheres type name m hmember
  cases m with
  | method overloads run => exact hm.atomic
  | field => trivial

/-- **A call that fails changes nothing.**  Whatever a script calls by the name of a method, on whatever receiver, with
whatever arguments and in whatever state of the package: if the call fails, the services of the package are
those of before, and so are its instructions and its memory but for the error itself. -/
theorem failed_call_changes_nothing (policy : Trust.Policy) (type name : String) (args : List Value)
    (w : World Services) :
    (∃ values w', Bridge.hostFunctions surface policy (.method type name) args w = .done values w') ∨
      ∃ message, Bridge.hostFunctions surface policy (.method type name) args w =
        .fail (.value (.raised w.heap.raised.size))
          ⟨(w.heap.newRaised ⟨Lua.Machine.hostText message, Bridge.nativePlace⟩).2, w.host, w.meter⟩ :=
  Bridge.perform_atomic (Bridge.atomic_bridgeCall surface_atomic policy type name args) w

/-! ## Growth -/

/-- Whatever scripts call lets objects and states grow. -/
theorem bridgeCall_growing (policy : Trust.Policy) (type name : String) (args : List Value) :
    Growing (Bridge.bridgeCall surface policy type name args) := by
  have hfail (message : String) : Growing (Action.fail message : Action Thing (List Value)) :=
    growing_of_reads (Action.reads_fail message)
  cases args with
  | nil => exact hfail _
  | cons this values =>
    refine (growing_of_reads (Bridge.reads_seenAll _)).bind fun shown => ?_
    split
    · split
      · refine (growing_of_reads Bridge.reads_checkAlive).bind fun _ => ?_
        split
        · next overloads run hmember =>
          simp only
          split
          · exact hfail _
          · next hselect => exact (surface_coheres type name _ hmember).grows _ (Bridge.accepts_of_select hselect)
        · exact hfail _
      · exact hfail _
    · exact hfail _

/-! ## Decoding -/

/-- Where every object stands for a thing of its type, so do the objects that a call sees. -/
theorem founded_of_typed {w : World Services} (hw : Typed w.host) {c : Call} {values : List Value}
    (hc : c.arguments = Bridge.trimmed (values.map (Bridge.seen w))) : Founded c w.host := by
  intro i type state hargument
  have hmem : Argument.object type state ∈ values.map (Bridge.seen w) := by
    unfold Call.argument at hargument
    cases hi : c.arguments[i]? with
    | none =>
      rw [hi] at hargument
      cases hargument
    | some a =>
      rw [hi] at hargument
      obtain rfl : a = .object type state := hargument
      have htrimmed := List.mem_of_getElem? hi
      rw [hc, Bridge.trimmed, List.mem_reverse] at htrimmed
      exact List.mem_reverse.1 ((List.dropWhile_sublist _).mem htrimmed)
  obtain ⟨v, -, hv⟩ := List.mem_map.1 hmem
  cases v with
  | object id =>
    cases ho : w.host.objects[id]? with
    | none =>
      simp only [Bridge.seen, Argument.ofValue, ho, Option.getD_none, Argument.object.injEq] at hv
      exact .inl hv.1.symm
    | some o =>
      simp only [Bridge.seen, Argument.ofValue, ho, Option.getD_some, Argument.object.injEq] at hv
      obtain ⟨rfl, rfl⟩ := hv
      exact .inr (hw id o ho)
  | _ => cases hv

theorem surface_types : surface.types.keys = ["EventsAPI", "NameplateAPI", "NetworkAPI", "Particle", "ParticleAPI",
    "RenderAPI", "Sound", "SoundAPI", "Texture", "TextureAPI", "TextureEditContext"] := rfl

/-- No report of a method begins like that of a state of the wrong kind. -/
theorem method_head {type name : String} {m : Member Thing} (hmember : surface.member? type name = some m) :
    (type ++ ":" ++ name).toList.head? ≠ some 'c' := by
  have htype : type ∈ surface.types.keys := by
    rw [Std.ExtTreeMap.mem_keys, Std.ExtTreeMap.mem_iff_isSome_getElem?]
    obtain ⟨t, ht, -⟩ := Option.bind_eq_some_iff.1 hmember
    rw [ht]
    rfl
  have hheads : ∀ type ∈ surface.types.keys, type.toList.head?.any (· ≠ 'c') := by
    rw [surface_types]
    decide
  obtain ⟨x, hx, hne⟩ := Option.any_eq_true _ _ |>.1 (hheads type htype)
  rw [Bridge.head_append (Bridge.head_append hx)]
  simpa using hne

/-- Where every object stands for a thing of its type, a method that accepts its arguments reads all of them. -/
theorem accepted_decodes {type name : String} {overloads : List Signature} {run : Call → Action Thing (List Value)}
    (hmember : surface.member? type name = some (.method overloads run)) {w : World Services} (hw : Typed w.host)
    {c : Call} {id : Nat} (hmethod : c.method = type ++ ":" ++ name)
    (hreceiver : w.host.objects[id]? = some ⟨type, c.state⟩) {values : List Value}
    (harguments : c.arguments = Bridge.trimmed (values.map (Bridge.seen w)))
    (hselect : Bridge.select overloads c.arguments = .ok c.overload) {e : String} {w' : World Services}
    (hfails : run c w = (.error e, w')) : ¬ Bridge.Misread (type ++ ":" ++ name) type e := by
  have hobjection := (surface_coheres type name _ hmember).fails c (Bridge.accepts_of_select hselect) w e
    (hw id _ hreceiver) (founded_of_typed hw harguments) (by rw [hfails])
  rw [hmethod] at hobjection
  exact hobjection.not_misread (method_head hmember)

end Api

end ScriptWarden
