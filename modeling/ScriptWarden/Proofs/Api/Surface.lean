import ScriptWarden.Proofs.Api.Posts
set_option autoImplicit false

/-!
# API: the surface is mediated

For each capability there is a closed set of methods that can lead to the call that needs it
(`gatedMethods`).  They ask for it; nothing else on the surface has anything to do with the gate.  And whatever a
method does, the answers that come in while it does are paid for.
-/

namespace ScriptWarden

open Bridge (Action Call Member Registry Signature TypeEntry)
open Lua (Heap Value)
open Trust (Capability Policy)

namespace Api

/-- The methods, by type and name, that can lead to a call of the host that needs a capability. -/
def gatedMethods : Capability → List (String × String)
  | .playSound => [(soundType, "play")]
  | .spawnParticle => [(particleType, "spawn")]
  | .networkCall => [(networkType, "request")]
  | .renderOverride => [(renderType, "setTextureOverride")]
  | .nameplateEdit =>
    ["setText", "text", "setVisible", "visible", "setShadow", "shadow", "setOutline", "outline",
      "setPos", "pos", "setScale", "scale", "setBackgroundColor", "backgroundColor"].map
      (nameplateType, ·)
  | _ => []

/-- Can a method lead to a call of the host that needs a capability? -/
def Gated (type name : String) (c : Capability) : Prop := (type, name) ∈ gatedMethods c

/-- Every call of a method is mediated. -/
def MediatedMethod (type name : String) (run : Call → Action Thing (List Value)) : Prop :=
  ∀ h s (c : Call), Mediated (Gated type name) h s fun policy => run { c with policy }

/-- What holds of every member of the surface. -/
def Mediates (type name : String) : Member Thing → Prop
  | .method _ run => MediatedMethod type name run ∧ ∀ c, (run c).Posts
  | .field _ get => ∀ state, (get state).Quiet

end Api

namespace Bridge.TypeEntry.All

open Api (Mediates Thing)

variable {type : String} {t : TypeEntry Thing}

/-- A method that is quiet. -/
theorem quiet (ht : t.All (Mediates type)) {name : String} (overloads : List Signature)
    {run : Call → Action Thing (List Value)} (hrun : ∀ c, (run c).Quiet) :
    (t.method name overloads run).All (Mediates type) :=
  ht.method overloads fun _ => ⟨fun _ _ _ => Api.mediated_of_quiet fun _ => hrun _, fun c => (hrun c).posts⟩

/-- A quiet method under several names. -/
theorem quiets (ht : t.All (Mediates type)) {names : List String} (overloads : List Signature)
    {run : Call → Action Thing (List Value)} (hrun : ∀ c, (run c).Quiet) :
    (t.methods names overloads run).All (Mediates type) :=
  ht.methods overloads fun _ _ _ => ⟨fun _ _ _ => Api.mediated_of_quiet fun _ => hrun _, fun c => (hrun c).posts⟩

/-- A setter of the nameplate under several names. -/
theorem setters {t : TypeEntry Thing} (ht : t.All (Mediates Api.nameplateType)) {α : Type}
    {names : List String} (overloads : List Signature)
    (hnames : ∀ name ∈ names, Api.Gated Api.nameplateType name .nameplateEdit)
    {read : Call → Except String α} (hread : ∀ c policy, read { c with policy } = read c)
    {change : α → Host.Nameplate → Host.Nameplate} :
    (t.methods names overloads (Api.setNameplate read change)).All (Mediates Api.nameplateType) :=
  ht.methods overloads fun name hname _ =>
    ⟨fun h s c => Api.setNameplate_mediated (hnames name hname) read hread change h s c,
      Api.posts_setNameplate read change⟩

end Bridge.TypeEntry.All

namespace Api

open Bridge.TypeEntry (all_empty)

/-- A type without members. -/
theorem mediates_nothing (type doc : String) :
    (TypeEntry.describe {} doc).All (Mediates type) := all_empty.describe doc

variable {r : Registry Thing}

/-! ## Types -/

theorem registerSounds_mediates (hr : r.All Mediates) :
    (registerSounds r create).All Mediates := by
  have hplay : MediatedMethod soundType "play" (onSound playSound) := fun h s c =>
    mediated_on fun sound => playSound_mediated (by simp [Gated, gatedMethods]) h s c sound
  refine (hr.register ?_).register ?_
  · exact (mediates_nothing soundMaker _).quiet _ (quiet_on fun c _ => by simp)
  · exact mediates_nothing soundType _
      |>.method _ (fun _ => ⟨hplay, posts_on posts_playSound⟩)
      |>.quiet _ (quiet_on quiet_stopSound)
      |>.quiet _ (quiet_on quiet_pauseSound)
      |>.quiet _ (quiet_on fun _ _ => quiet_truth _)
      |>.quiet _ (quiet_on fun _ _ => quiet_text _)
      |>.quiet _ (quiet_on fun _ _ => quiet_vector _)
      |>.quiets _ (quiet_setSound _)
      |>.quiet _ (quiet_on fun _ _ => quiet_number _)
      |>.quiets _ (quiet_setSound _)
      |>.quiet _ (quiet_on fun _ _ => quiet_number _)
      |>.quiets _ (quiet_setSound _)
      |>.quiet _ (quiet_on fun _ _ => quiet_truth _)
      |>.quiets _ (quiet_setSound _)
      |>.quiet _ (quiet_on fun _ _ => quiet_number _)
      |>.quiets _ (quiet_setSound _)

theorem registerParticles_mediates (hr : r.All Mediates) :
    (registerParticles r create).All Mediates := by
  have hspawn : MediatedMethod particleType "spawn" (onParticle spawnParticle) := fun h s c =>
    mediated_on fun p => spawnParticle_mediated (by simp [Gated, gatedMethods]) h s c p
  refine (hr.register ?_).register ?_
  · exact (mediates_nothing particleMaker _).quiet _ (quiet_on fun c _ => by simp)
  · exact mediates_nothing particleType _
      |>.method _ (fun _ => ⟨hspawn, posts_on posts_spawnParticle⟩)
      |>.quiet _ (quiet_on quiet_removeParticle)
      |>.quiet _ (quiet_on fun _ _ => quiet_truth _)
      |>.quiet _ (quiet_on fun _ _ => quiet_text _)
      |>.quiet _ (quiet_on fun _ _ => quiet_vector _)
      |>.quiets _ (quiet_setParticle _)
      |>.quiet _ (quiet_on fun _ _ => quiet_vector _)
      |>.quiets _ (quiet_setParticle _)
      |>.quiet _ (quiet_on fun _ _ => quiet_vector _)
      |>.quiets _ (quiet_setParticle _)
      |>.quiet _ (quiet_on fun _ _ => Action.quiet_pure _)
      |>.quiets _ (quiet_setParticle _)
      |>.quiet _ (quiet_on fun _ _ => quiet_number _)
      |>.quiets _ (quiet_setParticle _)
      |>.quiet _ (quiet_on fun _ _ => quiet_number _)
      |>.quiets _ (quiet_setParticle _)
      |>.quiet _ (quiet_on fun _ _ => quiet_number _)
      |>.quiets _ (quiet_setParticle _)
      |>.quiet _ (quiet_on fun _ _ => quiet_truth _)
      |>.quiets _ (quiet_setParticle _)

theorem registerTextures_mediates (hr : r.All Mediates) :
    (registerTextures r create).All Mediates := by
  refine ((hr.register ?_).register ?_).register ?_
  · exact mediates_nothing textureMaker _
      |>.quiet _ (quiet_on fun c _ => quiet_findTexture c)
      |>.quiet _ (quiet_on fun c _ => quiet_newTexture c)
      |>.quiet _ (quiet_on fun _ _ => quiet_listTextures)
  · exact mediates_nothing textureType _
      |>.quiet _ (quiet_on fun _ _ => by simp)
      |>.quiet _ (quiet_on fun _ _ => by simp)
      |>.quiet _ (quiet_on fun _ _ => by simp)
      |>.quiet _ (quiet_on quiet_setTexturePixel)
      |>.quiet _ (quiet_on quiet_fillTexture)
      |>.quiet _ (quiet_on fun _ _ => by simp)
      |>.quiet _ (quiet_on quiet_applyToTexture)
  · exact mediates_nothing draftType _
      |>.field (quiet_draftMeasure _)
      |>.field (quiet_draftMeasure _)
      |>.quiet _ (quiet_on quiet_readDraft)
      |>.quiet _ (quiet_on quiet_queuePixel)
      |>.quiet _ (quiet_on quiet_cancelPixel)
      |>.quiet _ (quiet_on quiet_cancelRegion)
      |>.quiet _ (quiet_on (quiet_queueRegion · · _))
      |>.quiet _ (quiet_on (quiet_queueRegion · · _))
      |>.quiet _ (quiet_on fun _ _ => by simp)
      |>.quiet _ (quiet_on fun _ _ => by simp)

theorem registerNameplate_mediates (hr : r.All Mediates) : (registerNameplate r).All Mediates := by
  refine hr.register ?_
  exact mediates_nothing nameplateType _
    |>.quiet _ (quiet_showNameplate fun _ => Action.quiet_pure _)
    |>.setters _ (by simp [Gated, gatedMethods]) (fun _ _ => rfl)
    |>.quiet _ (quiet_showNameplate fun _ => quiet_truth _)
    |>.setters _ (by simp [Gated, gatedMethods]) (fun _ _ => rfl)
    |>.quiet _ (quiet_showNameplate fun _ => quiet_truth _)
    |>.setters _ (by simp [Gated, gatedMethods]) (fun _ _ => rfl)
    |>.quiet _ (quiet_showNameplate fun _ => quiet_truth _)
    |>.setters _ (by simp [Gated, gatedMethods]) (fun _ _ => rfl)
    |>.quiet _ (quiet_showNameplate fun _ => quiet_vector _)
    |>.setters _ (by simp [Gated, gatedMethods]) (fun _ _ => rfl)
    |>.quiet _ (quiet_showNameplate fun _ => quiet_vector _)
    |>.setters _ (by simp [Gated, gatedMethods]) (fun _ _ => rfl)
    |>.quiet _ (quiet_showNameplate fun n => by cases n.background <;> simp)
    |>.setters _ (by simp [Gated, gatedMethods]) (fun _ _ => rfl)

theorem registerRender_mediates (hr : r.All Mediates) : (registerRender r).All Mediates := by
  have hoverride : MediatedMethod renderType "setTextureOverride"
      (on renderType Thing.service? fun c _ => setTextureOverride c) := fun h s c =>
    mediated_on fun _ => setTextureOverride_mediated (by simp [Gated, gatedMethods]) h s c
  exact hr.register ((mediates_nothing renderType _).method _ fun _ =>
    ⟨hoverride, posts_on fun c _ => posts_setTextureOverride c⟩)

theorem registerNetwork_mediates (hr : r.All Mediates) : (registerNetwork r).All Mediates := by
  have hrequest : MediatedMethod networkType "request"
      (on networkType Thing.service? fun c _ => sendRequest c) := fun h s c =>
    mediated_on fun _ => sendRequest_mediated (by simp [Gated, gatedMethods]) h s c
  exact hr.register ((mediates_nothing networkType _).method _ fun _ =>
    ⟨hrequest, posts_on fun c _ => posts_sendRequest c⟩)

theorem registerEvents_mediates (hr : r.All Mediates) : (registerEvents r).All Mediates := by
  have hedit : ∀ (c : Call) (f : Services → Std.ExtTreeMap String (List Value)), (do
      Action.edit fun s => { s with callbacks := f s }
      c.self : Action Thing (List Value)).Quiet := fun c f =>
    Action.quiet_bind (Action.quiet_edit fun _ => .of_eq rfl rfl rfl rfl rfl) fun _ => Bridge.quiet_self c
  refine hr.register ?_
  exact mediates_nothing eventsType _
    |>.quiet _ (quiet_on fun c _ => by simp [hedit c])
    |>.quiet _ (quiet_on fun c _ => by simp [hedit c])
    |>.quiet _ (quiet_on fun _ _ => by simp)

/-- Every member of the surface is mediated. -/
theorem surface_mediates : surface.All Mediates := by
  unfold surface
  exact registerEvents_mediates (registerNetwork_mediates (registerRender_mediates
    (registerNameplate_mediates (registerTextures_mediates (registerParticles_mediates
      (registerSounds_mediates Bridge.Registry.all_empty))))))

/-! ## Calls -/

section Calls

variable {allowed : Capability → Prop} {h : Heap} {s : Services}

theorem mediated_fail (e : String) : Mediated allowed h s fun _ => Action.fail e :=
  mediated_error e fun _ _ => rfl

theorem mediated_checkAlive {k : Policy → Action Thing (List Value)}
    (hk : Mediated allowed h s fun policy => k policy) :
    Mediated allowed h s fun policy => Bridge.checkAlive >>= fun _ => k policy := by
  cases halive : s.alive with
  | false =>
    refine mediated_error ("package '" ++ s.package ++ "' has been unloaded") fun policy gate => ?_
    have hended : Package.Services.alive { s with gate } = false := halive
    simp only [Bridge.checkAlive, Action.bind_apply, Action.look, hended]
    rfl
  | true =>
    refine mediated_congr (fun policy gate => ?_) hk
    have hlive : Package.Services.alive { s with gate } = true := halive
    simp only [Bridge.checkAlive, Action.bind_apply, Action.look, hlive]
    rfl

theorem mediated_seenAll {vs : List Value}
    {k : Policy → List Bridge.Argument → Action Thing (List Value)}
    (hk : Mediated allowed h s fun policy => k policy (vs.map (Bridge.Argument.ofValue h s.objects))) :
    Mediated allowed h s fun policy => Bridge.seenAll vs >>= k policy :=
  mediated_congr (fun _ _ => rfl) hk

end Calls

theorem callMethod_mediated (h : Heap) (s : Services) (type name : String) (this : Value)
    (values : List Value) (state : Nat) (shown : List Bridge.Argument) :
    Mediated (Gated type name) h s fun policy =>
      Bridge.callMethod surface policy type name this values state shown := by
  unfold Bridge.callMethod
  refine mediated_checkAlive ?_
  cases hmember : surface.member? type name with
  | none => exact mediated_fail _
  | some m =>
    have hm := surface_mediates type name m hmember
    cases m with
    | field fieldType get => exact mediated_fail _
    | method overloads run =>
      cases hselect : Bridge.select overloads (Bridge.trimmed shown) with
      | error refusal =>
        simp only [hselect]
        exact mediated_fail _
      | ok overload =>
        simp only [hselect]
        exact hm.1 h s
          ⟨type ++ ":" ++ name, this, state, overload, Bridge.trimmed shown, values, default⟩

/-- Every call that a script can make is mediated. -/
theorem bridgeCall_mediated (h : Heap) (s : Services) (type name : String) (args : List Value) :
    Mediated (Gated type name) h s fun policy =>
      Bridge.bridgeCall surface policy type name args := by
  unfold Bridge.bridgeCall
  cases args with
  | nil => exact mediated_fail _
  | cons this values =>
    refine mediated_seenAll ?_
    simp only [List.map_cons, List.headD_cons, List.tail_cons]
    cases Bridge.Argument.ofValue h s.objects this with
    | object found state =>
      by_cases hfound : found = type
      · simp only [hfound, if_true]
        exact callMethod_mediated h s type name this values state _
      · simp only [hfound, if_false]
        exact mediated_fail _
    | _ => exact mediated_fail _

/-- The answers that come in while a script calls a method are paid for. -/
theorem bridgeCall_posts (policy : Policy) (type name : String) (args : List Value) :
    (Bridge.bridgeCall surface policy type name args).Posts := by
  have hfail (message : String) : (Action.fail message : Action Thing (List Value)).Posts :=
    (Action.quiet_fail message).posts
  unfold Bridge.bridgeCall
  cases args with
  | nil => exact hfail _
  | cons this values =>
    refine .bind (Bridge.quiet_seenAll _).posts fun shown => ?_
    split
    · refine Action.posts_ite ?_ (hfail _)
      refine .bind Bridge.quiet_checkAlive.posts fun _ => ?_
      split
      · next overloads run hmember =>
        simp only
        split
        · exact hfail _
        · exact (surface_mediates type name _ hmember).2 _
      · exact hfail _
    · exact hfail _

end Api

end ScriptWarden
