import ScriptWarden.Api.Surface
import ScriptWarden.Proofs.Bridge.Quiet
set_option autoImplicit false

/-!
# API: mediation

Every method of the surface either has nothing to do with the gate of its package, or it asks the gate for
one capability.  Then the answer of the gate alone decides: a grant leads to the one call of the host that
needs the capability, a refusal to nothing at all.
-/

namespace ScriptWarden

open Trust (Capability Policy)

namespace Quota.Gate

/-- The gate without the denied flag of a capability. -/
def forget (g : Gate) (c : Capability) : Gate :=
  { budgets := g.budgets.modify c fun b => { b with denied := false }, refused := g.refused.erase c }

theorem forget_flag (g : Gate) (c : Capability) : (g.flag c).forget c = g.forget c := by
  unfold forget flag
  congr 1
  refine Std.ExtTreeMap.ext_getElem? fun d => ?_
  simp only [Std.ExtTreeMap.getElem?_erase, Std.ExtTreeMap.getElem?_insert]
  split <;> rfl

/-- A refused use changes nothing but the denied flag. -/
theorem forget_tryUse {g : Gate} {c : Capability} (h : (g.tryUse c).1 = false) :
    (g.tryUse c).2.forget c = g.forget c := by
  cases hb : g.budgets[c]? with
  | none => rw [tryUse, hb]
  | some b =>
    have hempty : ¬ 0 < b.remaining := by
      intro hpos
      simp [tryUse, hb, Budget.take, hpos] at h
    unfold forget
    congr 1
    · refine Std.ExtTreeMap.ext_getElem? fun d => ?_
      simp only [tryUse, hb, Budget.take, hempty, if_false, Std.ExtTreeMap.getElem?_modify,
        Std.ExtTreeMap.getElem?_insert]
      split
      · next heq =>
        obtain rfl := Std.LawfulEqOrd.eq_of_compare heq
        simp
      · rfl
    · simp only [tryUse, hb]

@[simp] theorem remaining_forget (g : Gate) (c d : Capability) :
    (g.forget c).remaining d = g.remaining d := by
  unfold remaining forget
  simp only [Std.ExtTreeMap.getElem?_modify]
  split
  · next heq =>
    obtain rfl := Std.LawfulEqOrd.eq_of_compare heq
    cases g.budgets[c]? <;> rfl
  · rfl

/-- A granted use takes one unit. -/
theorem remaining_tryUse {g : Gate} {c : Capability} (h : (g.tryUse c).1 = true) (d : Capability) :
    (g.tryUse c).2.remaining d = g.remaining d - if d = c then 1 else 0 := by
  cases hb : g.budgets[c]? with
  | none => simp [tryUse, hb] at h
  | some b =>
    have hpos : 0 < b.remaining := by
      refine Decidable.byContradiction fun hempty => ?_
      simp [tryUse, hb, Budget.take, hempty] at h
    simp only [remaining, tryUse, hb, Budget.take, hpos, if_true, Std.ExtTreeMap.getElem?_insert]
    by_cases hd : d = c
    · subst hd
      simp [hb]
    · simp [hd, Ne.symm hd]

end Quota.Gate

namespace Api

open Bridge (Action Call Member Registry Signature TypeEntry)
open Lua (Heap Value World)
open Package (Effect Quiet needs)
open Quota (Gate)

/-! ## Decisions of the gate -/

/-- Is a capability granted right now?  One with a budget is if a unit is left, any other if the owner's
value is at least one. -/
def permits (s : Services) (policy : Policy) (c : Capability) : Bool :=
  if c.refillRule.isSome then (s.gate.tryUse c).1 else policy.allows s.principal c 1

/-- The gate after it was asked for a capability. -/
def gateAfter (s : Services) (policy : Policy) (c : Capability) : Gate :=
  if c.refillRule.isSome then (s.gate.tryUse c).2
  else if policy.allows s.principal c 1 then s.gate.unflag c
  else s.gate.flag c

/-- What a call of a method gives, and the world after it. -/
abbrev Result := Except String (List Value) × World Services

/-- The call was granted a capability: it succeeds, and makes one call of the host that needs it and no
other that needs any. -/
structure Granted (s : Services) (policy : Policy) (c : Capability) (out : Result) : Prop where
  permitted : permits s policy c = true
  ok : ∃ vs, out.1 = .ok vs
  gate_eq : out.2.host.gate = gateAfter s policy c
  principal_eq : out.2.host.principal = s.principal
  outbox_eq : ∃ new, out.2.host.outbox = new ++ s.outbox ∧ needs new = [c]

/-- The call was refused a capability: it succeeds, and nothing is different but the denied flag of the
capability and lines for the operator. -/
structure Refused (h : Heap) (s : Services) (policy : Policy) (c : Capability) (out : Result) :
    Prop where
  forbidden : permits s policy c = false
  ok : ∃ vs, out.1 = .ok vs
  heap_eq : out.2.heap = h
  host_eq : ∃ lines : List Diagnostic, out.2.host =
    { s with gate := gateAfter s policy c, outbox := lines.map Effect.notice ++ s.outbox }
  gate_eq : (gateAfter s policy c).forget c = s.gate.forget c

/-- What the gate says to a capability decides the call. -/
def Decided (h : Heap) (s : Services) (policy : Policy) (c : Capability) (out : Result) : Prop :=
  if permits s policy c then Granted s policy c out else Refused h s policy c out

/-- A call from a given heap and services, whatever the gate and the policy are: it has nothing to do with
the gate, or the gate decides it, by one of the capabilities that are `allowed`. -/
def Mediated (allowed : Capability → Prop) (h : Heap) (s : Services)
    (call : Policy → World Services → Result) : Prop :=
  (∀ policy gate, Quiet { s with gate } (call policy ⟨h, { s with gate }, none⟩).2.host) ∨
  ∃ c, allowed c ∧ ∀ policy gate,
    Decided h { s with gate } policy c (call policy ⟨h, { s with gate }, none⟩)

theorem mediated_of_quiet {allowed : Capability → Prop} {h : Heap} {s : Services}
    {call : Policy → Action Thing (List Value)} (hquiet : ∀ policy, (call policy).Quiet) :
    Mediated allowed h s call :=
  .inl fun policy gate => (hquiet policy ⟨h, { s with gate }, none⟩).toQuiet

/-! ## Asking the gate -/

theorem permits_budget {c : Capability} (hc : c.refillRule.isSome) (s : Services) (policy : Policy) :
    permits s policy c = (s.gate.tryUse c).1 := by
  rw [permits, if_pos hc]

theorem gateAfter_budget {c : Capability} (hc : c.refillRule.isSome) (s : Services)
    (policy : Policy) : gateAfter s policy c = (s.gate.tryUse c).2 := by
  rw [gateAfter, if_pos hc]

/-- What the operator hears when a value that is asked for is undefined. -/
def undefinedLines (s : Services) (policy : Policy) (c : Capability) : List Diagnostic :=
  match policy.resolve s.principal c with
  | some _ => []
  | none => [Policy.undefinedNotice s.principal c]

theorem needs_notices (lines : List Diagnostic) : needs (lines.map Effect.notice) = [] := by
  simp [needs, List.filterMap_eq_nil_iff, Package.Effect.capability?]

theorem needs_call {package : String} {call : Host.Call} {c : Capability}
    (h : call.capability? = some c) (lines : List Diagnostic) :
    needs (Effect.call package call :: lines.map Effect.notice) = [c] := by
  have hfirst : (Effect.call package call).capability? = some c := h
  have hrest := needs_notices lines
  unfold needs at hrest ⊢
  rw [List.filterMap_cons_some hfirst, hrest]

theorem trustValue_eq (s : Services) (policy : Policy) (c : Capability) :
    s.trustValue policy c = (policy.resolve s.principal c,
      { s with outbox := (undefinedLines s policy c).map Effect.notice ++ s.outbox }) := by
  unfold Package.Services.trustValue undefinedLines
  cases policy.resolve s.principal c <;> rfl

/-- What `check` says and does for a capability without a budget. -/
theorem check_eq {c : Capability} (hc : c.refillRule = none) (s : Services) (policy : Policy) :
    s.check policy c 1 = (permits s policy c,
      { s with
        gate := gateAfter s policy c
        outbox := (undefinedLines s policy c).map Effect.notice ++ s.outbox }) := by
  have hnone : ¬ (c.refillRule.isSome = true) := by simp [hc]
  rw [Package.Services.check, trustValue_eq, permits, gateAfter, if_neg hnone, if_neg hnone]
  simp only [Policy.allows]
  split
  · next hallowed => simp [hallowed]
  · next hdenied => simp [hdenied]

/-- A call that takes a unit of a budget: what is left to show is what a grant leads to, and that a refusal
leads to nothing. -/
theorem decided_unit {c : Capability} (hc : c.refillRule.isSome) {h : Heap} {s : Services}
    {policy : Policy} {out : Result}
    (hgrant : (s.gate.tryUse c).1 = true → (∃ vs, out.1 = .ok vs) ∧
      out.2.host.gate = (s.gate.tryUse c).2 ∧ out.2.host.principal = s.principal ∧
      ∃ new, out.2.host.outbox = new ++ s.outbox ∧ needs new = [c])
    (hrefuse : (s.gate.tryUse c).1 = false →
      ∃ vs, out = (.ok vs, ⟨h, { s with gate := (s.gate.tryUse c).2 }, none⟩)) :
    Decided h s policy c out := by
  unfold Decided
  split
  · next hpermit =>
    obtain ⟨hok, hgate, hprincipal, houtbox⟩ := hgrant (by rwa [permits_budget hc] at hpermit)
    exact ⟨hpermit, hok, by rw [gateAfter_budget hc, hgate], hprincipal, houtbox⟩
  · next hpermit =>
    have hdenied : (s.gate.tryUse c).1 = false := by
      rw [permits_budget hc] at hpermit
      simpa using hpermit
    obtain ⟨vs, rfl⟩ := hrefuse hdenied
    refine ⟨by simpa using hpermit, ⟨vs, rfl⟩, rfl, ⟨[], ?_⟩, ?_⟩
    · rw [gateAfter_budget hc]
      rfl
    · rw [gateAfter_budget hc]
      exact Gate.forget_tryUse hdenied

/-- A call that needs the owner's trust, in the same way. -/
theorem decided_policy {c : Capability} (hc : c.refillRule = none) {h : Heap} {s : Services}
    {policy : Policy} {out : Result}
    (hgrant : (s.check policy c 1).1 = true → (∃ vs, out.1 = .ok vs) ∧
      out.2.host.gate = (s.check policy c 1).2.gate ∧ out.2.host.principal = s.principal ∧
      ∃ new, out.2.host.outbox = new ++ s.outbox ∧ needs new = [c])
    (hrefuse : (s.check policy c 1).1 = false →
      ∃ vs, out = (.ok vs, ⟨h, (s.check policy c 1).2, none⟩)) :
    Decided h s policy c out := by
  rw [check_eq hc] at hgrant hrefuse
  unfold Decided
  split
  · next hpermit =>
    obtain ⟨hok, hgate, hprincipal, houtbox⟩ := hgrant hpermit
    exact ⟨hpermit, hok, hgate, hprincipal, houtbox⟩
  · next hpermit =>
    have hforbidden : permits s policy c = false := by simpa using hpermit
    obtain ⟨vs, rfl⟩ := hrefuse hforbidden
    refine ⟨hforbidden, ⟨vs, rfl⟩, rfl, ⟨undefinedLines s policy c, rfl⟩, ?_⟩
    have hdenied : policy.allows s.principal c 1 = false := by
      simpa [permits, hc] using hforbidden
    simp [gateAfter, hc, hdenied, Gate.forget_flag]

/-! ## Methods that ask -/

theorem onServices_apply {κ α : Type} (f : Package.Services κ → α × Package.Services κ)
    (w : World (Package.Services κ)) :
    (Action.onServices f : Action κ α) w = (.ok (f w.host).1, { w with host := (f w.host).2 }) := rfl

theorem playSound_mediated {allowed : Capability → Prop} (hallowed : allowed .playSound) (h : Heap)
    (s : Services) (c : Call) (sound : Sound) :
    Mediated allowed h s fun policy => playSound { c with policy } sound := by
  cases hplaying : sound.playing with
  | true => exact mediated_of_quiet fun policy => by simp [playSound, hplaying]
  | false =>
    refine .inr ⟨.playSound, hallowed, fun policy gate => ?_⟩
    simp only [playSound, hplaying, Bool.false_eq_true, if_false, Action.bind_apply,
      onServices_apply, Action.edit, put, Call.self]
    refine decided_unit rfl (fun hgrant => ?_) fun hrefuse => ?_
    · simp only [Package.Services.tryUse, hgrant, if_true, trustValue_eq]
      exact ⟨⟨_, rfl⟩, rfl, rfl, _ :: _, rfl, needs_call rfl _⟩
    · simp only [Package.Services.tryUse, hrefuse, Bool.false_eq_true, if_false]
      exact ⟨_, rfl⟩

theorem spawnParticle_mediated {allowed : Capability → Prop} (hallowed : allowed .spawnParticle)
    (h : Heap) (s : Services) (c : Call) (p : Particle) :
    Mediated allowed h s fun policy => spawnParticle { c with policy } p := by
  refine .inr ⟨.spawnParticle, hallowed, fun policy gate => ?_⟩
  simp only [spawnParticle, Action.bind_apply, onServices_apply, Action.edit, put, Call.self]
  refine decided_unit rfl (fun hgrant => ?_) fun hrefuse => ?_
  · simp only [Package.Services.tryUse, hgrant, if_true]
    cases p.handle with
    | none => exact ⟨⟨_, rfl⟩, rfl, rfl, [_], rfl, rfl⟩
    | some old => exact ⟨⟨_, rfl⟩, rfl, rfl, [_, _], rfl, rfl⟩
  · simp only [Package.Services.tryUse, hrefuse, Bool.false_eq_true, if_false]
    exact ⟨_, rfl⟩

theorem mediated_congr {allowed : Capability → Prop} {h : Heap} {s : Services}
    {call call' : Policy → World Services → Result}
    (heq : ∀ policy gate, call policy ⟨h, { s with gate }, none⟩ =
      call' policy ⟨h, { s with gate }, none⟩)
    (hcall : Mediated allowed h s call') : Mediated allowed h s call := by
  unfold Mediated
  simp only [heq]
  exact hcall

/-- A call that fails at once. -/
theorem mediated_error {allowed : Capability → Prop} {h : Heap} {s : Services}
    {call : Policy → World Services → Result} (e : String)
    (heq : ∀ policy gate, call policy ⟨h, { s with gate }, none⟩ =
      (.error e, ⟨h, { s with gate }, none⟩)) : Mediated allowed h s call := by
  refine .inl fun policy gate => ?_
  rw [heq]
  exact Quiet.refl _

/-- Reading the arguments is the same under every policy, and it does nothing if it fails. -/
theorem mediated_read {α : Type} {allowed : Capability → Prop} {h : Heap} {s : Services}
    {x : Policy → Except String α} {k : Policy → α → Action Thing (List Value)} (y : Except String α)
    (hx : ∀ policy, x policy = y) (hk : ∀ a, Mediated allowed h s fun policy => k policy a) :
    Mediated allowed h s fun policy => (liftM (x policy) : Action Thing α) >>= k policy := by
  cases y with
  | error e =>
    refine mediated_error e fun policy gate => ?_
    rw [Action.bind_apply, hx]
    rfl
  | ok a =>
    refine mediated_congr (fun policy gate => ?_) (hk a)
    rw [Action.bind_apply, hx]
    rfl

theorem mediated_on {α : Type} {allowed : Capability → Prop} {h : Heap} {s : Services} {c : Call}
    {type : String} {view : Thing → Option α} {run : Call → α → Action Thing (List Value)}
    (hrun : ∀ a, Mediated allowed h s fun policy => run { c with policy } a) :
    Mediated allowed h s fun policy => on type view run { c with policy } := by
  cases hview : (s.states[c.state]?).bind view with
  | none =>
    refine mediated_error ("corrupt " ++ type ++ " object") fun policy gate => ?_
    simp only [on, thing, Action.bind_apply, Action.look, hview]
    rfl
  | some a =>
    refine mediated_congr (fun policy gate => ?_) (hrun a)
    simp only [on, thing, Action.bind_apply, Action.look, hview]
    rfl

theorem send_effects (s : Services) (request : Host.Request) :
    (s.send request).2.gate = s.gate ∧ (s.send request).2.principal = s.principal ∧
      ∃ token, (s.send request).2.outbox =
        .call s.package (.request token request) :: s.outbox := by
  unfold Package.Services.send
  simp only
  split <;> exact ⟨rfl, rfl, _, rfl⟩

theorem sendRequest_mediated {allowed : Capability → Prop} (hallowed : allowed .networkCall) (h : Heap)
    (s : Services) (c : Call) : Mediated allowed h s fun policy => sendRequest { c with policy } := by
  unfold sendRequest
  refine mediated_read (requestOf c) (fun _ => rfl) fun request => ?_
  refine .inr ⟨.networkCall, hallowed, fun policy gate => ?_⟩
  simp only [Action.bind_apply, onServices_apply]
  refine decided_unit rfl (fun hgrant => ?_) fun hrefuse => ?_
  · have hgranted : ({ s with gate }.tryUse .networkCall).1 = true := hgrant
    rw [if_pos hgranted]
    obtain ⟨hgate, hprincipal, token, houtbox⟩ :=
      send_effects ({ s with gate }.tryUse .networkCall).2 request
    exact ⟨⟨_, rfl⟩, hgate, hprincipal, [_], houtbox, rfl⟩
  · simp only [Package.Services.tryUse, hrefuse, Bool.false_eq_true, if_false]
    exact ⟨_, rfl⟩

theorem setTextureOverride_mediated {allowed : Capability → Prop} (hallowed : allowed .renderOverride)
    (h : Heap) (s : Services) (c : Call) :
    Mediated allowed h s fun policy => setTextureOverride { c with policy } := by
  unfold setTextureOverride
  refine mediated_read (overrideOf c) (fun _ => rfl) fun (kind, value) => ?_
  refine .inr ⟨.renderOverride, hallowed, fun policy gate => ?_⟩
  simp only [Action.bind_apply, onServices_apply]
  refine decided_policy rfl (fun hgrant => ?_) fun hrefuse => ?_
  · rw [if_pos hgrant, check_eq rfl]
    exact ⟨⟨_, rfl⟩, rfl, rfl, _ :: _, rfl, needs_call rfl _⟩
  · simp only [Bool.false_eq_true, if_false, hrefuse]
    exact ⟨_, rfl⟩

theorem setNameplate_mediated {α : Type} {allowed : Capability → Prop}
    (hallowed : allowed .nameplateEdit) (read : Call → Except String α)
    (hread : ∀ c policy, read { c with policy } = read c)
    (change : α → Host.Nameplate → Host.Nameplate) (h : Heap) (s : Services) (c : Call) :
    Mediated allowed h s fun policy => setNameplate read change { c with policy } := by
  refine mediated_on fun _ => ?_
  refine mediated_read (read c) (hread c) fun a => ?_
  refine .inr ⟨.nameplateEdit, hallowed, fun policy gate => ?_⟩
  simp only [Action.bind_apply, onServices_apply, Call.self]
  refine decided_policy rfl (fun hgrant => ?_) fun hrefuse => ?_
  · rw [if_pos hgrant, check_eq rfl]
    exact ⟨⟨_, rfl⟩, rfl, rfl, _ :: _, rfl, needs_call rfl _⟩
  · simp only [Bool.false_eq_true, if_false, hrefuse]
    exact ⟨_, rfl⟩

end Api

end ScriptWarden
