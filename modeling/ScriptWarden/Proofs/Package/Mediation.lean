import ScriptWarden.Proofs.Api.Surface
import ScriptWarden.Proofs.Package.Turn
set_option autoImplicit false

/-!
# Packages: complete mediation

Over every run of a package, under trust that changes at will, the host plays, spawns, sends, overrides and
edits the nameplate in calls of the gated methods only, once for each grant of the gate.
-/

namespace ScriptWarden.Package

open Api (Decided Gated Granted Refused Thing)
open Bridge (Action)
open Lua (Heap Value)
open Trust (Capability Policy)

/-! ## Turns that leave the gate alone -/

/-- Does a turn lead to calls of the host that need a capability only by way of the gate? -/
def Turn.Mediated (turn : Turn) : Prop :=
  match turn with
  | .call heap type name args =>
    ∀ s, Api.Mediated (Gated type name) heap s fun policy =>
      Bridge.bridgeCall Api.surface policy type name args
  | .clock => ∀ policy (s : Api.Services), ∃ lines : List Diagnostic,
    s.tickQuotas policy = { s with
      gate := s.gate.tick (policy.resolve s.principal)
      outbox := lines.map Effect.notice ++ s.outbox }
  | turn => ∀ policy s, Quiet s (turn.apply policy s)

theorem tickQuotas_eq (policy : Policy) (s : Api.Services) : ∃ lines : List Diagnostic,
    s.tickQuotas policy = { s with
      gate := s.gate.tick (policy.resolve s.principal)
      outbox := lines.map Effect.notice ++ s.outbox } := by
  have hconsult : ∀ (cs : List Capability) (s : Api.Services), ∃ lines : List Diagnostic,
      cs.foldl (fun s c => (s.trustValue policy c).2) s =
        { s with outbox := lines.map Effect.notice ++ s.outbox } := by
    intro cs
    induction cs with
    | nil => exact fun s => ⟨[], rfl⟩
    | cons c rest ih =>
      intro s
      obtain ⟨lines, hlines⟩ := ih (s.trustValue policy c).2
      refine ⟨lines ++ Api.undefinedLines s policy c, ?_⟩
      rw [List.foldl_cons, hlines, Api.trustValue_eq, List.map_append, List.append_assoc]
  obtain ⟨lines, hlines⟩ := hconsult s.gate.due s
  exact ⟨lines, by rw [Services.tickQuotas, hlines]⟩

theorem quiet_uploadDirty (s : Api.Services) : Quiet s s.uploadDirty.2 := by
  have hone : ∀ (s : Api.Services) id, Quiet s (s.uploadOne id) := by
    intro s id
    unfold Services.uploadOne
    split
    · simp only
      split
      · exact .trans (.tell s rfl) (.of_eq rfl rfl rfl)
      · exact .refl s
    · exact .refl s
  unfold Services.uploadDirty
  generalize s.textures.values = ids
  induction ids generalizing s with
  | nil => exact .refl s
  | cons id rest ih => exact (hone s id).trans (ih _)

theorem quiet_field (heap : Heap) (type name : String) (state : Nat) (policy : Policy)
    (s : Api.Services) : Quiet s ((Turn.field heap type name state).apply policy s) := by
  unfold Turn.apply
  simp only
  split
  · next fieldType get hmember =>
    exact (Bridge.quiet_readField (Api.surface_mediates type name _ hmember state) ⟨heap, s, none⟩).toQuiet
  · exact .refl s

theorem turn_mediated (turn : Turn) : turn.Mediated := by
  cases turn with
  | call heap type name args => exact fun s => Api.bridgeCall_mediated heap s type name args
  | clock => exact tickQuotas_eq
  | field heap type name state => exact quiet_field heap type name state
  | method type name =>
    intro policy s
    unfold Turn.apply
    simp only
    split
    · exact .refl s
    · exact .of_eq rfl rfl rfl
  | log level message => exact fun _ s => .trans (.note s _) (.of_eq rfl rfl rfl)
  | module name => exact fun _ _ => .of_eq rfl rfl rfl
  | install modules => exact fun _ _ => .of_eq rfl rfl rfl
  | object type => exact fun _ _ => .of_eq rfl rfl rfl
  | consult c => exact fun policy s => .trustValue s policy c
  | note d => exact fun _ s => .note s d
  | printed bytes => exact fun _ s => .emit s rfl
  | unending => exact fun _ s => .emit s rfl
  | taken =>
    intro policy s
    unfold Turn.apply
    simp only
    split
    · exact .of_eq rfl rfl rfl
    · exact .refl s
  | delivered c => exact fun _ _ => .of_eq rfl rfl rfl
  | upload => exact fun _ s => quiet_uploadDirty s
  | shutdown => exact fun _ _ => .of_eq rfl rfl rfl
  | drained => exact fun _ _ => .of_eq rfl rfl rfl

/-! ## Units and calls -/

/-- The calls of the host in the outbox that need a capability. -/
def calls (s : Api.Services) (c : Capability) : Nat := (needs s.outbox).count c

/-- The units of a budget that a turn took: what a script's call left fewer of. -/
def Turn.units (policy : Policy) (c : Capability) (turn : Turn) (s : Api.Services) : Int :=
  match turn with
  | .call .. => s.gate.remaining c - (turn.apply policy s).gate.remaining c
  | _ => 0

/-- The units of a budget that turns took, one after the other. -/
def unitsTaken (c : Capability) : List (Policy × Turn) → Api.Services → Int
  | [], _ => 0
  | (policy, turn) :: rest, s => turn.units policy c s + unitsTaken c rest (turn.apply policy s)

theorem calls_quiet {s s' : Api.Services} (h : Quiet s s') (c : Capability) :
    calls s' c = calls s c := by
  obtain ⟨new, hnew, hnone⟩ := h.outbox_eq
  rw [calls, calls, hnew, needs_append, hnone, List.nil_append]

theorem remaining_gateAfter {s : Api.Services} {policy : Policy} {c : Capability}
    (hpermit : Api.permits s policy c = true) {d : Capability} (hd : d.refillRule.isSome) :
    (Api.gateAfter s policy c).remaining d = s.gate.remaining d - if d = c then 1 else 0 := by
  by_cases hc : c.refillRule.isSome
  · rw [Api.permits_budget hc] at hpermit
    rw [Api.gateAfter_budget hc]
    exact Quota.Gate.remaining_tryUse hpermit d
  · have hne : d ≠ c := by
      rintro rfl
      exact hc hd
    rw [Api.permits, if_neg hc] at hpermit
    rw [Api.gateAfter, if_neg hc, hpermit, if_pos rfl, if_neg hne]
    simp [Quota.Gate.remaining, Quota.Gate.unflag]

/-- A call is quiet, or the gate decides it. -/
theorem call_cases (heap : Heap) (type name : String) (args : List Value) (policy : Policy)
    (s : Api.Services) :
    Quiet s ((Turn.call heap type name args).apply policy s) ∨
      ∃ c, Gated type name c ∧
        Decided heap s policy c
          (Bridge.bridgeCall Api.surface policy type name args ⟨heap, s, none⟩) := by
  obtain hquiet | ⟨c, hgated, hdecided⟩ := Api.bridgeCall_mediated heap s type name args
  · exact .inl (hquiet policy s.gate)
  · exact .inr ⟨c, hgated, hdecided policy s.gate⟩

theorem calls_granted {s : Api.Services} {policy : Policy} {c : Capability} {out : Api.Result}
    (h : Granted s policy c out) (d : Capability) :
    calls out.2.host d = calls s d + if d = c then 1 else 0 := by
  obtain ⟨new, hnew, hneeds⟩ := h.outbox_eq
  rw [calls, calls, hnew, needs_append, hneeds, List.count_append, Nat.add_comm]
  by_cases hd : d = c
  · simp [hd]
  · simp [hd, Ne.symm hd]

theorem calls_refused {heap : Heap} {s : Api.Services} {policy : Policy} {c : Capability}
    {out : Api.Result} (h : Refused heap s policy c out) (d : Capability) :
    calls out.2.host d = calls s d := by
  obtain ⟨lines, hlines⟩ := h.host_eq
  rw [hlines]
  simp [calls, Api.needs_notices]

/-- A call of the host that needs a capability is made in a call of a gated method, when the gate permits
it, and there is one. -/
theorem calls_turn (turn : Turn) (policy : Policy) (s : Api.Services) (c : Capability) :
    calls (turn.apply policy s) c = calls s c ∨
      ∃ heap type name args, turn = .call heap type name args ∧ Gated type name c ∧
        Api.permits s policy c = true ∧ calls (turn.apply policy s) c = calls s c + 1 := by
  have hturn := turn_mediated turn
  cases turn with
  | call heap type name args =>
    obtain hquiet | ⟨d, hgated, hdecided⟩ := call_cases heap type name args policy s
    · exact .inl (calls_quiet hquiet c)
    · unfold Decided at hdecided
      split at hdecided
      · next hpermit =>
        have hcalls := calls_granted hdecided c
        by_cases hc : c = d
        · subst hc
          rw [if_pos rfl] at hcalls
          exact .inr ⟨heap, type, name, args, rfl, hgated, hpermit, hcalls⟩
        · rw [if_neg hc] at hcalls
          exact .inl hcalls
      · exact .inl (calls_refused hdecided c)
  | clock =>
    obtain ⟨lines, hlines⟩ := hturn policy s
    refine .inl ?_
    change calls (s.tickQuotas policy) c = calls s c
    rw [hlines]
    simp [calls, Api.needs_notices]
  | _ => exact .inl (calls_quiet (hturn policy s) c)

theorem remaining_refused {heap : Heap} {s : Api.Services} {policy : Policy} {c : Capability}
    {out : Api.Result} (h : Refused heap s policy c out) (d : Capability) :
    out.2.host.gate.remaining d = s.gate.remaining d := by
  obtain ⟨lines, hlines⟩ := h.host_eq
  rw [hlines, ← Quota.Gate.remaining_forget _ c d, h.gate_eq, Quota.Gate.remaining_forget]

theorem units_turn (turn : Turn) (policy : Policy) (s : Api.Services) {c : Capability}
    (hc : c.refillRule.isSome) :
    (calls (turn.apply policy s) c : Int) = calls s c + turn.units policy c s := by
  have hsteady : calls (turn.apply policy s) c = calls s c → turn.units policy c s = 0 →
      (calls (turn.apply policy s) c : Int) = calls s c + turn.units policy c s := by omega
  cases turn with
  | call heap type name args =>
    obtain hquiet | ⟨d, -, hdecided⟩ := call_cases heap type name args policy s
    · exact hsteady (calls_quiet hquiet c) (by simp [Turn.units, hquiet.gate_eq])
    · unfold Decided at hdecided
      split at hdecided
      · next hpermit =>
        have hcalls := calls_granted hdecided c
        have hleft := remaining_gateAfter hpermit hc
        rw [← hdecided.gate_eq] at hleft
        change (calls (Bridge.bridgeCall _ _ _ _ _ _).2.host c : Int) =
          calls s c + (s.gate.remaining c - (Bridge.bridgeCall _ _ _ _ _ _).2.host.gate.remaining c)
        rw [hcalls, hleft]
        split <;> omega
      · refine hsteady (calls_refused hdecided c) ?_
        have hleft := remaining_refused hdecided c
        change s.gate.remaining c - (Bridge.bridgeCall _ _ _ _ _ _).2.host.gate.remaining c = 0
        omega
  | _ =>
    obtain hsame | ⟨_, _, _, _, hcall, _⟩ := calls_turn _ policy s c
    · exact hsteady hsame rfl
    · cases hcall

/-- However trust changes between the turns of a package, the calls of the host that need a capability with
a budget are as many as the units of it that were taken. -/
theorem calls_play (turns : List (Policy × Turn)) (s : Api.Services) {c : Capability}
    (hc : c.refillRule.isSome) :
    (calls (play s turns) c : Int) = calls s c + unitsTaken c turns s := by
  induction turns generalizing s with
  | nil => simp [play, unitsTaken]
  | cons turn rest ih =>
    obtain ⟨policy, turn⟩ := turn
    have hfirst := units_turn turn policy s hc
    have hrest := ih (turn.apply policy s)
    unfold unitsTaken
    change (calls (play (turn.apply policy s) rest) c : Int) = _
    omega

/-- **Complete mediation.**  Every turn of a package reaches the gated calls of the host only by way of the
gate; a gated call is one grant of its capability in a call of one of its methods, and for the capabilities
with a budget one unit; and whatever the host does with an instance, under whatever trust, is turns. -/
theorem complete_mediation :
    (∀ turn : Turn, turn.Mediated) ∧
    (∀ (turn : Turn) (policy : Policy) (s : Api.Services) (c : Capability),
      calls (turn.apply policy s) c = calls s c ∨
        ∃ heap type name args, turn = .call heap type name args ∧ Gated type name c ∧
          Api.permits s policy c = true ∧ calls (turn.apply policy s) c = calls s c + 1) ∧
    (∀ (turns : List (Policy × Turn)) (s : Api.Services) (c : Capability), c.refillRule.isSome →
      (calls (play s turns) c : Int) = calls s c + unitsTaken c turns s) ∧
    ∀ (t : Terms) (i : Instance) (ops : List (Policy × Operation)),
      ∃ parts : List (List Turn), parts.length = ops.length ∧
        (afterAll t i ops).services = play i.services (underPolicies ops parts) :=
  ⟨turn_mediated, calls_turn, fun turns s _ hc => calls_play turns s hc, run_is_play⟩

end ScriptWarden.Package
