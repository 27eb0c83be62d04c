import ScriptWarden.Proofs.Package.Mediation
import ScriptWarden.Proofs.Package.Services
import ScriptWarden.Proofs.Quota.Denied
set_option autoImplicit false

/-!
# Packages: decisions

A call of a gated method asks the gate for one capability, and nothing else that happens to a package asks it for
anything.  So the gate of a package goes through a run of its own, whose uses and flags are the decisions of these calls
(`records_play`), and the capabilities that the host lists as denied are those whose last decision was a refusal
(`denied_tells_last_decision`).
-/

namespace ScriptWarden.Package

open Api (Decided Gated)
open Lua (Heap)
open Quota (Gate Op)
open Trust (Capability Policy)

/-! ## What is asked -/

/-- A turn asks the gate for a capability: it is a call of one of its methods, and the gate decides it, whatever the
gate and the owner's trust are. -/
def Turn.Asks (turn : Turn) (s : Api.Services) (c : Capability) : Prop :=
  match turn with
  | .call heap type name args => Gated type name c ∧ ∀ policy gate,
    Decided heap { s with gate } policy c
      (Bridge.bridgeCall Api.surface policy type name args ⟨heap, { s with gate }, none⟩)
  | _ => False

/-- A method is gated by one capability. -/
theorem gated_unique {type name : String} {c d : Capability} (hc : Gated type name c) (hd : Gated type name d) :
    c = d := by
  have hapart : ∀ c ∈ Capability.all, ∀ d ∈ Capability.all,
      ∀ m ∈ Api.gatedMethods c, m ∈ Api.gatedMethods d → c = d := by decide +kernel
  exact hapart c (Capability.mem_all c) d (Capability.mem_all d) _ hc hd

theorem Turn.Asks.unique {turn : Turn} {s : Api.Services} {c d : Capability} (hc : turn.Asks s c)
    (hd : turn.Asks s d) : c = d := by
  cases turn with
  | call heap type name args => exact gated_unique hc.1 hd.1
  | _ => exact hc.elim

open Classical in
/-- What the gate says to a capability in a turn, if the turn asks for it. -/
noncomputable def Turn.decision (c : Capability) (policy : Policy) (turn : Turn) (s : Api.Services) : List Bool :=
  if turn.Asks s c then [Api.permits s policy c] else []

/-- What the gate says to a capability in turns, one after the other. -/
noncomputable def decisions (c : Capability) : List (Policy × Turn) → Api.Services → List Bool
  | [], _ => []
  | (policy, turn) :: rest, s => turn.decision c policy s ++ decisions c rest (turn.apply policy s)

theorem Turn.decision_of_asks {turn : Turn} {s : Api.Services} {c : Capability} (hc : turn.Asks s c)
    (policy : Policy) (d : Capability) :
    turn.decision d policy s = if d = c then [Api.permits s policy c] else [] := by
  by_cases hd : d = c
  · subst hd
    rw [decision, if_pos hc, if_pos rfl]
  · rw [decision, if_neg fun hasks => hd (hasks.unique hc), if_neg hd]

theorem Turn.decision_of_not_asks {turn : Turn} {s : Api.Services} (hnone : ∀ c, ¬ turn.Asks s c) (policy : Policy)
    (d : Capability) : turn.decision d policy s = [] := by
  rw [decision, if_neg (hnone d)]

/-! ## The run of the gate -/

/-- Operations on a gate record decisions: the uses are those on capabilities with a budget, the flags those on all
others. -/
structure Records (g : Gate) (ops : List Op) (said : Capability → List Bool) : Prop where
  replies_eq : ∀ c, g.replies c ops = if c.refillRule.isSome then said c else []
  marks_eq : ∀ c, Quota.marks c ops = if c.refillRule.isSome then [] else (said c).map (!·)

namespace Records

variable {g : Gate} {ops ops' : List Op} {said said' : Capability → List Bool}

theorem nil (g : Gate) : Records g [] fun _ => [] where
  replies_eq c := by split <;> rfl
  marks_eq c := by split <;> rfl

theorem append (h : Records g ops said) (h' : Records (g.run ops) ops' said') :
    Records g (ops ++ ops') fun c => said c ++ said' c where
  replies_eq c := by
    rw [Gate.replies_append, h.replies_eq, h'.replies_eq]
    split <;> rfl
  marks_eq c := by
    rw [Quota.marks_append, h.marks_eq, h'.marks_eq]
    split
    · rfl
    · exact List.map_append.symm

/-- A tick decides nothing. -/
theorem tick (g : Gate) (trust : Capability → Trust.Effective) : Records g [.tick trust] fun _ => [] where
  replies_eq c := by split <;> rfl
  marks_eq c := by split <;> rfl

/-- A use of a capability with a budget is a decision. -/
theorem use (g : Gate) {c : Capability} (hc : c.refillRule.isSome = true) :
    Records g [.use c] fun d => if d = c then [(g.tryUse c).1] else [] where
  replies_eq d := by
    by_cases hd : d = c
    · simp [Gate.replies, Gate.answers, Op.isUse, hd, hc]
    · simp [Gate.replies, Gate.answers, Op.isUse, hd, Ne.symm hd]
  marks_eq d := by
    by_cases hd : d = c
    · simp [Quota.marks, Op.mark?, hd, hc]
    · simp [Quota.marks, Op.mark?, hd]

/-- A mark of policy on any other capability is a decision. -/
theorem mark (g : Gate) {c : Capability} (hc : ¬ c.refillRule.isSome = true) {op : Op} {granted : Bool}
    (hop : ∀ d, op.mark? d = if c = d then some (!granted) else none) :
    Records g [op] fun d => if d = c then [granted] else [] where
  replies_eq d := by
    have huse : op.isUse d = false := by
      cases op with
      | use e => simpa [Op.mark?] using hop c
      | _ => rfl
    by_cases hd : d = c
    · subst hd
      simp [Gate.replies, Gate.answers, huse, hc]
    · simp [Gate.replies, Gate.answers, huse, hd]
  marks_eq d := by
    by_cases hd : d = c
    · subst hd
      simp [Quota.marks_singleton, hop, hc]
    · simp [Quota.marks_singleton, hop, hd, Ne.symm hd]

end Records

/-- What the gate goes through when it is asked for a capability. -/
theorem records_gateAfter (s : Api.Services) (policy : Policy) (c : Capability) : ∃ ops : List Op,
    Api.gateAfter s policy c = s.gate.run ops ∧
      Records s.gate ops fun d => if d = c then [Api.permits s policy c] else [] := by
  by_cases hc : c.refillRule.isSome = true
  · rw [Api.permits_budget hc]
    exact ⟨[.use c], Api.gateAfter_budget hc s policy, .use s.gate hc⟩
  · rw [Api.gateAfter, if_neg hc, Api.permits, if_neg hc]
    cases policy.allows s.principal c 1 with
    | true => exact ⟨[.unflag c], rfl, .mark s.gate hc fun _ => rfl⟩
    | false => exact ⟨[.flag c], rfl, .mark s.gate hc fun _ => rfl⟩

theorem gate_of_decided {heap : Heap} {s : Api.Services} {policy : Policy} {c : Capability} {out : Api.Result}
    (h : Decided heap s policy c out) : out.2.host.gate = Api.gateAfter s policy c := by
  unfold Decided at h
  split at h
  · exact h.gate_eq
  · obtain ⟨lines, hlines⟩ := h.host_eq
    exact congrArg (·.gate) hlines

/-- What a turn decides, the gate goes through. -/
theorem records_turn (turn : Turn) (policy : Policy) (s : Api.Services) : ∃ ops : List Op,
    (turn.apply policy s).gate = s.gate.run ops ∧ Records s.gate ops fun c => turn.decision c policy s := by
  have hsilent (hnone : ∀ c, ¬ turn.Asks s c) {ops : List Op} (hops : Records s.gate ops fun _ => []) :
      Records s.gate ops fun c => turn.decision c policy s := by
    simpa only [Turn.decision_of_not_asks hnone] using hops
  have hturn := turn_mediated turn
  cases turn with
  | call heap type name args =>
    by_cases hasks : ∃ c, (Turn.call heap type name args).Asks s c
    · obtain ⟨c, hc⟩ := hasks
      obtain ⟨ops, hgate, hrecords⟩ := records_gateAfter s policy c
      refine ⟨ops, (gate_of_decided (hc.2 policy s.gate)).trans hgate, ?_⟩
      simpa only [Turn.decision_of_asks hc] using hrecords
    · obtain hquiet | hmediated := hturn s
      · exact ⟨[], (hquiet policy s.gate).gate_eq, hsilent (fun c hc => hasks ⟨c, hc⟩) (.nil s.gate)⟩
      · exact absurd hmediated hasks
  | clock =>
    obtain ⟨lines, hlines⟩ := hturn policy s
    exact ⟨[.tick (policy.resolve s.principal)], congrArg (·.gate) hlines, hsilent (fun _ => id) (.tick _ _)⟩
  | _ => exact ⟨[], (hturn policy s).gate_eq, hsilent (fun _ => id) (.nil s.gate)⟩

/-- The gate of a package goes through a run that records what its turns decide. -/
theorem records_play (turns : List (Policy × Turn)) (s : Api.Services) : ∃ ops : List Op,
    (play s turns).gate = s.gate.run ops ∧ Records s.gate ops fun c => decisions c turns s := by
  induction turns generalizing s with
  | nil => exact ⟨[], rfl, .nil s.gate⟩
  | cons turn rest ih =>
    obtain ⟨policy, turn⟩ := turn
    obtain ⟨ops, hgate, hrecords⟩ := records_turn turn policy s
    obtain ⟨ops', hgate', hrecords'⟩ := ih (turn.apply policy s)
    rw [hgate] at hgate' hrecords'
    exact ⟨ops ++ ops', hgate'.trans (Gate.run_append ..).symm, hrecords.append hrecords'⟩

/-! ## What is listed -/

/-- From new budgets on, the capabilities listed as denied are those whose last decision was a refusal. -/
theorem mem_denied_play {s : Api.Services} {trust : Capability → Trust.Effective} (hnew : s.gate = .new trust)
    (turns : List (Policy × Turn)) (c : Capability) :
    c ∈ (play s turns).gate.denied ↔ (decisions c turns s).getLast? = some false := by
  obtain ⟨ops, hgate, hrecords⟩ := records_play turns s
  have hreplies := hrecords.replies_eq c
  have hmarks := hrecords.marks_eq c
  rw [hgate, hnew, Gate.mem_denied_iff, Gate.isDenied_run_new, ← hnew, hreplies, hmarks]
  by_cases hc : c.refillRule.isSome = true
  · simp [hc]
  · cases hlast : (decisions c turns s).getLast? <;> simp [hc, hlast]

theorem gate_new (t : Terms) (policy : Policy) (generation : Nat) (source : Source) :
    (Instance.new t policy generation source).services.gate = .new (policy.resolve source.principal) :=
  Services.new_keeps (f := Services.gate) policy (fun _ _ => rfl) ..

/-- **The denied flags tell the last decision.**  Of every gate, the listing of denied capabilities and the question
about a single one agree; from new budgets on, a capability is denied exactly if policy flagged it last, or it has a
budget and its last use was refused; a tick, also one that refills budgets, leaves the flags alone.  The gate of a
package goes through the decisions of its turns, so that from new budgets on the capabilities whose last decision was
a refusal are denied and no others; and that is how it is whatever the host does with an instance, under whatever
trust. -/
theorem denied_tells_last_decision :
    (∀ (g : Gate) (c : Capability), c ∈ g.denied ↔ g.isDenied c = true) ∧
    (∀ (trust : Capability → Trust.Effective) (ops : List Op) (c : Capability),
      ((Gate.new trust).run ops).isDenied c = true ↔ (Quota.marks c ops).getLast? = some true ∨
        c.refillRule.isSome = true ∧ ((Gate.new trust).replies c ops).getLast? = some false) ∧
    (∀ (g : Gate) (trust : Capability → Trust.Effective) (c : Capability),
      (g.tick trust).isDenied c = g.isDenied c) ∧
    (∀ (turns : List (Policy × Turn)) (s : Api.Services), ∃ ops : List Op,
      (play s turns).gate = s.gate.run ops ∧ Records s.gate ops fun c => decisions c turns s) ∧
    (∀ (turns : List (Policy × Turn)) (s : Api.Services) (trust : Capability → Trust.Effective) (c : Capability),
      c ∈ (play { s with gate := .new trust } turns).gate.denied ↔
        (decisions c turns { s with gate := .new trust }).getLast? = some false) ∧
    ∀ (t : Terms) (policy : Policy) (generation : Nat) (source : Source) (ops : List (Policy × Operation)),
      ∃ parts : List (List Turn), parts.length = ops.length ∧
        (afterAll t (.new t policy generation source) ops).services =
          play (Instance.new t policy generation source).services (underPolicies ops parts) ∧
        ∀ c, c ∈ (afterAll t (.new t policy generation source) ops).services.gate.denied ↔
          (decisions c (underPolicies ops parts) (Instance.new t policy generation source).services).getLast? =
            some false := by
  refine ⟨Gate.mem_denied_iff, Gate.isDenied_run_new, Gate.isDenied_tick, records_play,
    fun turns s trust => mem_denied_play rfl turns, fun t policy generation source ops => ?_⟩
  obtain ⟨parts, hlength, hplay⟩ := run_is_play t (.new t policy generation source) ops
  refine ⟨parts, hlength, hplay, fun c => ?_⟩
  rw [hplay]
  exact mem_denied_play (gate_new t policy generation source) _ c

end ScriptWarden.Package
