import Mathlib.Data.List.Perm.Subperm
import Mathlib.Order.WellFounded
import ScriptWarden.Proofs.Package.Mail
import ScriptWarden.Proofs.Package.Mediation
set_option autoImplicit false

/-!
# Packages: the answers of a tick come to an end

At a tick scripts are told of the answers that wait until none does, and what scripts do then can bring further ones.
The host gets a token with each request and answers it at most once: while the request is sent, or at any later time.
One number falls with every round of the loop (`left_of_round`): the answers that wait, the tokens that the host has
not used and the units of the budget that remain.  A request gives a token for a unit, an answer takes a token, and a
round takes an answer; nothing in the loop fills the budget up.
-/

namespace ScriptWarden.Package

open Host (Completion)
open Trust (Capability Policy)

/-! ## Requests and units -/

/-- The token that goes to the host with a request. -/
def Effect.token? : Effect → Option Host.Token
  | .call _ (.request token _) => some token
  | _ => none

/-- The tokens of the requests among some effects. -/
def tokens (effects : List Effect) : List Host.Token := effects.filterMap Effect.token?

@[simp] theorem tokens_append (es es' : List Effect) : tokens (es ++ es') = tokens es ++ tokens es' :=
  List.filterMap_append

/-- There is one token for each call that needs the capability for requests. -/
theorem length_tokens (es : List Effect) : (tokens es).length = (needs es).count .networkCall := by
  induction es with
  | nil => rfl
  | cons e rest ih =>
    have hfirst : (tokens [e]).length = (needs [e]).count .networkCall := by
      cases e with
      | call package c => cases c <;> rfl
      | notice d => rfl
      | printed | unending => rfl
    rw [← List.singleton_append, tokens_append, needs_append, List.length_append, List.count_append, hfirst, ih]

/-- The services after requests went out, each for a unit of the budget. -/
def Requested (s s' : Api.Services) : Prop :=
  ∃ new, s'.outbox = new ++ s.outbox ∧ (tokens new).length + s'.units = s.units

namespace Requested

variable {s s' : Api.Services}

theorem refl (s : Api.Services) : Requested s s := ⟨[], rfl, Nat.zero_add _⟩

theorem trans {s₁ s₂ s₃ : Api.Services} (h : Requested s₁ s₂) (h' : Requested s₂ s₃) : Requested s₁ s₃ := by
  obtain ⟨new, hnew, hunits⟩ := h
  obtain ⟨new', hnew', hunits'⟩ := h'
  refine ⟨new' ++ new, by rw [hnew', hnew, List.append_assoc], ?_⟩
  rw [tokens_append, List.length_append]
  omega

/-- Nothing that needs a capability went out, and the budget is as it was. -/
theorem of_needs (hunits : s'.units = s.units) (h : ∃ new, s'.outbox = new ++ s.outbox ∧ needs new = []) :
    Requested s s' := by
  obtain ⟨new, hnew, hnone⟩ := h
  exact ⟨new, hnew, by rw [length_tokens, hnone, List.count_nil, Nat.zero_add, hunits]⟩

theorem of_quiet (h : Quiet s s') : Requested s s' :=
  of_needs (by rw [Services.units, Services.units, h.gate_eq]) h.outbox_eq

theorem of_granted {policy : Policy} {c : Capability} {out : Api.Result} (h : Api.Granted s policy c out) :
    Requested s out.2.host := by
  obtain ⟨new, hnew, hneeds⟩ := h.outbox_eq
  refine ⟨new, hnew, ?_⟩
  have hleft := remaining_gateAfter h.permitted (d := .networkCall) rfl
  rw [← h.gate_eq] at hleft
  rw [length_tokens, hneeds, Services.units, Services.units, hleft]
  by_cases hc : c = .networkCall
  · subst hc
    have hgranted : (s.gate.tryUse .networkCall).1 = true := by
      rw [← Api.permits_budget rfl s policy]
      exact h.permitted
    have hpos := Quota.Gate.remaining_pos hgranted
    rw [List.count_singleton_self, if_pos rfl]
    omega
  · rw [List.count_singleton, if_neg (by simpa using hc), if_neg (Ne.symm hc), Int.sub_zero, Nat.zero_add]

theorem of_refused {policy : Policy} {c : Capability} {heap : Lua.Heap} {out : Api.Result}
    (h : Api.Refused heap s policy c out) : Requested s out.2.host := by
  obtain ⟨lines, hlines⟩ := h.host_eq
  refine of_needs ?_ ⟨lines.map .notice, by rw [hlines], Api.needs_notices lines⟩
  rw [Services.units, Services.units, remaining_refused h]

end Requested

theorem turn_requests (turn : Turn) (hsteady : turn.Steady) (policy : Policy) (s : Api.Services) :
    Requested s (turn.apply policy s) := by
  have hturn := turn_mediated turn
  cases turn with
  | call heap type name args =>
    obtain hquiet | ⟨c, -, hdecided⟩ := call_cases heap type name args policy s
    · exact .of_quiet hquiet
    · unfold Api.Decided at hdecided
      split at hdecided
      · exact .of_granted hdecided
      · exact .of_refused hdecided
  | clock => exact hsteady.elim
  | _ => exact .of_quiet (hturn policy s)

/-- The tokens that went to the host between two states of the services. -/
def sent (s s' : Api.Services) : List Host.Token := tokens (s'.outbox.take (s'.outbox.length - s.outbox.length))

theorem length_sent {s s' : Api.Services} (h : Requested s s') : (sent s s').length + s'.units = s.units := by
  obtain ⟨new, hnew, hunits⟩ := h
  rw [sent, hnew, List.length_append, Nat.add_sub_cancel, List.take_left]
  exact hunits

/-! ## Rounds -/

/-- An instance whose scripts are being told of answers, and the tokens that the host has not used. -/
structure Draining where
  inst : Instance
  owed : List Host.Token

/-- The answers that wait, those that can yet come, and the requests that can yet be sent. -/
def Draining.left (d : Draining) : Nat := d.inst.waiting.length + d.owed.length + d.inst.services.units

/-- Scripts are told of the answer that waits longest.  Meanwhile the host may answer: every answer uses up a token, one
of those that it had or of those that it just got, and it keeps some of the others. -/
inductive Round (t : Terms) (policy : Policy) (d : Draining) : Except Failure Unit → Draining → Prop
  | tell {c : Completion} {rest : List Completion} {answers : List (Host.Token × Completion)}
    {owed : List Host.Token} {r : Except Failure Unit} {i : Instance}
    (hnext : d.inst.waiting = c :: rest)
    (htold : Amid (d.inst.withWaiting rest) ((d.inst.withWaiting rest).dispatch t policy (answerEvent c))
      (answers.map Prod.snd) (r, i))
    (honce : (answers.map Prod.fst ++ owed).Subperm
      (d.owed ++ sent d.inst.services ((d.inst.withWaiting rest).dispatch t policy (answerEvent c)).2.services)) :
    Round t policy d r ⟨i, owed⟩

/-- Some rounds of the loop, one after the other, up to the first error. -/
inductive Rounds (t : Terms) (policy : Policy) : Draining → Nat → Except Failure Unit → Draining → Prop
  | none (d : Draining) : Rounds t policy d 0 (.ok ()) d
  | failed {d d' : Draining} {e : Failure} (h : Round t policy d (.error e) d') : Rounds t policy d 1 (.error e) d'
  | next {d d' d'' : Draining} {n : Nat} {r : Except Failure Unit} (h : Round t policy d (.ok ()) d')
    (hrest : Rounds t policy d' n r d'') : Rounds t policy d (n + 1) r d''

section Rounds

variable {t : Terms} {policy : Policy} {d d' d'' : Draining} {n : Nat} {r : Except Failure Unit}

theorem dispatch_requests (t : Terms) (policy : Policy) (i : Instance) (e : Event) :
    Requested i.services (i.dispatch t policy e).2.services :=
  (dispatch_turns t policy i e).closed .refl .trans fun turn s hsteady => turn_requests turn hsteady policy s

/-- Each round takes an answer, and whatever comes instead was left before. -/
theorem left_of_round (h : Round t policy d r d') : d'.left + 1 ≤ d.left := by
  cases h with
  | @tell c rest answers owed _ i hnext htold honce =>
    generalize hasked : sent d.inst.services _ = asked at honce
    have hpaid : asked.length + i.services.units = d.inst.services.units := by
      rw [(Prod.mk.inj htold.outcome).2, ← hasked]
      exact length_sent (dispatch_requests t policy (d.inst.withWaiting rest) (answerEvent c))
    have hwaiting : i.waiting.length = rest.length + answers.length := by
      have hmail : i.waiting = rest ++ answers.map Prod.snd := htold.waiting
      rw [hmail, List.length_append, List.length_map]
    have hused := honce.length_le
    rw [List.length_append, List.length_append, List.length_map] at hused
    unfold Draining.left
    rw [hnext, List.length_cons]
    simp only
    omega

theorem left_of_rounds (h : Rounds t policy d n r d') : d'.left + n ≤ d.left := by
  induction h with
  | none d => exact Nat.le_refl _
  | failed h => exact left_of_round h
  | next h hrest ih =>
    have hfirst := left_of_round h
    omega

/-- No matter how the host answers, there is no endless row of rounds. -/
theorem rounds_wellFounded (t : Terms) (policy : Policy) :
    WellFounded fun d' d => ∃ r, Round t policy d r d' :=
  Subrelation.wf (fun ⟨_, h⟩ => left_of_round h) (InvImage.wf Draining.left Nat.lt_wfRel.wf)

/-! ## The loop of a tick -/

variable {i : Instance} {c : Completion} {rest : List Completion}

/-- Answers that are no more than the tokens can have one each. -/
theorem exists_answers {tokens : List Host.Token} {came : List Completion} (h : came.length ≤ tokens.length) :
    ∃ answers : List (Host.Token × Completion), answers.map Prod.snd = came ∧
      (answers.map Prod.fst).Sublist tokens := by
  have hlength : (tokens.take came.length).length = came.length := by
    rw [List.length_take, Nat.min_eq_left h]
  refine ⟨(tokens.take came.length).zip came, List.map_snd_zip (Nat.le_of_eq hlength.symm), ?_⟩
  rw [List.map_fst_zip (Nat.le_of_eq hlength)]
  exact List.take_sublist _ _

/-- A host that only answers while requests are sent keeps the tokens it had. -/
theorem round_alone (hwaiting : i.waiting = c :: rest) (owed : List Host.Token) {o : Outcome}
    (ho : (i.withWaiting rest).dispatch t policy (answerEvent c) = o) :
    Round t policy ⟨i, owed⟩ o.1 ⟨o.2, owed⟩ := by
  subst ho
  have hposted := dispatch_posts t policy (i.withWaiting rest) (answerEvent c)
  have hpaid := length_sent (dispatch_requests t policy (i.withWaiting rest) (answerEvent c))
  have hamid := amid_alone rfl hposted
  obtain ⟨new, hnew, hunits⟩ := hposted.mail
  have hcame : arrivals (i.withWaiting rest) ((i.withWaiting rest).dispatch t policy (answerEvent c)).2 = new := by
    unfold arrivals Instance.waiting
    rw [hnew, List.drop_left]
  rw [← hpaid] at hunits
  rw [hcame] at hamid
  obtain ⟨answers, rfl, htokens⟩ := exists_answers (Nat.le_of_add_le_add_right hunits)
  exact .tell hwaiting hamid
    (List.perm_append_comm.subperm.trans ((List.Sublist.refl owed).append htokens).subperm)

/-- While an answer waits there is a next round. -/
theorem exists_round (t : Terms) (policy : Policy) (hwaiting : d.inst.waiting ≠ []) :
    ∃ r d', Round t policy d r d' := by
  obtain ⟨c, rest, hnext⟩ := List.exists_cons_of_ne_nil hwaiting
  exact ⟨_, _, round_alone hnext d.owed rfl⟩

theorem next?_of_waiting (hwaiting : i.waiting = c :: rest) :
    i.services.mailbox.next? = some (c, { i.services.mailbox with waiting := rest }) := by
  have hmail : i.services.mailbox.waiting = c :: rest := hwaiting
  simp only [Host.Mailbox.next?, hmail]

theorem dispatchWaiting_of_none (hnone : i.waiting = []) (n : Nat) :
    Instance.dispatchWaiting t policy n i = (.ok (), i) := by
  have hmail : i.services.mailbox.waiting = [] := hnone
  cases n with
  | zero => rfl
  | succ n => simp only [Instance.dispatchWaiting, Host.Mailbox.next?, hmail]

theorem dispatchWaiting_of_failed (hwaiting : i.waiting = c :: rest) {e : Failure} {i' : Instance}
    (ho : (i.withWaiting rest).dispatch t policy (answerEvent c) = (.error e, i')) (n : Nat) :
    Instance.dispatchWaiting t policy (n + 1) i = (.error e, i') := by
  have ho' : { i with services := { i.services with mailbox := { i.services.mailbox with waiting := rest } } }.dispatch
      t policy (.networkResponse c.request c.status c.body) = (.error e, i') := ho
  simp only [Instance.dispatchWaiting, next?_of_waiting hwaiting, ho']

theorem dispatchWaiting_of_told (hwaiting : i.waiting = c :: rest) {i' : Instance}
    (ho : (i.withWaiting rest).dispatch t policy (answerEvent c) = (.ok (), i')) (n : Nat) :
    Instance.dispatchWaiting t policy (n + 1) i = Instance.dispatchWaiting t policy n i' := by
  have ho' : { i with services := { i.services with mailbox := { i.services.mailbox with waiting := rest } } }.dispatch
      t policy (.networkResponse c.request c.status c.body) = (.ok (), i') := ho
  simp only [Instance.dispatchWaiting, next?_of_waiting hwaiting, ho']

/-- The bound of the loop is out of reach: nothing changes if it is raised, and nothing waits at the end. -/
theorem rounds_dispatchWaiting (t : Terms) (policy : Policy) (i : Instance) (owed : List Host.Token)
    (hn : i.waiting.length + i.services.units ≤ n) :
    ∃ rounds, Rounds t policy ⟨i, owed⟩ rounds (Instance.dispatchWaiting t policy n i).1
        ⟨(Instance.dispatchWaiting t policy n i).2, owed⟩ ∧
      ((Instance.dispatchWaiting t policy n i).1 = .ok () → (Instance.dispatchWaiting t policy n i).2.waiting = []) ∧
      ∀ m, n ≤ m → Instance.dispatchWaiting t policy m i = Instance.dispatchWaiting t policy n i := by
  induction n generalizing i with
  | zero =>
    have hnone : i.waiting = [] := List.eq_nil_of_length_eq_zero (by omega)
    exact ⟨0, .none _, fun _ => hnone, fun m _ => dispatchWaiting_of_none hnone m⟩
  | succ n ih =>
    cases hwaiting : i.waiting with
    | nil =>
      simp only [dispatchWaiting_of_none hwaiting]
      exact ⟨0, .none _, fun _ => hwaiting, fun _ _ => trivial⟩
    | cons c rest =>
      cases ho : (i.withWaiting rest).dispatch t policy (answerEvent c) with
      | mk r i' =>
        have hround := round_alone hwaiting owed ho
        cases r with
        | error e =>
          rw [dispatchWaiting_of_failed hwaiting ho]
          refine ⟨1, .failed hround, fun h => (nomatch h), fun m hm => ?_⟩
          obtain ⟨m, rfl⟩ := Nat.exists_eq_add_of_le' (Nat.lt_of_lt_of_le (Nat.succ_pos n) hm)
          exact dispatchWaiting_of_failed hwaiting ho m
        | ok _ =>
          have hless := left_of_round (round_alone hwaiting [] ho)
          unfold Draining.left at hless
          simp only [List.length_nil] at hless
          obtain ⟨rounds, hrounds, hnone, hmore⟩ := ih i' (by omega)
          rw [dispatchWaiting_of_told hwaiting ho]
          refine ⟨rounds + 1, .next hround hrounds, hnone, fun m hm => ?_⟩
          obtain ⟨m, rfl⟩ := Nat.exists_eq_add_of_le' (Nat.lt_of_lt_of_le (Nat.succ_pos n) hm)
          rw [dispatchWaiting_of_told hwaiting ho]
          exact hmore m (by omega)

/-- The rounds up to the end of the loop are what scripts are told of, one answer in each. -/
theorem serves_of_rounds (h : Rounds t policy d n r d') (hend : r = .ok () → d'.inst.waiting = []) :
    ∃ marks, Serves t policy d.inst marks (r, d'.inst) ∧ (answered marks).length = n := by
  induction h with
  | none d => exact ⟨[], .done (hend rfl), rfl⟩
  | failed h =>
    cases h with
    | tell hnext htold honce => exact ⟨_, .failed hnext htold, by rw [answered_tellMarks_answer]; rfl⟩
  | next h hrest ih =>
    obtain ⟨marks, hserves, rfl⟩ := ih hend
    cases h with
    | tell hnext htold honce =>
      refine ⟨_, .told hnext htold hserves, ?_⟩
      rw [answered_append, answered_tellMarks_answer, List.singleton_append, List.length_cons]

end Rounds

/-! ## The end -/

/-- The instance at a tick, before scripts are told of anything. -/
def Instance.refilled (i : Instance) (policy : Policy) : Instance :=
  { i with services := i.services.tickQuotas policy }

/-- What is said of the loop of a tick, for a host that may yet use some tokens. -/
structure DrainsToEnd (t : Terms) (policy : Policy) (i : Instance) (owed : List Host.Token) : Prop where
  /-- There are so many rounds at most. -/
  bounded : ∀ n r d, Rounds t policy ⟨i.refilled policy, owed⟩ n r d →
    n ≤ i.waiting.length + owed.length + (i.services.tickQuotas policy).units
  endless : ¬ ∃ row : Nat → Draining, row 0 = ⟨i.refilled policy, owed⟩ ∧
    ∀ n, ∃ r, Round t policy (row n) r (row (n + 1))
  /-- The loop stands still only if nothing waits, or at an error. -/
  goesOn : ∀ n d, Rounds t policy ⟨i.refilled policy, owed⟩ n (.ok ()) d → d.inst.waiting ≠ [] →
    ∃ r d', Round t policy d r d'
  /-- If it stands still, scripts were told of one answer in each round. -/
  served : ∀ n r d, Rounds t policy ⟨i.refilled policy, owed⟩ n r d → (r = .ok () → d.inst.waiting = []) →
    ∃ marks, Serves t policy (i.refilled policy) marks (r, d.inst) ∧ (answered marks).length = n
  /-- With a host that only answers while requests are sent, the loop is that of the instance; its bound stops
  nothing. -/
  alone : ∀ o, o = Instance.dispatchWaiting t policy (i.refilled policy).mostAnswers (i.refilled policy) →
    (∃ n, Rounds t policy ⟨i.refilled policy, owed⟩ n o.1 ⟨o.2, owed⟩) ∧ (o.1 = .ok () → o.2.waiting = []) ∧
      ∀ m, (i.refilled policy).mostAnswers ≤ m → Instance.dispatchWaiting t policy m (i.refilled policy) = o

/-- Telling scripts of the answers that wait comes to an end at every tick, whatever they do when they hear of one, if
the host answers each request at most once. -/
theorem draining_ends (t : Terms) (policy : Policy) (i : Instance) (owed : List Host.Token) :
    DrainsToEnd t policy i owed where
  bounded n r d h := by
    have hleft := left_of_rounds h
    have hwaiting : (i.refilled policy).waiting = i.waiting := waiting_tickQuotas policy i
    unfold Draining.left at hleft
    rw [hwaiting] at hleft
    exact Nat.le_trans (Nat.le_add_left n _) hleft
  endless := by
    rintro ⟨row, -, hrow⟩
    obtain ⟨n, hn⟩ := @WellFounded.not_rel_apply_succ _ _ ⟨rounds_wellFounded t policy⟩ row
    exact hn (hrow n)
  goesOn n d _ hwaiting := exists_round t policy hwaiting
  served n r d h hend := serves_of_rounds h hend
  alone := by
    rintro o rfl
    obtain ⟨n, hrounds, hnone, hmore⟩ := rounds_dispatchWaiting t policy (i.refilled policy) owed (Nat.le_refl _)
    exact ⟨⟨n, hrounds⟩, hnone, hmore⟩

end ScriptWarden.Package
