import ScriptWarden.Proofs.Api.Mediation
import ScriptWarden.Proofs.Api.Quiet
set_option autoImplicit false

/-!
# API: answers that come at once

A host may answer a request as soon as it is sent.  Whatever a method does, answers are only added at the end of the
mailbox, and every one of them was paid for with a unit of the budget for requests.
-/

namespace ScriptWarden

open Trust (Capability Policy)

namespace Package

variable {κ : Type}

/-- The requests that the budget still allows. -/
def Services.units (s : Services κ) : Nat := (s.gate.remaining .networkCall).toNat

/-- The services of the same load after answers came in, each for a unit of the budget. -/
structure Posted (s s' : Services κ) : Prop where
  generation : s'.generation = s.generation
  mail : ∃ new, s'.mailbox.waiting = s.mailbox.waiting ++ new ∧ new.length + s'.units ≤ s.units

namespace Posted

/-- No answer came in. -/
theorem of_waiting {s s' : Services κ} (hgeneration : s'.generation = s.generation)
    (hwaiting : s'.mailbox.waiting = s.mailbox.waiting) (hunits : s'.units ≤ s.units) : Posted s s' :=
  ⟨hgeneration, [], by rw [hwaiting, List.append_nil], by rwa [List.length_nil, Nat.zero_add]⟩

/-- Nothing happened to the answers that wait and to the gate. -/
theorem of_eq {s s' : Services κ} (hgeneration : s'.generation = s.generation)
    (hwaiting : s'.mailbox.waiting = s.mailbox.waiting) (hgate : s'.gate = s.gate) : Posted s s' :=
  of_waiting hgeneration hwaiting (Nat.le_of_eq (by rw [Services.units, Services.units, hgate]))

theorem of_calm {s s' : Services κ} (h : Calm s s') : Posted s s' :=
  of_eq h.generation_eq (by rw [h.mailbox_eq]) h.gate_eq

theorem refl (s : Services κ) : Posted s s := of_eq rfl rfl rfl

theorem trans {s₁ s₂ s₃ : Services κ} (h : Posted s₁ s₂) (h' : Posted s₂ s₃) : Posted s₁ s₃ := by
  obtain ⟨new, hwaiting, hunits⟩ := h.mail
  obtain ⟨new', hwaiting', hunits'⟩ := h'.mail
  refine ⟨h'.generation.trans h.generation, new ++ new', ?_, ?_⟩
  · rw [hwaiting', hwaiting, List.append_assoc]
  · rw [List.length_append]
    omega

end Posted

end Package

namespace Quota.Gate

/-- No use adds units. -/
theorem remaining_tryUse_le (g : Gate) (c d : Capability) : (g.tryUse c).2.remaining d ≤ g.remaining d := by
  cases hgranted : (g.tryUse c).1 with
  | true =>
    rw [remaining_tryUse hgranted]
    split <;> omega
  | false => exact Int.le_of_eq (by rw [← remaining_forget _ c d, forget_tryUse hgranted, remaining_forget])

/-- A granted use had a unit. -/
theorem remaining_pos {g : Gate} {c : Capability} (h : (g.tryUse c).1 = true) : 0 < g.remaining c := by
  cases hb : g.budgets[c]? with
  | none => simp [tryUse, hb] at h
  | some b =>
    refine Decidable.byContradiction fun hempty => ?_
    have hspent : ¬ 0 < b.remaining := by simpa [remaining, hb] using hempty
    simp [tryUse, hb, Budget.take, hspent] at h

end Quota.Gate

namespace Bridge.Action

open Lua (World)
open Package (Posted Services)

variable {κ α β : Type}

/-- What an action does to the mailbox is answers that are paid for. -/
def Posts (a : Action κ α) : Prop := ∀ w, Posted w.host (a w).2.host

theorem Quiet.posts {a : Action κ α} (h : a.Quiet) : a.Posts := fun w => .of_calm (h w)

theorem posts_onServices {f : Services κ → α × Services κ} (h : ∀ s, Posted s (f s).2) : (onServices f).Posts :=
  fun w => h w.host

theorem posts_edit {f : Services κ → Services κ} (h : ∀ s, Posted s (f s)) : (edit f).Posts := fun w => h w.host

theorem posts_tell (call : Services κ → Host.Call) : (edit fun s => s.tell (call s) : Action κ Unit).Posts :=
  posts_edit fun _ => .of_eq rfl rfl rfl

theorem Posts.bind {a : Action κ α} {f : α → Action κ β} (ha : a.Posts) (hf : ∀ x, (f x).Posts) :
    (a >>= f).Posts := fun w =>
  bind_keeps (P := fun w' => Posted w.host w'.host) (ha w) fun x w' h => h.trans (hf x w')

theorem posts_ite {c : Prop} [Decidable c] {a b : Action κ α} (ha : a.Posts) (hb : b.Posts) :
    (if c then a else b).Posts := by
  split
  · exact ha
  · exact hb

theorem posts_tryUse (c : Capability) : (onServices (·.tryUse c) : Action κ Bool).Posts :=
  posts_onServices fun s => .of_waiting rfl rfl (Int.toNat_le_toNat (s.gate.remaining_tryUse_le c .networkCall))

theorem posts_trustValue (policy : Policy) (c : Capability) :
    (onServices (·.trustValue policy c) : Action κ Trust.Effective).Posts := by
  refine posts_onServices fun s => ?_
  unfold Services.trustValue
  split
  · exact .refl s
  · exact .of_eq rfl rfl rfl

theorem posts_check (policy : Policy) (c : Capability) (least : Int) :
    (onServices (·.check policy c least) : Action κ Bool).Posts := by
  refine posts_onServices fun s => ?_
  have hconsult := posts_trustValue (κ := κ) policy c ⟨default, s, none⟩
  unfold Services.check
  refine hconsult.trans ?_
  simp only
  split <;> exact .of_waiting rfl rfl (Nat.le_refl _)

end Bridge.Action

namespace Api

open Bridge (Action Call)
open Bridge.Action (posts_tell posts_tryUse posts_trustValue posts_check posts_ite)
open Lua (Value)
open Package (Posted)

theorem posts_on {α : Type} {type : String} {view : Thing → Option α} {run : Call → α → Action Thing (List Value)}
    (h : ∀ c a, (run c a).Posts) (c : Call) : (on type view run c).Posts :=
  .bind (quiet_thing _ _ _).posts fun a => h c a

theorem posts_self (c : Call) : (c.self : Action Thing (List Value)).Posts := (Bridge.quiet_self c).posts

theorem posts_put (c : Call) (t : Thing) : (put c t).Posts := (quiet_put c t).posts

theorem posts_playSound (c : Call) (s : Sound) : (playSound c s).Posts := by
  unfold playSound
  refine posts_ite (.bind (posts_self c) fun _ => (Action.quiet_pure _).posts) ?_
  refine .bind (posts_tryUse .playSound) fun granted => posts_ite ?_ (posts_self c)
  refine .bind (posts_trustValue c.policy .soundVolume) fun percent => ?_
  exact .bind (posts_tell _) fun _ => .bind (posts_put c _) fun _ => posts_self c

theorem posts_spawnParticle (c : Call) (p : Particle) : (spawnParticle c p).Posts := by
  have hshow : (do
      let handle ← Action.onServices (·.takeHandle)
      Action.edit (·.tell (.spawn (p.shown handle)))
      put c (.particle { p with handle := some handle })
      c.self : Action Thing (List Value)).Posts :=
    .bind (Action.posts_onServices fun _ => .of_eq rfl rfl rfl) fun _ =>
      .bind (posts_tell _) fun _ => .bind (posts_put c _) fun _ => posts_self c
  unfold spawnParticle
  refine .bind (posts_tryUse .spawnParticle) fun granted => posts_ite ?_ (posts_self c)
  split
  · exact .bind (posts_tell _) fun _ => hshow
  · exact hshow

theorem posts_setTextureOverride (c : Call) : (setTextureOverride c).Posts := by
  unfold setTextureOverride
  refine .bind (Action.quiet_lift _).posts fun (kind, value) => ?_
  refine .bind (posts_check c.policy .renderOverride 1) fun granted => ?_
  exact posts_ite (.bind (posts_tell _) fun _ => (quiet_truth true).posts) (quiet_truth false).posts

theorem posts_setNameplate {α : Type} (read : Call → Except String α)
    (change : α → Host.Nameplate → Host.Nameplate) (c : Call) : (setNameplate read change c).Posts := by
  refine posts_on (fun c _ => ?_) c
  refine .bind (Action.quiet_lift _).posts fun a => ?_
  refine .bind (posts_check c.policy .nameplateEdit 1) fun granted => posts_ite ?_ (posts_self c)
  exact .bind (Action.posts_edit fun _ => .of_eq rfl rfl rfl) fun _ => posts_self c

/-- Sending a request brings one answer at most. -/
theorem waiting_send (s : Services) (request : Host.Request) :
    (s.send request).2.gate = s.gate ∧ (s.send request).2.generation = s.generation ∧
    ∃ new, (s.send request).2.mailbox.waiting = s.mailbox.waiting ++ new ∧ new.length ≤ 1 := by
  unfold Package.Services.send
  simp only
  split
  · next c _ =>
    refine ⟨rfl, rfl, ?_⟩
    change ∃ new, (s.mailbox.deliver c).2.waiting = s.mailbox.waiting ++ new ∧ _
    unfold Host.Mailbox.deliver
    split
    · exact ⟨[c], rfl, Nat.le_refl 1⟩
    · exact ⟨[], (List.append_nil _).symm, Nat.zero_le 1⟩
  · exact ⟨rfl, rfl, [], (List.append_nil _).symm, Nat.zero_le 1⟩

/-- The unit that a request takes pays for its answer. -/
theorem posts_sendRequest (c : Call) : (sendRequest c).Posts := by
  unfold sendRequest
  refine .bind (Action.quiet_lift _).posts fun request w => ?_
  rw [Action.bind_apply, onServices_apply]
  simp only
  by_cases hgranted : (w.host.tryUse .networkCall).1 = true
  · rw [if_pos hgranted]
    obtain ⟨hgate, hgeneration, new, hwaiting, hnew⟩ := waiting_send (w.host.tryUse .networkCall).2 request
    refine ⟨hgeneration, new, hwaiting, ?_⟩
    have hleft := Quota.Gate.remaining_tryUse hgranted .networkCall
    have hpos := Quota.Gate.remaining_pos hgranted
    change new.length + (((w.host.tryUse .networkCall).2.send request).2.gate.remaining .networkCall).toNat ≤
      (w.host.gate.remaining .networkCall).toNat
    rw [hgate]
    change new.length + ((w.host.gate.tryUse .networkCall).2.remaining .networkCall).toNat ≤ _
    rw [hleft, if_pos rfl]
    omega
  · rw [if_neg hgranted]
    exact posts_tryUse .networkCall w

end Api

end ScriptWarden
