import ScriptWarden.Proofs.Bridge.Decoding
set_option autoImplicit false

/-!
# Bridge: how actions fail

What an action does before it fails stays done, so a method that changes something must not fail behind it.  An
action is *atomic* if an error leaves everything as it was.  A call of a method is atomic if every method of the
registry is (`atomic_bridgeCall`), and all that a script gets from a call that fails is the error (`perform_atomic`).
-/

namespace ScriptWarden.Bridge

open Lua (Native Value World)
open Package (Services)

variable {κ α β : Type}

namespace Action

/-! ## Actions that read -/

/-- An action that changes nothing, whether it fails or not. -/
def Reads (a : Action κ α) : Prop := ∀ w, (a w).2 = w

@[simp] theorem reads_pure (a : α) : (pure a : Action κ α).Reads := fun _ => rfl

@[simp] theorem reads_look (f : Services κ → α) : (look f).Reads := fun _ => rfl

@[simp] theorem reads_lift (x : Except String α) : (liftM x : Action κ α).Reads := fun _ => rfl

@[simp] theorem reads_fail (message : String) : (fail message : Action κ α).Reads := fun _ => rfl

@[simp] theorem reads_bind {a : Action κ α} {f : α → Action κ β} (ha : a.Reads)
    (hf : ∀ x, (f x).Reads) : (a >>= f).Reads := fun w =>
  bind_keeps (P := (· = w)) (ha w) fun x w' h => (hf x w').trans h

@[simp] theorem reads_ite {c : Prop} [Decidable c] {a b : Action κ α} :
    (if c then a else b).Reads ↔ (c → a.Reads) ∧ (¬ c → b.Reads) := by
  split <;> simp_all

/-! ## Atomic actions -/

/-- An action that has changed nothing if it fails. -/
def Atomic (a : Action κ α) : Prop := ∀ w e w', a w = (.error e, w') → w' = w

theorem Reads.atomic {a : Action κ α} (h : a.Reads) : a.Atomic := by
  intro w e w' hfails
  rw [← h w, hfails]

/-- Reading first is atomic if what follows is. -/
theorem Atomic.after {a : Action κ α} {f : α → Action κ β} (ha : a.Reads) (hf : ∀ x, (f x).Atomic) :
    (a >>= f).Atomic := by
  intro w e w' hfails
  have hfirst := ha w
  rw [bind_apply] at hfails
  split at hfails
  · next x w₁ heq =>
    rw [heq] at hfirst
    exact (hf x w₁ e w' hfails).trans hfirst
  · next heq =>
    cases hfails
    rw [heq] at hfirst
    exact hfirst

theorem atomic_fail (message : String) : (fail message : Action κ α).Atomic := (reads_fail message).atomic

theorem atomic_ite {c : Prop} [Decidable c] {a b : Action κ α} (ha : a.Atomic) (hb : b.Atomic) :
    (if c then a else b).Atomic := by
  split
  · exact ha
  · exact hb

end Action

open ScriptWarden.Bridge.Action (Reads Atomic)

@[simp] theorem reads_object (c : Call) (i : Nat) (f : κ → Option α) :
    (c.object i f : Action κ (Nat × α)).Reads := by
  unfold Call.object
  refine Action.reads_bind (Action.reads_lift _) fun id => ?_
  refine Action.reads_bind (Action.reads_look _) fun x => ?_
  split
  · exact Action.reads_pure _
  · exact Action.reads_lift _

theorem reads_seenAll (vs : List Value) : (seenAll vs : Action κ (List Argument)).Reads := fun _ => rfl

theorem reads_checkAlive : (checkAlive : Action κ Unit).Reads := by
  simp [checkAlive]

/-! ## Calls of methods -/

/-- A method that changes nothing if a call that it accepted fails. -/
def Member.Atomic : Member κ → Prop
  | .method overloads run => ∀ c, c.Accepted overloads → (run c).Atomic
  | .field .. => True

section Calls

variable {r : Registry κ} (hr : r.All fun _ _ m => m.Atomic) (policy : Trust.Policy) (type name : String)

include hr

theorem atomic_callMethod (this : Value) (values : List Value) (state : Nat) (shown : List Argument) :
    (callMethod r policy type name this values state shown).Atomic := by
  unfold callMethod
  refine .after reads_checkAlive fun _ => ?_
  split
  · next overloads run hmember =>
    simp only
    split
    · exact Action.atomic_fail _
    · next hselect => exact hr type name _ hmember _ (accepts_of_select hselect)
  · exact Action.atomic_fail _

/-- A call that fails changes nothing, if every method of the registry is atomic. -/
theorem atomic_bridgeCall (args : List Value) : (bridgeCall r policy type name args).Atomic := by
  unfold bridgeCall
  cases args with
  | nil => exact Action.atomic_fail _
  | cons this values =>
    refine .after (reads_seenAll _) fun shown => ?_
    split
    · exact Action.atomic_ite (atomic_callMethod hr _ _ _ _ _ _ _) (Action.atomic_fail _)
    · exact Action.atomic_fail _

end Calls

/-- What a script finds after an atomic action that failed: the world of before, and the error. -/
theorem perform_atomic {a : Action κ α} (ha : a.Atomic) (w : World (Services κ)) :
    (∃ x w', perform a w = .done x w') ∨ ∃ message, perform a w =
      .fail (.value (.raised w.heap.raised.size))
        ⟨(w.heap.newRaised ⟨Lua.Machine.hostText message, nativePlace⟩).2, w.host, w.meter⟩ := by
  obtain ⟨heap, services, meter⟩ := w
  unfold perform
  simp only
  cases hdone : a ⟨heap, services, none⟩ with
  | mk result w' =>
    cases result with
    | ok x => exact .inl ⟨x, _, rfl⟩
    | error message =>
      obtain rfl := ha _ _ _ hdone
      exact .inr ⟨message, rfl⟩

end ScriptWarden.Bridge
