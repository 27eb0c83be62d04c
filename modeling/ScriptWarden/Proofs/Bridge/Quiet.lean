import ScriptWarden.Bridge.Natives
set_option autoImplicit false

/-!
# Bridge: quiet actions

Some calls of the host need a capability of the owner (`Host.Call.capability?`).  An action is *quiet* if it
makes none of them and touches neither the gate of the package nor its mailbox; the package stays the same load.
-/

namespace ScriptWarden

open Trust (Capability)

/-- The capability that a call of the host needs. -/
def Host.Call.capability? : Host.Call → Option Capability
  | .play _ => some .playSound
  | .spawn _ => some .spawnParticle
  | .request .. => some .networkCall
  | .nameplate _ => some .nameplateEdit
  | .override .. => some .renderOverride
  | _ => none

namespace Package

/-- The capability that something for the world outside needs. -/
def Effect.capability? : Effect → Option Capability
  | .call _ c => c.capability?
  | _ => none

/-- The capabilities that some effects need, one for each call that needs any. -/
def needs (effects : List Effect) : List Capability := effects.filterMap Effect.capability?

@[simp] theorem needs_nil : needs [] = [] := rfl

@[simp] theorem needs_append (es es' : List Effect) : needs (es ++ es') = needs es ++ needs es' :=
  List.filterMap_append

variable {κ : Type}

/-- The services after something that did not touch the gate and made no call that needs a capability. -/
structure Quiet (s s' : Services κ) : Prop where
  gate_eq : s'.gate = s.gate
  principal_eq : s'.principal = s.principal
  outbox_eq : ∃ new, s'.outbox = new ++ s.outbox ∧ needs new = []

namespace Quiet

theorem refl (s : Services κ) : Quiet s s := ⟨rfl, rfl, [], rfl, rfl⟩

theorem trans {s₁ s₂ s₃ : Services κ} (h : Quiet s₁ s₂) (h' : Quiet s₂ s₃) : Quiet s₁ s₃ := by
  obtain ⟨new, hnew, hnone⟩ := h.outbox_eq
  obtain ⟨new', hnew', hnone'⟩ := h'.outbox_eq
  refine ⟨h'.gate_eq.trans h.gate_eq, h'.principal_eq.trans h.principal_eq, new' ++ new, ?_, ?_⟩
  · rw [hnew', hnew, List.append_assoc]
  · rw [needs_append, hnone, hnone']
    rfl

/-- What leaves gate, principal and outbox alone is quiet. -/
theorem of_eq {s s' : Services κ} (hgate : s'.gate = s.gate) (hprincipal : s'.principal = s.principal)
    (houtbox : s'.outbox = s.outbox) : Quiet s s' :=
  ⟨hgate, hprincipal, [], by rw [houtbox, List.nil_append], rfl⟩

theorem emit (s : Services κ) {e : Effect} (h : e.capability? = none) : Quiet s (s.emit e) :=
  ⟨rfl, rfl, [e], rfl, by rw [needs, List.filterMap_cons_none h, List.filterMap_nil]⟩

theorem tell (s : Services κ) {c : Host.Call} (h : c.capability? = none) : Quiet s (s.tell c) :=
  emit s h

theorem note (s : Services κ) (d : Diagnostic) : Quiet s (s.note d) := emit s rfl

theorem trustValue (s : Services κ) (policy : Trust.Policy) (c : Capability) :
    Quiet s (s.trustValue policy c).2 := by
  unfold Services.trustValue
  split
  · exact refl s
  · exact note s _

end Quiet

/-- The services after something that did not touch the mailbox either; they belong to the same load. -/
structure Calm (s s' : Services κ) : Prop extends Quiet s s' where
  mailbox_eq : s'.mailbox = s.mailbox
  generation_eq : s'.generation = s.generation

namespace Calm

theorem refl (s : Services κ) : Calm s s := ⟨.refl s, rfl, rfl⟩

theorem trans {s₁ s₂ s₃ : Services κ} (h : Calm s₁ s₂) (h' : Calm s₂ s₃) : Calm s₁ s₃ :=
  ⟨h.toQuiet.trans h'.toQuiet, h'.mailbox_eq.trans h.mailbox_eq, h'.generation_eq.trans h.generation_eq⟩

/-- What leaves gate, principal, outbox, mailbox and the number of the load alone is calm. -/
theorem of_eq {s s' : Services κ} (hgate : s'.gate = s.gate) (hprincipal : s'.principal = s.principal)
    (houtbox : s'.outbox = s.outbox) (hmailbox : s'.mailbox = s.mailbox)
    (hgeneration : s'.generation = s.generation) : Calm s s' :=
  ⟨.of_eq hgate hprincipal houtbox, hmailbox, hgeneration⟩

theorem tell (s : Services κ) {c : Host.Call} (h : c.capability? = none) : Calm s (s.tell c) :=
  ⟨.tell s h, rfl, rfl⟩

end Calm

end Package

namespace Bridge

open Lua (Value World)
open Package (Services)

variable {κ α β : Type}

/-! ## Actions -/

namespace Action

theorem bind_apply (a : Action κ α) (f : α → Action κ β) (w : World (Services κ)) :
    (a >>= f) w =
      match a w with
      | (.ok x, w') => f x w'
      | (.error e, w') => (.error e, w') := by
  change (ExceptT.bind a f) w = _
  unfold ExceptT.bind ExceptT.mk
  change (match a w with | (x, w') => ExceptT.bindCont f x w') = _
  obtain ⟨x, w'⟩ := a w
  cases x <;> rfl

/-- What holds after an action, and stays so whatever follows, holds after both. -/
theorem bind_keeps {P : World (Services κ) → Prop} {a : Action κ α} {f : α → Action κ β} {w : World (Services κ)}
    (ha : P (a w).2) (hf : ∀ x w', P w' → P (f x w').2) : P ((a >>= f) w).2 := by
  rw [bind_apply]
  split
  · next x w' heq =>
    rw [heq] at ha
    exact hf x w' ha
  · next heq =>
    rw [heq] at ha
    exact ha

@[simp] theorem pure_apply (a : α) (w : World (Services κ)) :
    (pure a : Action κ α) w = (.ok a, w) := rfl

@[simp] theorem lift_apply (x : Except String α) (w : World (Services κ)) :
    (liftM x : Action κ α) w = (x, w) := rfl

/-- An action is quiet if the services after it are calm. -/
def Quiet (a : Action κ α) : Prop := ∀ w, Package.Calm w.host (a w).2.host

@[simp] theorem quiet_pure (a : α) : (pure a : Action κ α).Quiet := fun w => .refl w.host

@[simp] theorem quiet_lift (x : Except String α) : (liftM x : Action κ α).Quiet :=
  fun w => .refl w.host

@[simp] theorem quiet_fail (message : String) : (fail message : Action κ α).Quiet :=
  fun w => .refl w.host

@[simp] theorem quiet_look (f : Services κ → α) : (look f : Action κ α).Quiet :=
  fun w => .refl w.host

@[simp] theorem quiet_onHeap (f : Lua.Heap → α × Lua.Heap) : (onHeap f : Action κ α).Quiet :=
  fun w => .refl w.host

theorem quiet_onServices {f : Services κ → α × Services κ} (h : ∀ s, Package.Calm s (f s).2) :
    (onServices f).Quiet := fun w => h w.host

theorem quiet_edit {f : Services κ → Services κ} (h : ∀ s, Package.Calm s (f s)) :
    (edit f).Quiet := fun w => h w.host

theorem quiet_tell {c : Host.Call} (h : c.capability? = none) :
    (edit (·.tell c) : Action κ Unit).Quiet := quiet_edit fun s => .tell s h

@[simp] theorem quiet_bind {a : Action κ α} {f : α → Action κ β} (ha : a.Quiet)
    (hf : ∀ x, (f x).Quiet) : (a >>= f).Quiet := fun w =>
  bind_keeps (P := fun w' => Package.Calm w.host w'.host) (ha w) fun x w' h => h.trans (hf x w')

@[simp] theorem quiet_map {a : Action κ α} {f : α → β} : (f <$> a).Quiet ↔ a.Quiet := by
  have hhost : ∀ w, ((f <$> a) w).2.host = (a w).2.host := by
    intro w
    rw [map_eq_pure_bind, bind_apply]
    split
    · next heq => simp [heq]
    · next heq => simp [heq]
  simp [Quiet, hhost]

/-- What fails at once leaves the services alone. -/
@[simp] theorem quiet_lift_bind {x : Except String α} {f : α → Action κ β} :
    ((liftM x : Action κ α) >>= f).Quiet ↔ ∀ a, x = .ok a → (f a).Quiet := by
  constructor
  · rintro h a rfl
    exact h
  · intro h
    cases x with
    | error e => exact quiet_fail e
    | ok a => exact h a rfl

@[simp] theorem quiet_ite {c : Prop} [Decidable c] {a b : Action κ α} :
    (if c then a else b).Quiet ↔ (c → a.Quiet) ∧ (¬ c → b.Quiet) := by
  split <;> simp_all

end Action

@[simp] theorem quiet_self (c : Call) : (c.self : Action κ (List Value)).Quiet := Action.quiet_pure _

@[simp] theorem quiet_object (c : Call) (i : Nat) (f : κ → Option α) :
    (c.object i f : Action κ (Nat × α)).Quiet := by
  unfold Call.object
  refine Action.quiet_bind (Action.quiet_lift _) fun id => ?_
  refine Action.quiet_bind (Action.quiet_look _) fun x => ?_
  split
  · exact Action.quiet_pure _
  · exact Action.quiet_lift _

@[simp] theorem quiet_seenAll (vs : List Value) : (seenAll vs : Action κ (List Argument)).Quiet :=
  fun w => .refl w.host

@[simp] theorem quiet_checkAlive : (checkAlive : Action κ Unit).Quiet := by
  simp [checkAlive]

theorem quiet_readField {get : Nat → Action κ Value} {state : Nat} (h : (get state).Quiet) :
    (readField get state).Quiet := by
  simp [readField, h]

/-! ## Registries -/

namespace TypeEntry

/-- Every member of a type has a property. -/
def All (P : String → Member κ → Prop) (t : TypeEntry κ) : Prop :=
  ∀ name m, t.members[name]? = some m → P name m

variable {P : String → Member κ → Prop} {t : TypeEntry κ}

theorem all_empty : All P ({} : TypeEntry κ) := by
  intro name m hm
  simp at hm

theorem All.describe (h : t.All P) (doc : String) : (t.describe doc).All P := h

theorem All.insert (h : t.All P) {name : String} {m : Member κ} (hm : P name m) :
    All P { t with members := t.members.insert name m } := by
  intro name' m' hm'
  simp only [Std.ExtTreeMap.getElem?_insert] at hm'
  split at hm'
  · next heq =>
    cases hm'
    exact Std.LawfulEqOrd.eq_of_compare heq ▸ hm
  · exact h name' m' hm'

/-- A method under the signatures that it gets. -/
theorem All.given (h : t.All P) {name : String} {overloads : List Signature}
    {run : Call → Action κ (List Value)}
    (hm : P name (.method (if overloads.isEmpty then [[]] else overloads) run)) :
    (t.method name overloads run).All P := h.insert hm

theorem All.method (h : t.All P) {name : String} (overloads : List Signature)
    {run : Call → Action κ (List Value)} (hm : ∀ os, P name (.method os run)) :
    (t.method name overloads run).All P := h.given (hm _)

/-- A method with several names under the signatures that it gets. -/
theorem All.givens (h : t.All P) {names : List String} {overloads : List Signature}
    {run : Call → Action κ (List Value)}
    (hm : ∀ name ∈ names, P name (.method (if overloads.isEmpty then [[]] else overloads) run)) :
    (t.methods names overloads run).All P := by
  unfold TypeEntry.methods
  induction names generalizing t with
  | nil => exact h
  | cons name rest ih =>
    rw [List.foldl_cons]
    exact ih (h.given (hm name List.mem_cons_self)) fun name' hname' =>
      hm name' (List.mem_cons_of_mem _ hname')

theorem All.methods (h : t.All P) {names : List String} (overloads : List Signature)
    {run : Call → Action κ (List Value)} (hm : ∀ name ∈ names, ∀ os, P name (.method os run)) :
    (t.methods names overloads run).All P := h.givens fun name hname => hm name hname _

theorem All.field (h : t.All P) {name : String} {type : ArgType} {get : Nat → Action κ Value}
    (hm : P name (.field type get)) : (t.field name type get).All P := h.insert hm

end TypeEntry

namespace Registry

/-- Every member of every type has a property. -/
def All (P : String → String → Member κ → Prop) (r : Registry κ) : Prop :=
  ∀ type name m, r.member? type name = some m → P type name m

variable {P : String → String → Member κ → Prop} {r : Registry κ}

theorem all_empty : All P ({} : Registry κ) := by
  intro type name m hm
  simp [member?] at hm

theorem All.register (h : r.All P) {name : String} {t : TypeEntry κ} (ht : t.All (P name)) :
    (r.register name t).All P := by
  intro type member m hm
  simp only [member?, Registry.register, Std.ExtTreeMap.getElem?_insert] at hm
  split at hm
  · next heq => exact Std.LawfulEqOrd.eq_of_compare heq ▸ ht member m hm
  · exact h type member m hm

end Registry

end Bridge

end ScriptWarden
