import ScriptWarden.Api.Surface
import ScriptWarden.Proofs.Bridge.Failure
import ScriptWarden.Proofs.Package.Services
set_option autoImplicit false

/-!
# API: objects and what they stand for

An object has a type and the number of a state, and nothing but the way objects are made says that the state is one
of that type.  What methods do to objects and states keeps it so: a state may change but stays of its kind, and a new
object comes with a state of the kind that its type says (`Grown`).  So every object stands for a thing of its type
(`Typed`), whatever scripts do.  Modules, and the functions that scripts have for methods, are nothing to methods.
-/

namespace ScriptWarden.Api

open Bridge (Action Call Objection Readable)
open Lua (Value World)

variable {α β : Type}

/-! ## Kinds -/

/-- The kinds of things. -/
inductive Kind where
  | service
  | sound
  | particle
  | texture
  | draft
  deriving DecidableEq, Repr, Inhabited

/-- The kind of a thing. -/
def Thing.kind : Thing → Kind
  | .service => .service
  | .sound _ => .sound
  | .particle _ => .particle
  | .texture _ => .texture
  | .draft _ => .draft

/-- The kind of thing that objects of a type stand for. -/
def kindOf (type : String) : Kind :=
  if type = soundType then .sound
  else if type = particleType then .particle
  else if type = textureType then .texture
  else if type = draftType then .draft
  else .service

/-- The kind of thing in a state. -/
def kindAt (s : Services) (state : Nat) : Option Kind := s.states[state]?.map Thing.kind

/-- Every object stands for a thing of its type. -/
def Typed (s : Services) : Prop :=
  ∀ (id : Nat) o, s.objects[id]? = some o → kindAt s o.state = some (kindOf o.type)

/-- A view sees the things of one kind. -/
def Views (view : Thing → Option α) (k : Kind) : Prop := ∀ t, (view t).isSome ↔ t.kind = k

theorem views_service : Views Thing.service? .service := by
  rintro (_ | _ | _ | _ | _) <;> simp [Thing.service?, Thing.kind]

theorem views_sound : Views Thing.sound? .sound := by
  rintro (_ | _ | _ | _ | _) <;> simp [Thing.sound?, Thing.kind]

theorem views_particle : Views Thing.particle? .particle := by
  rintro (_ | _ | _ | _ | _) <;> simp [Thing.particle?, Thing.kind]

theorem views_texture : Views Thing.texture? .texture := by
  rintro (_ | _ | _ | _ | _) <;> simp [Thing.texture?, Thing.kind]

theorem views_draft : Views Thing.draft? .draft := by
  rintro (_ | _ | _ | _ | _) <;> simp [Thing.draft?, Thing.kind]

/-! ## Growth -/

/-- Objects, states, and the modules that have not been started. -/
def held (s : Services) : Array Bridge.Object × Array Thing × Std.ExtTreeMap String String :=
  (s.objects, s.states, s.modules)

/-- States keep their kinds, new objects stand for things of their types, and no module is started. -/
structure Grown (s s' : Services) : Prop where
  kinds : ∀ state k, kindAt s state = some k → kindAt s' state = some k
  objects : ∀ (id : Nat) o, s'.objects[id]? = some o →
    s.objects[id]? = some o ∨ kindAt s' o.state = some (kindOf o.type)
  modules_eq : s'.modules = s.modules

namespace Grown

variable {s s' s₁ s₂ s₃ : Services}

theorem refl (s : Services) : Grown s s := ⟨fun _ _ h => h, fun _ _ h => .inl h, rfl⟩

theorem trans (h : Grown s₁ s₂) (h' : Grown s₂ s₃) : Grown s₁ s₃ where
  kinds state k hk := h'.kinds state k (h.kinds state k hk)
  objects id o ho := by
    obtain hold | hnew := h'.objects id o ho
    · obtain hold | hnew := h.objects id o hold
      · exact .inl hold
      · exact .inr (h'.kinds _ _ hnew)
    · exact .inr hnew
  modules_eq := h'.modules_eq.trans h.modules_eq

/-- What leaves all of that alone lets it grow. -/
theorem of_held (h : held s' = held s) : Grown s s' := by
  obtain ⟨hobjects, hstates, hmodules⟩ : s'.objects = s.objects ∧ s'.states = s.states ∧ s'.modules = s.modules := by
    simpa [held] using h
  constructor
  · intro state k hk
    unfold kindAt at hk ⊢
    rw [hstates]
    exact hk
  · exact fun id o ho => .inl (hobjects ▸ ho)
  · exact hmodules

/-- A state may change to another one of its kind. -/
theorem put {state : Nat} {t : Thing} (h : kindAt s state = some t.kind) :
    Grown s { s with states := s.states.setIfInBounds state t } where
  kinds state' k hk := by
    unfold kindAt at h hk ⊢
    rw [Array.getElem?_setIfInBounds]
    split
    · next heq =>
      obtain rfl := heq
      split
      · rw [← hk, h]
        rfl
      · next hbound =>
        rw [Array.getElem?_eq_none (Nat.not_lt.1 hbound)] at hk
        cases hk
    · exact hk
  objects id o ho := .inl ho
  modules_eq := rfl

/-- A new object comes with a state of its kind. -/
theorem create {type : String} {t : Thing} (h : t.kind = kindOf type) :
    Grown s ((s.newState t).2.newObject ⟨type, s.states.size⟩).2 where
  kinds state k hk := by
    unfold kindAt at hk ⊢
    have hbound : state < s.states.size := Nat.lt_of_not_le fun hbeyond => by
      rw [Array.getElem?_eq_none hbeyond] at hk
      cases hk
    simpa [Package.Services.newObject, Package.Services.newState, Array.getElem?_push, Nat.ne_of_lt hbound] using hk
  objects id o ho := by
    simp only [Package.Services.newObject, Package.Services.newState, Array.getElem?_push] at ho
    split at ho
    · cases ho
      refine .inr ?_
      simp [kindAt, Package.Services.newObject, Package.Services.newState, h]
    · exact .inl ho
  modules_eq := rfl

/-- Objects stay what they are. -/
theorem typed (h : Grown s s') (hs : Typed s) : Typed s' := by
  intro id o ho
  obtain hold | hnew := h.objects id o ho
  · exact h.kinds _ _ (hs id o hold)
  · exact hnew

end Grown

/-- The same, and no function of a method is made or forgotten. -/
structure Tended (s s' : Services) : Prop extends Grown s s' where
  methods_eq : s'.methods = s.methods

/-- What stays as it is where no object is made and no thing is changed. -/
def lasting (s : Services) := (held s, s.methods)

namespace Tended

variable {s s' s₁ s₂ s₃ : Services}

theorem refl (s : Services) : Tended s s := ⟨.refl s, rfl⟩

theorem trans (h : Tended s₁ s₂) (h' : Tended s₂ s₃) : Tended s₁ s₃ :=
  ⟨h.toGrown.trans h'.toGrown, h'.methods_eq.trans h.methods_eq⟩

theorem of_lasting (h : lasting s' = lasting s) : Tended s s' :=
  ⟨.of_held (congrArg Prod.fst h), congrArg Prod.snd h⟩

end Tended

/-- An action that lets objects and states grow, whatever they are. -/
def Growing (a : Action Thing α) : Prop := ∀ w, Tended w.host (a w).2.host

theorem growing_of_reads {a : Action Thing α} (h : a.Reads) : Growing a := by
  intro w
  rw [h w]
  exact .refl _

theorem Growing.bind {a : Action Thing α} {f : α → Action Thing β} (ha : Growing a) (hf : ∀ x, Growing (f x)) :
    Growing (a >>= f) := fun w =>
  Action.bind_keeps (P := fun w' => Tended w.host w'.host) (ha w) fun x w' h => h.trans (hf x w')

/-! ## Serving -/

/-- An action that never fails, and lets objects and states grow as long as a state is of a kind. -/
structure Serves (state : Nat) (k : Kind) (a : Action Thing α) : Prop where
  succeeds : ∀ w, ∃ x, (a w).1 = .ok x
  grows : ∀ w, kindAt w.host state = some k → Tended w.host (a w).2.host

section Serving

variable {state : Nat} {k : Kind}

theorem serves_pure (a : α) : Serves state k (pure a) := ⟨fun _ => ⟨a, rfl⟩, fun w _ => .refl w.host⟩

theorem serves_look (f : Services → α) : Serves state k (Action.look f) :=
  ⟨fun _ => ⟨_, rfl⟩, fun w _ => .refl w.host⟩

theorem serves_onHeap (f : Lua.Heap → α × Lua.Heap) : Serves state k (Action.onHeap f) :=
  ⟨fun _ => ⟨_, rfl⟩, fun w _ => .refl w.host⟩

/-- A change of the services that leaves objects, states, modules and functions of methods alone. -/
theorem serves_onServices {f : Services → α × Services} (h : ∀ s, lasting (f s).2 = lasting s) :
    Serves state k (Action.onServices f) := ⟨fun _ => ⟨_, rfl⟩, fun w _ => .of_lasting (h w.host)⟩

theorem serves_edit {f : Services → Services} (h : ∀ s, lasting (f s) = lasting s) :
    Serves state k (Action.edit f) := serves_onServices h

theorem Serves.bind {a : Action Thing α} {f : α → Action Thing β} (ha : Serves state k a)
    (hf : ∀ x, Serves state k (f x)) : Serves state k (a >>= f) := by
  constructor
  · intro w
    obtain ⟨x, hx⟩ := ha.succeeds w
    rw [Action.bind_apply]
    split
    · next y w' _ => exact (hf y).succeeds w'
    · next heq =>
      rw [heq] at hx
      cases hx
  · intro w hk
    refine Action.bind_keeps (P := fun w' => Tended w.host w'.host) (ha.grows w hk) fun x w' h => ?_
    exact h.trans ((hf x).grows w' (h.kinds _ _ hk))

theorem Serves.ite {c : Prop} [Decidable c] {a b : Action Thing α} (ha : Serves state k a)
    (hb : Serves state k b) : Serves state k (if c then a else b) := by
  split
  · exact ha
  · exact hb

end Serving

/-! ## Order -/

/-- Every object among the arguments of a call stands for a thing of its type. -/
def Founded (c : Call) (s : Services) : Prop :=
  ∀ (i : Nat) type state, c.argument i = .object type state → type = "" ∨ kindAt s state = some (kindOf type)

/-- An action on behalf of a call, on a thing of a kind, that has an order: it reads and checks first, and what comes
then never fails.  So an error leaves everything as it was, and says what the method has against the call. -/
structure Orderly (c : Call) (k : Kind) (a : Action Thing α) : Prop where
  atomic : a.Atomic
  fails : ∀ w e, Founded c w.host → (a w).1 = .error e → Objection c.method e
  grows : ∀ w, kindAt w.host c.state = some k → Tended w.host (a w).2.host

section Order

variable {c : Call} {k : Kind}

theorem Serves.orderly {a : Action Thing α} (h : Serves c.state k a) : Orderly c k a where
  atomic w e w' hfails := by
    obtain ⟨x, hx⟩ := h.succeeds w
    rw [hfails] at hx
    cases hx
  fails w e _ hfails := by
    obtain ⟨x, hx⟩ := h.succeeds w
    rw [hfails] at hx
    cases hx
  grows := h.grows

/-- What only reads comes first. -/
theorem Orderly.after {a : Action Thing α} {f : α → Action Thing β} (hreads : a.Reads)
    (hfails : ∀ w e, Founded c w.host → (a w).1 = .error e → Objection c.method e)
    (hf : ∀ w x, (a w).1 = .ok x → Orderly c k (f x)) : Orderly c k (a >>= f) := by
  have hcases (w : World Services) :
      (∃ e, (a w).1 = .error e ∧ (a >>= f) w = (.error e, w)) ∨
        ∃ x, (a w).1 = .ok x ∧ (a >>= f) w = f x w := by
    have hsame := hreads w
    rw [Action.bind_apply]
    generalize a w = r at hsame ⊢
    obtain ⟨r, w'⟩ := r
    obtain rfl : w' = w := hsame
    cases r with
    | error e => exact .inl ⟨e, rfl, rfl⟩
    | ok x => exact .inr ⟨x, rfl, rfl⟩
  constructor
  · intro w e w' h
    obtain ⟨e', -, heq⟩ | ⟨x, hx, heq⟩ := hcases w
    · rw [heq] at h
      cases h
      rfl
    · rw [heq] at h
      exact (hf w x hx).atomic w e w' h
  · intro w e hfounded h
    obtain ⟨e', he', heq⟩ | ⟨x, hx, heq⟩ := hcases w
    · rw [heq] at h
      cases h
      exact hfails w _ hfounded he'
    · rw [heq] at h
      exact (hf w x hx).fails w e hfounded h
  · intro w hk
    obtain ⟨e, -, heq⟩ | ⟨x, hx, heq⟩ := hcases w
    · rw [heq]
      exact .refl _
    · rw [heq]
      exact (hf w x hx).grows w hk

/-- What never fails may follow on anything. -/
theorem Orderly.before {a : Action Thing α} {f : α → Action Thing β} (ha : Orderly c k a)
    (hf : ∀ x, Serves c.state k (f x)) : Orderly c k (a >>= f) := by
  constructor
  · intro w e w' h
    rw [Action.bind_apply] at h
    split at h
    · next x w₁ _ =>
      obtain ⟨y, hy⟩ := (hf x).succeeds w₁
      rw [h] at hy
      cases hy
    · next heq =>
      cases h
      exact ha.atomic w _ _ heq
  · intro w e hfounded h
    rw [Action.bind_apply] at h
    split at h
    · next x w₁ _ =>
      obtain ⟨y, hy⟩ := (hf x).succeeds w₁
      rw [h] at hy
      cases hy
    · next heq =>
      cases h
      exact ha.fails w _ hfounded (by rw [heq])
  · intro w hk
    refine Action.bind_keeps (P := fun w' => Tended w.host w'.host) (ha.grows w hk) fun x w' h => ?_
    exact h.trans ((hf x).grows w' (h.kinds _ _ hk))

/-- What can be read is read first. -/
theorem Orderly.read {x : Except String α} {f : α → Action Thing β} (hx : Readable x)
    (hf : ∀ a, Orderly c k (f a)) : Orderly c k ((liftM x : Action Thing α) >>= f) := by
  obtain ⟨a, rfl⟩ := hx
  exact hf a

/-- What is checked is checked first. -/
theorem Orderly.check {x : Except String α} {f : α → Action Thing β}
    (hx : ∀ e, x = .error e → Objection c.method e) (hf : ∀ a, Orderly c k (f a)) :
    Orderly c k ((liftM x : Action Thing α) >>= f) :=
  .after (Action.reads_lift x) (fun _ e _ he => hx e he) fun _ a _ => hf a

theorem Orderly.look {f : Services → α} {g : α → Action Thing β} (hg : ∀ x, Orderly c k (g x)) :
    Orderly c k (Action.look f >>= g) :=
  .after (Action.reads_look f) (fun _ _ _ he => nomatch he) fun _ x _ => hg x

theorem Orderly.ite {p : Prop} [Decidable p] {a b : Action Thing α} (ha : p → Orderly c k a)
    (hb : ¬ p → Orderly c k b) : Orderly c k (if p then a else b) := by
  split
  · next h => exact ha h
  · next h => exact hb h

end Order

end ScriptWarden.Api
