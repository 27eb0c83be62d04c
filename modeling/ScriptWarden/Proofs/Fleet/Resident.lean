import ScriptWarden.Proofs.Fleet.Course
import ScriptWarden.Proofs.Package.Alike
set_option autoImplicit false

/-!
# The fleet: residents

A package that is found in a fleet makes calls under its own name only, with tokens of its own load.  This follows from
its scripts not knowing how it is looked at: what comes of it is the same to somebody who does not hear any other calls.
-/

namespace ScriptWarden

open Trust (Policy)

/-- The package that a failure is about, if it is about any. -/
def Failure.package? : Failure → Option String
  | .setup package _ | .script package _ _ | .emptyPackage package | .missingEntry package _ | .stage package _ _
  | .unknownPackage package => some package
  | .auth _ | .files | .json | .http => none

/-! ## The world outside -/

/-- What is seen of something that is there for the world outside on behalf of the package. -/
def View.effect (v : View) : Package.Effect → Package.Effect
  | .call package c => .call package (v.call c)
  | e => e

namespace Package

/-- The package that something for the world outside is about.  Lines for the operator are about none. -/
def Effect.package? : Effect → Option String
  | .call package _ | .unending package => some package
  | .notice _ | .printed _ => none

/-- What there is for the world outside under a name. -/
def effectsOf (name : String) (effects : List Effect) : List Effect := effects.filter (·.package? = some name)

section Effects

variable {v : View} {name : String}

@[simp] theorem effectsOf_append (es es' : List Effect) :
    effectsOf name (es ++ es') = effectsOf name es ++ effectsOf name es' := List.filter_append _ _

theorem effectsOf_reverse (es : List Effect) : effectsOf name es.reverse = (effectsOf name es).reverse :=
  List.filter_reverse

/-- A view shows everything under the name of its package. -/
theorem effectsOf_seen (es : List Effect) :
    effectsOf v.package (es.filterMap v.effect?) = (effectsOf v.package es).map v.effect := by
  induction es with
  | nil => rfl
  | cons e rest ih =>
    cases e with
    | call package c =>
      by_cases hname : package = v.package
      · simpa [effectsOf, View.effect?, View.effect, Effect.package?, hname] using ih
      · simpa [effectsOf, View.effect?, Effect.package?, hname] using ih
    | unending package =>
      by_cases hname : package = v.package
      · simpa [effectsOf, View.effect?, View.effect, Effect.package?, hname] using ih
      · simpa [effectsOf, View.effect?, Effect.package?, hname] using ih
    | notice d => exact ih
    | printed bytes => exact ih

/-- It shows nothing under another name. -/
theorem effectsOf_other (hname : name ≠ v.package) (es : List Effect) :
    effectsOf name (es.filterMap v.effect?) = [] := by
  refine List.filter_eq_nil_iff.2 fun e he => ?_
  obtain ⟨seen, -, hseen⟩ := List.mem_filterMap.1 he
  cases seen with
  | call package c =>
    obtain ⟨hown, hsome⟩ := (Option.ite_none_right_eq_some ..).1 hseen
    cases Option.some.inj hsome
    simp [Effect.package?, hown, Ne.symm hname]
  | unending package =>
    obtain ⟨hown, hsome⟩ := (Option.ite_none_right_eq_some ..).1 hseen
    cases Option.some.inj hsome
    simp [Effect.package?, hown, Ne.symm hname]
  | notice d =>
    cases hseen
    simp [Effect.package?]
  | printed bytes =>
    cases hseen
    simp [Effect.package?]

end Effects

/-! ## What is its own -/

section Own

variable {v : View} {i i' : Instance} {o : Outcome} {name : String}

/-- What an instance has for the world outside it has under its own name, and for its own load. -/
def Instance.Own (i : Instance) : Prop := i.Alike ⟨i.name, fun _ => i.services.generation⟩ i

theorem Instance.Alike.effects (h : i.Alike v i') :
    effectsOf v.package i'.services.outbox = (effectsOf v.package i.services.outbox).map v.effect := by
  rw [h.seen]
  exact effectsOf_seen _

theorem Instance.Alike.alone (h : i.Alike v i') (hname : name ≠ v.package) :
    effectsOf name i'.services.outbox = [] := by
  rw [h.seen]
  exact effectsOf_other hname _

theorem Instance.Alike.generation (h : i.Alike v i') : i'.services.generation = v.number i.services.generation := by
  rw [h.seen]
  rfl

theorem Instance.Alike.emptied (h : i.Alike v i') : i.emptied.Alike v i'.emptied := by
  obtain ⟨source, stage, heap, lastError, hshows⟩ := h
  exact .intro _ _ _ _ (hshows.map (f := fun s => s.drain.2) (fun _ => rfl) fun _ => rfl)

theorem Instance.Own.effects (h : i.Own) (hname : name ≠ i.name) : effectsOf name i.services.outbox = [] :=
  Instance.Alike.alone h hname

theorem Instance.Own.emptied (h : i.Own) : i.emptied.Own := Instance.Alike.emptied h

/-- What comes of an instance is its own if the same came of it however it is looked at. -/
theorem own_of_alike (hsource : i'.source = i.source)
    (halike : i'.Alike ⟨i.name, fun _ => i.services.generation⟩ i') :
    i'.Own ∧ i'.services.generation = i.services.generation := by
  have hgeneration : i'.services.generation = i.services.generation := halike.generation
  have hname : i'.name = i.name := congrArg Source.name hsource
  refine ⟨?_, hgeneration⟩
  unfold Instance.Own
  rwa [hname, hgeneration]

theorem own_new (t : Terms) (policy : Policy) (generation : Nat) (source : Source) :
    (Instance.new t policy generation source).Own ∧
      (Instance.new t policy generation source).services.generation = generation := by
  have halike : (Instance.new t policy generation source).Alike ⟨source.name, fun _ => generation⟩
      (Instance.new t policy generation source) :=
    Instance.alike_new (v := ⟨source.name, fun _ => generation⟩) t policy generation rfl
  have hgeneration : (Instance.new t policy generation source).services.generation = generation := halike.generation
  refine ⟨?_, hgeneration⟩
  unfold Instance.Own
  rw [hgeneration]
  exact halike

theorem Ends.failure {e : Failure} (h : Ends i o) (he : o.1 = .error e) : e.package? = some i.name := by
  cases h with
  | done heap services => cases he
  | failed services error =>
    cases he
    rfl

end Own

/-! ## Residents -/

/-- A package of a fleet, found under a name among loads in some order. -/
structure Resident (loads : List String) (name : String) (i : Instance) : Prop where
  name_eq : i.name = name
  own : i.Own
  load : loads[i.services.generation]? = some name
  holds : Holds i

/-- Something that is done with packages that run: it comes to the same however they are looked at. -/
structure Apart (run : Instance → Outcome) : Prop where
  alike : ∀ (v : View) {i i' : Instance}, i.Alike v i' → Outcome.Alike v (run i) (run i')
  ends : ∀ {i : Instance}, Runs i → Ends i (run i)

theorem apart_tick (t : Terms) (policy : Policy) : Apart (·.tick t policy) :=
  ⟨fun _ => Instance.alike_tick t policy, tick_ends t policy⟩

theorem apart_render (t : Terms) (policy : Policy) (delta : Float) : Apart (·.render t policy delta) :=
  ⟨fun _ => Instance.alike_render t policy delta, render_ends t policy delta⟩

/-- What comes of something for an instance if only those that run take part. -/
def Instance.take (run : Instance → Outcome) (i : Instance) : Outcome :=
  if i.stage = .running then run i else (.ok (), i)

section Resident

variable {loads : List String} {name : String} {i i' : Instance} {run : Instance → Outcome} {v : View}

theorem Resident.package_eq (h : Resident loads name i) : i.services.package = name := h.own.package.trans h.name_eq

theorem Resident.emptied (h : Resident loads name i) : Resident loads name i.emptied where
  name_eq := h.name_eq
  own := h.own.emptied
  load := h.load
  holds := h.holds

/-- The same load, later. -/
theorem Resident.later (h : Resident loads name i) (hsource : i'.source = i.source) (hholds : Holds i')
    (halike : i'.Alike ⟨i.name, fun _ => i.services.generation⟩ i') : Resident loads name i' := by
  obtain ⟨hown, hgeneration⟩ := own_of_alike hsource halike
  exact ⟨(congrArg Source.name hsource).trans h.name_eq, hown, hgeneration ▸ h.load, hholds⟩

theorem Outcome.Alike.after {o o' : Outcome} (h : Outcome.Alike v o o') : o.2.Alike v o'.2 := by
  obtain ⟨result, h⟩ := h
  exact h

theorem Outcome.Alike.result {o o' : Outcome} (h : Outcome.Alike v o o') : o'.1 = o.1 := by
  cases h
  rfl

theorem Apart.take (hrun : Apart run) (h : i.Alike v i') : Outcome.Alike v (i.take run) (i'.take run) := by
  have hstage : i'.stage = i.stage := by rw [h.seen]; rfl
  unfold Instance.take
  rw [hstage]
  split
  · exact hrun.alike v h
  · exact .intro _ h

theorem Resident.take (h : Resident loads name i) (hrun : Apart run) : Resident loads name (i.take run).2 := by
  have halike := (hrun.take h.own).after
  by_cases hrunning : i.stage = .running
  · have hends : Ends i (i.take run) := by
      unfold Instance.take
      rw [if_pos hrunning]
      exact hrun.ends (h.holds.runs hrunning)
    exact h.later hends.source (holds_of_ends hends hrunning (h.holds.of_stage hrunning).2) halike
  · unfold Instance.take
    rwa [if_neg hrunning]

theorem Resident.failure (h : Resident loads name i) (hrun : Apart run) {e : Failure} (he : (i.take run).1 = .error e) :
    e.package? = some name := by
  unfold Instance.take at he
  split at he
  · next hrunning =>
    rw [← h.name_eq]
    exact (hrun.ends (h.holds.runs hrunning)).failure he
  · cases he

theorem Resident.receive (h : Resident loads name i) (c : Host.Completion) : Resident loads name (i.receive c) :=
  h.later rfl (holds_receive h.holds c)
    (h.own.services fun _ _ hshows => hshows.map (f := fun s => { s with mailbox := _ }) (fun _ => rfl) fun _ => rfl)

theorem Resident.effects_unload {other : String} (h : Resident loads name i) (hother : other ≠ name) (t : Terms)
    (policy : Policy) : effectsOf other (i.unload (t.setting policy)).services.outbox = [] := by
  have hsource : (i.unload (t.setting policy)).source = i.source := by
    unfold Instance.unload
    split
    · rfl
    · obtain ⟨services, heq⟩ := release_eq (t.setting policy) { i with services := i.services.shutdown }
      simp only [heq]
      rfl
  have hown := (own_of_alike hsource (Instance.alike_unload t policy h.own)).1
  refine hown.effects ?_
  rwa [Instance.name, hsource, ← Instance.name, h.name_eq]

/-- A load that was started is found under its name from then on. -/
theorem resident_start (t : Terms) (policy : Policy) {generation : Nat} {source : Source}
    (hload : loads[generation]? = some source.name) :
    Resident loads source.name ((Instance.new t policy generation source).start t policy).2 := by
  obtain ⟨hown, hgeneration⟩ := own_new t policy generation source
  have hnew : Resident loads source.name (Instance.new t policy generation source) :=
    ⟨rfl, hown, by rwa [hgeneration], holds_new generation source⟩
  have hstarts := start_starts t policy (i := .new t policy generation source) rfl
  exact hnew.later hstarts.source (holds_of_starts hnew.holds rfl hstarts)
    (Instance.alike_start t policy hown).after

end Resident

end Package

end ScriptWarden
