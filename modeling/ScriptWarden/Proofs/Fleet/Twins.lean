import ScriptWarden.Proofs.Fleet.Turn
set_option autoImplicit false

/-!
# The fleet: among others, and alone

Two fleets are twins if one of them is what is left of the other when all packages but one are taken away, and loads of
others are not counted.  Whatever happens to that one package happens to both, and whatever happens to another package
happens to neither: what is done with a package keeps twins, if it is done with both (`…_own`), and what is done with
another one keeps them, if it is done with the one where that is (`…_other`).
-/

namespace ScriptWarden

open Package (Apart Effect Instance Outcome Resident Source Terms effectsOf)
open Trust (Policy)

/-- A package as it is seen if only its own loads count, among the loads of a fleet. -/
def View.apart (package : String) (loads : List String) : View where
  package
  number generation := (loads.take generation).count package

namespace Fleet

/-! ## Fleets that are seen alike -/

/-- A fleet, and one in which the package of a view is alone. -/
structure Twins (v : View) (loads : List String) (full own : Fleet) : Prop where
  terms_eq : own.terms = full.terms
  policy_eq : own.policy = full.policy
  loads_eq : own.loads = v.number full.loads
  lookup : ∀ name : String,
    own.packages[name]? = if name = v.package then full.packages[name]?.map v.seen else none
  housed : Housed loads full
  effects_eq : effectsOf v.package own.outbox = (effectsOf v.package full.outbox).map v.effect
  alone : ∀ name : String, name ≠ v.package → effectsOf name own.outbox = []

section Twins

variable {v : View} {loads : List String} {full full' own : Fleet} {i i' : Instance} {name : String}

namespace Twins

theorem found (h : Twins v loads full own) (hfound : full.packages[v.package]? = some i) :
    own.packages[v.package]? = some (v.seen i) := by
  rw [h.lookup, if_pos rfl, hfound]
  rfl

theorem absent (h : Twins v loads full own) (habsent : full.packages[v.package]? = none) :
    own.packages[v.package]? = none := by
  rw [h.lookup, if_pos rfl, habsent]
  rfl

/-- Nothing is different for somebody who looks at a package to which nothing happens. -/
theorem still (h : Twins v loads full own) (hstill : Still v.package full full') (hterms : full'.terms = full.terms)
    (hpolicy : full'.policy = full.policy) (hloads : v.number full'.loads = v.number full.loads)
    (hhoused : Housed loads full') : Twins v loads full' own where
  terms_eq := h.terms_eq.trans hterms.symm
  policy_eq := h.policy_eq.trans hpolicy.symm
  loads_eq := h.loads_eq.trans hloads.symm
  lookup name := by
    rw [h.lookup]
    by_cases hname : name = v.package
    · rw [if_pos hname, if_pos hname, hname, hstill.found_eq]
    · rw [if_neg hname, if_neg hname]
  housed := hhoused
  effects_eq := by rw [h.effects_eq, hstill.effects_eq]
  alone := h.alone

theorem put_other (h : Twins v loads full own) (hi : Resident loads name i) (hname : name ≠ v.package) :
    Twins v loads (full.put i) own :=
  h.still (still_put hi hname) rfl rfl rfl (h.housed.put hi)

/-- The package itself is put among the packages of both. -/
theorem put_own (h : Twins v loads full own) (hi : Resident loads v.package i) (halike : i.Alike v i') :
    Twins v loads (full.put i) (own.put i') where
  terms_eq := h.terms_eq
  policy_eq := h.policy_eq
  loads_eq := h.loads_eq
  lookup other := by
    have hname : i'.name = v.package := halike.name_eq.trans hi.name_eq
    rw [lookup_put, lookup_put, hname, hi.name_eq]
    by_cases hother : other = v.package
    · subst hother
      rw [if_pos rfl, if_pos rfl, if_pos rfl, halike.emptied.seen]
      rfl
    · rw [if_neg (Ne.symm hother), h.lookup, if_neg hother, if_neg hother]
  housed := h.housed.put hi
  effects_eq := by
    rw [outbox_put, outbox_put, Package.effectsOf_append, Package.effectsOf_append, List.map_append, halike.effects,
      h.effects_eq]
  alone name hname := by
    rw [outbox_put, Package.effectsOf_append, halike.alone hname, h.alone name hname]
    rfl

/-- Whatever becomes of the outboxes, as long as what is seen of them is the same. -/
theorem outbox (h : Twins v loads full own) {outbox outbox' : List Effect}
    (heffects : effectsOf v.package outbox' = (effectsOf v.package outbox).map v.effect)
    (halone : ∀ name : String, name ≠ v.package → effectsOf name outbox' = []) :
    Twins v loads { full with outbox } { own with outbox := outbox' } where
  terms_eq := h.terms_eq
  policy_eq := h.policy_eq
  loads_eq := h.loads_eq
  lookup := h.lookup
  housed := h.housed
  effects_eq := heffects
  alone := halone

/-- The same edit of the trust. -/
theorem govern (h : Twins v loads full own) (policy : Policy) :
    Twins v loads { full with policy } { own with policy } where
  terms_eq := h.terms_eq
  policy_eq := rfl
  loads_eq := h.loads_eq
  lookup := h.lookup
  housed := h.housed
  effects_eq := h.effects_eq
  alone := h.alone

/-- Lines for the operator are about no package. -/
theorem note_left (h : Twins v loads full own) (d : Diagnostic) : Twins v loads (full.note d) own :=
  h.outbox h.effects_eq h.alone

theorem note_right (h : Twins v loads full own) (d : Diagnostic) : Twins v loads full (own.note d) :=
  h.outbox h.effects_eq h.alone

end Twins

/-! ## Loads -/

theorem unload_of_absent (habsent : full.packages[name]? = none) :
    full.unload name = (.error (.unknownPackage name), full) := by
  rw [Fleet.unload, take_of_absent habsent]

theorem unload_of_found (hfound : full.packages[name]? = some i) : full.unload name =
    (.ok (), { full with
      packages := full.packages.erase name
      outbox := (i.unload (full.terms.setting full.policy)).services.outbox ++ full.outbox }) := by
  rw [Fleet.unload, take_of_found hfound]
  exact congrArg (fun outbox => (Except.ok (), { full with packages := full.packages.erase name, outbox }))
    (congrArg (· ++ full.outbox) (List.reverse_reverse (i.unload (full.terms.setting full.policy)).services.outbox))

namespace Twins

theorem unload_other (h : Twins v loads full own) (hname : name ≠ v.package) :
    Twins v loads (full.unload name).2 own := by
  cases hfound : full.packages[name]? with
  | none =>
    rw [unload_of_absent hfound]
    exact h
  | some i =>
    rw [unload_of_found hfound]
    exact h.still (still_erase hname ((h.housed name i hfound).effects_unload hname.symm _ _)) rfl rfl rfl
      (h.housed.erase name)

theorem unload_own (h : Twins v loads full own) :
    (own.unload v.package).1 = (full.unload v.package).1 ∧
      Twins v loads (full.unload v.package).2 (own.unload v.package).2 := by
  cases hfound : full.packages[v.package]? with
  | none =>
    rw [unload_of_absent hfound, unload_of_absent (h.absent hfound)]
    exact ⟨rfl, h⟩
  | some i =>
    have hi := h.housed v.package i hfound
    rw [unload_of_found hfound, unload_of_found (h.found hfound)]
    exact ⟨rfl, {
      terms_eq := h.terms_eq
      policy_eq := h.policy_eq
      loads_eq := h.loads_eq
      lookup := fun other => by
        rw [lookup_erase, lookup_erase, h.lookup]
        by_cases hother : other = v.package
        · subst hother
          rw [if_pos rfl, if_pos rfl, if_pos rfl]
          rfl
        · rw [if_neg (Ne.symm hother), if_neg hother, if_neg hother]
      housed := h.housed.erase v.package
      effects_eq := by
        rw [Package.effectsOf_append, Package.effectsOf_append, List.map_append, h.effects_eq, h.terms_eq, h.policy_eq,
          (Instance.alike_unload full.terms full.policy (Instance.alike_seen hi.package_eq)).effects]
      alone := fun other hother => by
        have halike := Instance.alike_unload full.terms full.policy (Instance.alike_seen (v := v) hi.package_eq)
        rw [h.terms_eq, h.policy_eq, Package.effectsOf_append, halike.alone hother, h.alone other hother]
        rfl }⟩

end Twins

/-- A fleet in which there is room for a package. -/
def cleared (f : Fleet) (name : String) : Fleet :=
  if f.packages.contains name then ((f.note (.info ("[engine] reloading '" ++ name ++ "'"))).unload name).2 else f

theorem loads_cleared (f : Fleet) (name : String) : (f.cleared name).loads = f.loads := by
  unfold cleared
  split
  · exact loads_unload _ name
  · rfl

/-- Loading a package: the next load starts once there is room for it. -/
theorem load_eq (f : Fleet) (source : Source) : f.load source =
    let room := f.cleared source.name
    let out := (Instance.new room.terms room.policy room.loads source).start room.terms room.policy
    (out.1, { room with loads := room.loads + 1 }.put out.2) := rfl

theorem number_apart (package : String) {generation : Nat} (hload : loads[generation]? = some name) :
    (View.apart package loads).number (generation + 1) =
      (View.apart package loads).number generation + if name = package then 1 else 0 := by
  unfold View.apart
  simp only
  rw [List.take_add_one, hload, List.count_append]
  simp [List.count_singleton]

namespace Twins

theorem cleared_other (h : Twins v loads full own) (hname : name ≠ v.package) :
    Twins v loads (full.cleared name) own := by
  unfold cleared
  split
  · exact (h.note_left _).unload_other hname
  · exact h

theorem cleared_own (h : Twins v loads full own) :
    Twins v loads (full.cleared v.package) (own.cleared v.package) := by
  have hthere : own.packages.contains v.package = full.packages.contains v.package := by
    rw [Std.ExtTreeMap.contains_eq_isSome_getElem?, Std.ExtTreeMap.contains_eq_isSome_getElem?, h.lookup, if_pos rfl,
      Option.isSome_map]
  unfold cleared
  rw [hthere]
  split
  · exact ((h.note_left _).note_right _).unload_own.2
  · exact h

/-- A load that is counted in both. -/
theorem counted (h : Twins v loads full own) (hnext : v.number (full.loads + 1) = v.number full.loads + 1) :
    Twins v loads { full with loads := full.loads + 1 } { own with loads := own.loads + 1 } where
  terms_eq := h.terms_eq
  policy_eq := h.policy_eq
  loads_eq := by rw [h.loads_eq, hnext]
  lookup := h.lookup
  housed := h.housed
  effects_eq := h.effects_eq
  alone := h.alone

theorem load_other (h : Twins v loads full own) (hv : v = .apart v.package loads) {source : Source}
    (hload : loads[full.loads]? = some source.name) (hname : source.name ≠ v.package) :
    Twins v loads (full.load source).2 own := by
  have hroom := h.cleared_other hname
  have hnext : loads[(full.cleared source.name).loads]? = some source.name := by rwa [loads_cleared]
  have hcount : v.number ((full.cleared source.name).loads + 1) = v.number (full.cleared source.name).loads := by
    rw [hv, number_apart _ hnext, if_neg hname, Nat.add_zero]
  rw [load_eq]
  have hcounted : Twins v loads { full.cleared source.name with loads := (full.cleared source.name).loads + 1 } own :=
    hroom.still ⟨rfl, rfl⟩ rfl rfl hcount hroom.housed
  exact hcounted.put_other (Package.resident_start _ _ hnext) hname

theorem load_own (h : Twins v loads full own) (hv : v = .apart v.package loads) {source : Source}
    (hload : loads[full.loads]? = some source.name) (hname : source.name = v.package) :
    (own.load source).1 = (full.load source).1 ∧ Twins v loads (full.load source).2 (own.load source).2 := by
  have hroom := h.cleared_own
  rw [← hname] at hroom
  have hnext : loads[(full.cleared source.name).loads]? = some source.name := by rwa [loads_cleared]
  have hcount : v.number ((full.cleared source.name).loads + 1) = v.number (full.cleared source.name).loads + 1 := by
    rw [hv, number_apart _ hnext, if_pos hname]
  have hcounted := hroom.counted hcount
  rw [load_eq, load_eq]
  generalize full.cleared source.name = room, own.cleared source.name = room' at hroom hnext hcounted
  have halike : Outcome.Alike v ((Instance.new room.terms room.policy room.loads source).start room.terms room.policy)
      ((Instance.new room'.terms room'.policy room'.loads source).start room'.terms room'.policy) := by
    rw [hroom.terms_eq, hroom.policy_eq, hroom.loads_eq]
    exact Instance.alike_start _ _ (Instance.alike_new _ _ _ hname)
  have hresident := Package.resident_start room.terms room.policy hnext
  exact ⟨halike.result, hcounted.put_own (hname ▸ hresident) halike.after⟩

end Twins

/-! ## Ticks and frames -/

/-- The operator is told of failures. -/
def told (f : Fleet) (failures : List Failure) : Fleet :=
  failures.foldl (fun f e => f.note (.warn ("[engine] " ++ e.message))) f

theorem round_eq (f : Fleet) : f.round = (f.tick.2.render 0).2.told (f.tick.1 ++ (f.tick.2.render 0).1) := rfl

section OnEach

variable {run : Instance → Outcome}

namespace Twins

/-- A package that is not looked at takes part in a tick or a frame. -/
theorem onRunning_other (h : Twins v loads full own) (hrun : Apart run) (hname : name ≠ v.package)
    (failures : List Failure) :
    failuresOf v.package (onRunning run name (failures, full)).1 = failuresOf v.package failures ∧
      Twins v loads (onRunning run name (failures, full)).2 own := by
  obtain ⟨hfailures, hstill⟩ := Fleet.onRunning_other h.housed hrun hname failures
  obtain ⟨hterms, hpolicy, hloads⟩ := onRunning_rules run name (failures, full)
  exact ⟨hfailures,
    h.still hstill hterms hpolicy (congrArg v.number hloads) (h.housed.onRunning hrun name failures)⟩

/-- The package that is looked at takes part in both fleets. -/
theorem onRunning_own (h : Twins v loads full own) (hrun : Apart run) (failures : List Failure) :
    (onRunning run v.package (failuresOf v.package failures, own)).1 =
        failuresOf v.package (onRunning run v.package (failures, full)).1 ∧
      Twins v loads (onRunning run v.package (failures, full)).2
        (onRunning run v.package (failuresOf v.package failures, own)).2 := by
  cases hfound : full.packages[v.package]? with
  | none =>
    rw [onRunning_of_absent hfound, onRunning_of_absent (h.absent hfound)]
    exact ⟨rfl, h⟩
  | some i =>
    have hi := h.housed v.package i hfound
    have hafter := hi.take hrun
    have halike := hrun.take (Instance.alike_seen hi.package_eq)
    rw [onRunning_of_found hfound hafter.name_eq,
      onRunning_of_found (h.found hfound) (halike.after.name_eq.trans hafter.name_eq), halike.result]
    refine ⟨?_, h.put_own hafter halike.after⟩
    cases hresult : (i.take run).1 with
    | ok _ => simp [failureOf]
    | error e => simp [failuresOf, failureOf, hi.failure hrun hresult]

/-- Packages take part one after another; in the fleet of one package, only it does. -/
theorem onRunning_each (h : Twins v loads full own) (hrun : Apart run) (failures : List Failure) (names : List String) :
    ((names.filter (· = v.package)).foldl (fun acc name => onRunning run name acc)
        (failuresOf v.package failures, own)).1 =
      failuresOf v.package (names.foldl (fun acc name => onRunning run name acc) (failures, full)).1 ∧
    Twins v loads (names.foldl (fun acc name => onRunning run name acc) (failures, full)).2
      ((names.filter (· = v.package)).foldl (fun acc name => onRunning run name acc)
        (failuresOf v.package failures, own)).2 := by
  induction names generalizing failures full own with
  | nil => exact ⟨rfl, h⟩
  | cons name rest ih =>
    rw [List.foldl_cons]
    by_cases hname : name = v.package
    · subst hname
      obtain ⟨hfailures, hafter⟩ := h.onRunning_own hrun failures
      have hrest := ih hafter (onRunning run v.package (failures, full)).1
      rw [← hfailures] at hrest
      simpa using hrest
    · obtain ⟨hfailures, hafter⟩ := h.onRunning_other hrun hname failures
      have hrest := ih hafter (onRunning run name (failures, full)).1
      rw [hfailures] at hrest
      simpa [hname] using hrest

theorem keys_eq (h : Twins v loads full own) : own.packages.keys = full.packages.keys.filter (· = v.package) := by
  have hpackages : own.packages = (full.packages.filter fun name _ => name = v.package).map fun _ => v.seen := by
    refine Std.ExtTreeMap.ext_getElem? fun name => ?_
    rw [h.lookup, Std.ExtTreeMap.getElem?_map, Std.ExtTreeMap.getElem?_filter]
    by_cases hname : name = v.package
    · have hall : ∀ o : Option Instance, o.filter (fun _ => true) = o := fun o => by cases o <;> rfl
      simp [hname, hall]
    · simp [hname]
  rw [hpackages, Std.ExtTreeMap.keys_map, Std.ExtTreeMap.keys_filter_key]

/-- A tick or a frame passes. -/
theorem onEach (h : Twins v loads full own) {run : Terms → Policy → Instance → Outcome}
    (hrun : ∀ terms policy, Apart (run terms policy)) :
    (own.onEach run).1 = failuresOf v.package (full.onEach run).1 ∧
      Twins v loads (full.onEach run).2 (own.onEach run).2 := by
  unfold Fleet.onEach
  rw [h.terms_eq, h.policy_eq, h.keys_eq]
  exact h.onRunning_each (hrun full.terms full.policy) [] full.packages.keys

theorem tick (h : Twins v loads full own) : own.tick.1 = failuresOf v.package full.tick.1 ∧
    Twins v loads full.tick.2 own.tick.2 := h.onEach Package.apart_tick

theorem render (h : Twins v loads full own) (delta : Float) :
    (own.render delta).1 = failuresOf v.package (full.render delta).1 ∧
      Twins v loads (full.render delta).2 (own.render delta).2 :=
  h.onEach fun terms policy => Package.apart_render terms policy delta

/-- The operator hears of failures, and of no package. -/
theorem told (h : Twins v loads full own) (failures failures' : List Failure) :
    Twins v loads (full.told failures) (own.told failures') := by
  induction failures generalizing full with
  | nil =>
    induction failures' generalizing own with
    | nil => exact h
    | cons e rest ih => exact ih (h.note_right _)
  | cons e rest ih => exact ih (h.note_left _)

theorem round (h : Twins v loads full own) : Twins v loads full.round own.round :=
  (h.tick.2.render 0).2.told _ _

theorem unloadAll (h : Twins v loads full own) : Twins v loads full.unloadAll own.unloadAll := by
  unfold Fleet.unloadAll
  rw [h.keys_eq]
  generalize full.packages.keys = names
  induction names generalizing full own with
  | nil => exact h
  | cons name rest ih =>
    rw [List.foldl_cons]
    by_cases hname : name = v.package
    · subst hname
      simpa using ih h.unload_own.2
    · simpa [hname] using ih (h.unload_other hname)

end Twins

end OnEach

/-! ## Answers -/

theorem answer_of_absent {t : Host.Token} (habsent : full.packages[t.package]? = none) (status : Nat) (body : String) :
    full.answer t status body = (false, full) := by
  unfold Fleet.answer Fleet.sender?
  rw [habsent]

theorem answer_of_found {t : Host.Token} (hfound : full.packages[t.package]? = some i) (status : Nat) (body : String) :
    (full.answer t status body).2 =
      if i.services.generation = t.generation then full.put (i.receive ⟨t.request, status, body⟩) else full := by
  unfold Fleet.answer Fleet.sender?
  rw [hfound]
  simp only
  by_cases hgeneration : i.services.generation = t.generation
  · rw [if_pos hgeneration, if_pos hgeneration]
    rfl
  · rw [if_neg hgeneration, if_neg hgeneration]

/-- Loads of one package are told apart by how many of them there were before. -/
theorem number_inj {package : String} {g g' : Nat} (hg : loads[g]? = some package) (hg' : loads[g']? = some package)
    (heq : (View.apart package loads).number g = (View.apart package loads).number g') : g = g' := by
  have hmono : ∀ {a b : Nat}, a ≤ b → (View.apart package loads).number a ≤ (View.apart package loads).number b :=
    fun hle => ((List.take_prefix_take_left hle).sublist).count_le package
  have hlt : ∀ {a b : Nat}, loads[a]? = some package → a < b →
      (View.apart package loads).number a < (View.apart package loads).number b := by
    intro a b ha hab
    have hnext := number_apart package ha
    rw [if_pos rfl] at hnext
    have hle : (View.apart package loads).number (a + 1) ≤ _ := hmono hab
    omega
  rcases Nat.lt_trichotomy g g' with hless | hsame | hmore
  · have := hlt hg hless
    omega
  · exact hsame
  · have := hlt hg' hmore
    omega

namespace Twins

theorem answer_other (h : Twins v loads full own) {t : Host.Token}
    (ht : ¬(t.package = v.package ∧ loads[t.generation]? = some v.package)) (status : Nat) (body : String) :
    Twins v loads (full.answer t status body).2 own := by
  cases hfound : full.packages[t.package]? with
  | none =>
    rw [answer_of_absent hfound]
    exact h
  | some i =>
    have hi := h.housed _ i hfound
    rw [answer_of_found hfound]
    split
    · next hgeneration =>
      have hname : t.package ≠ v.package := fun hname => ht ⟨hname, by rw [← hname, ← hgeneration, hi.load]⟩
      exact h.put_other (hi.receive _) hname
    · exact h

theorem answer_own (h : Twins v loads full own) (hv : v = .apart v.package loads) {t : Host.Token}
    (ht : t.package = v.package) (hload : loads[t.generation]? = some v.package) (status : Nat) (body : String) :
    Twins v loads (full.answer t status body).2 (own.answer (v.token t) status body).2 := by
  cases hfound : full.packages[t.package]? with
  | none =>
    have habsent : own.packages[(v.token t).package]? = none := by
      rw [ht] at hfound
      change own.packages[t.package]? = none
      rw [ht]
      exact h.absent hfound
    rw [answer_of_absent hfound, answer_of_absent habsent]
    exact h
  | some i =>
    have hi := h.housed _ i hfound
    have hfound' : own.packages[(v.token t).package]? = some (v.seen i) := by
      rw [ht] at hfound
      change own.packages[t.package]? = _
      rw [ht]
      exact h.found hfound
    have hiff : (v.seen i).services.generation = (v.token t).generation ↔ i.services.generation = t.generation := by
      refine ⟨fun heq => ?_, fun heq => congrArg v.number heq⟩
      have hnumber : v.number i.services.generation = v.number t.generation := heq
      rw [hv] at hnumber
      exact number_inj (ht ▸ hi.load) hload hnumber
    rw [answer_of_found hfound, answer_of_found hfound']
    by_cases hgeneration : i.services.generation = t.generation
    · rw [if_pos hgeneration, if_pos (hiff.2 hgeneration)]
      refine h.put_own (ht ▸ hi.receive _) ?_
      exact Instance.alike_seen (i := i.receive _) (hi.package_eq.trans ht)
    · rw [if_neg hgeneration, if_neg (mt hiff.1 hgeneration)]
      exact h

end Twins

end Twins

end Fleet

end ScriptWarden
