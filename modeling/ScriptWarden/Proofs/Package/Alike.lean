import ScriptWarden.Package.Instance
import ScriptWarden.Proofs.Script.Alike
set_option autoImplicit false

/-!
# Packages: looking at one package

Whatever the host does with an instance, from its creation (`alike_new`) to its end (`alike_unload`), comes to the same
with what a view shows of it: neither the number of a load nor what was there for the world outside before has any part
in it.
-/

namespace ScriptWarden

open Api (Thing)
open Package (Instance Modules Outcome Source Terms)
open Trust (Policy)

/-- What a view shows of an instance. -/
def View.seen (v : View) (i : Instance) : Instance := { i with services := v.services i.services }

namespace Package

variable {v : View}

/-- Two instances that are the same but for what a view leaves out. -/
inductive Instance.Alike (v : View) : Instance → Instance → Prop
  | intro (source : Source) (stage : Stage) (heap : Option Lua.Heap) (lastError : Option String)
    {services services' : Api.Services} (h : v.Shows services services') :
    Instance.Alike v ⟨source, stage, heap, services, lastError⟩ ⟨source, stage, heap, services', lastError⟩

/-- The same came of something. -/
inductive Outcome.Alike (v : View) : Outcome → Outcome → Prop
  | intro (result : Except Failure Unit) {i i' : Instance} (h : i.Alike v i') : Outcome.Alike v (result, i) (result, i')

/-- If something went well, something else is done. -/
def Outcome.andThen (o : Outcome) (next : Instance → Outcome) : Outcome :=
  match o with
  | (.error e, i) => (.error e, i)
  | (.ok (), i) => next i

theorem Outcome.Alike.andThen {o o' : Outcome} (h : Outcome.Alike v o o') {next : Instance → Outcome}
    (hnext : ∀ i i', i.Alike v i' → Outcome.Alike v (next i) (next i')) :
    Outcome.Alike v (o.andThen next) (o'.andThen next) := by
  obtain ⟨result, hafter⟩ := h
  cases result with
  | error e => exact .intro _ hafter
  | ok _ => exact hnext _ _ hafter

namespace Instance

variable {i i' : Instance}

theorem alike_seen (h : i.services.package = v.package) : i.Alike v (v.seen i) :=
  .intro i.source i.stage i.heap i.lastError (View.shows_services h)

theorem Alike.seen (h : i.Alike v i') : i' = v.seen i := by
  obtain ⟨source, stage, heap, lastError, hshows⟩ := h
  rw [hshows.seen]
  rfl

theorem Alike.package (h : i.Alike v i') : i.services.package = v.package := by
  obtain ⟨source, stage, heap, lastError, hshows⟩ := h
  exact hshows.package_eq

/-! ## Failing -/

theorem Alike.note (h : i.Alike v i') (line : String → Diagnostic) (text : String) :
    (i.note line text).Alike v (i'.note line text) := by
  obtain ⟨source, stage, heap, lastError, hshows⟩ := h
  exact .intro _ _ _ _ (hshows.note _)

theorem Alike.fail (h : i.Alike v i') (reason : String) : (i.fail reason).Alike v (i'.fail reason) := by
  obtain ⟨source, stage, heap, lastError, hshows⟩ := h
  exact .intro _ _ _ _ (View.shows_shutdown hshows)

theorem Alike.name_eq (h : i.Alike v i') : i'.name = i.name := by
  cases h
  rfl

/-! ## Memory -/

theorem alike_handOver {w w' : Script.Vm Thing} (hw : w.Alike v.Shows w') :
    (handOver w').1 = (handOver w).1 ∧ v.Shows (handOver w).2 (handOver w').2 := by
  obtain ⟨heap, meter, hshows⟩ := hw
  unfold handOver
  simp only
  split
  · exact ⟨rfl, hshows⟩
  · exact ⟨rfl, hshows.emit rfl⟩

theorem shows_heed {services services' : Api.Services} (hshows : v.Shows services services')
    (result : Except Script.Error Unit) : v.Shows (heed result services) (heed result services') := by
  unfold heed
  split
  · exact hshows.giveUp
  · exact hshows

theorem Alike.heed (h : i.Alike v i') (e : Script.Error) : Instance.Alike v
    { i with services := Instance.heed (.error e) i.services }
    { i' with services := Instance.heed (.error e) i'.services } := by
  obtain ⟨source, stage, heap, lastError, hshows⟩ := h
  exact .intro _ _ _ _ (shows_heed hshows _)

theorem alike_release {s : Script.Setting Thing} (hs : s.registry.Respects v) (h : i.Alike v i') :
    (i.release s).Alike v (i'.release s) := by
  obtain @⟨source, stage, heap, lastError, services, services', hshows⟩ := h
  cases heap with
  | none => exact .intro _ _ _ _ hshows
  | some heap =>
    have hreleased := Script.respects_release hs _ _ (.intro heap none hshows)
    unfold release
    simp only
    generalize Script.release s ⟨heap, services, none⟩ = r, Script.release s ⟨heap, services', none⟩ = r' at hreleased ⊢
    obtain ⟨result, hafter⟩ := hreleased
    exact .intro _ _ _ _ (shows_heed (alike_handOver hafter).2 result)

theorem alike_failSetup {s : Script.Setting Thing} (hs : s.registry.Respects v) (h : i.Alike v i')
    (e : Script.Error) : Outcome.Alike v (i.failSetup s e) (i'.failSetup s e) := by
  have hname : i'.name = i.name := h.name_eq
  obtain ⟨source, stage, heap, lastError, hshows⟩ := h
  exact .intro _ ((alike_release hs ((Alike.note (.intro source stage heap lastError hshows) _ _).fail _)).heed e)

theorem alike_fault {s : Script.Setting Thing} (hs : s.registry.Respects v) (h : i.Alike v i') (e : Script.Error) :
    Outcome.Alike v (i.fault s e) (i'.fault s e) := by
  obtain ⟨source, stage, heap, lastError, hshows⟩ := h
  have hlogged := (hshows.note (.error ("[sandbox][" ++ source.name ++ "] " ++ ("faulted: " ++ e.message)))).pushLog
    "error" e.message
  exact .intro _ (((alike_release hs (.intro source stage heap lastError hlogged)).heed e).fail _)

theorem alike_during {stage : Stage} {action : String} {run : Instance → Outcome} (h : i.Alike v i')
    (hrun : Outcome.Alike v (run i) (run i')) :
    Outcome.Alike v (i.during stage action run) (i'.during stage action run) := by
  unfold during
  rw [h.name_eq]
  obtain ⟨source, given, heap, lastError, hshows⟩ := h
  simp only
  split
  · exact hrun
  · exact .intro _ (.intro _ _ _ _ hshows)

/-! ## Scripts -/

theorem alike_runScripts {α : Type} {s : Script.Setting Thing} (hs : s.registry.Respects v)
    {run : Script.Vm Thing → Script.Result Thing α} (hrun : Script.Respects v run) (h : i.Alike v i') :
    Outcome.Alike v (i.runScripts s run) (i'.runScripts s run) := by
  obtain @⟨source, stage, heap, lastError, services, services', hshows⟩ := h
  cases heap with
  | none => exact .intro _ (.intro _ _ _ _ hshows)
  | some heap =>
    have hran := hrun _ _ (.intro heap none hshows)
    unfold runScripts
    simp only
    generalize run ⟨heap, services, none⟩ = r, run ⟨heap, services', none⟩ = r' at hran ⊢
    obtain @⟨x, w, w', hafter⟩ := hran
    obtain ⟨hheap, hservices⟩ := alike_handOver hafter
    simp only
    rw [hheap]
    have hleft := Alike.intro source stage (some (handOver w).1) lastError hservices
    cases x with
    | ok a => exact .intro _ hleft
    | error e => exact alike_fault hs hleft e

section Host

variable (t : Terms) (policy : Policy)

theorem respects_setting : (t.setting policy).registry.Respects v := Api.surface_respects v

/-- A budget is asked for, then scripts run. -/
theorem alike_consulted {α : Type} (c : Trust.Capability)
    {run : Trust.Effective → Script.Vm Thing → Script.Result Thing α}
    (hrun : ∀ budget, Script.Respects v (run budget)) (h : i.Alike v i') :
    Outcome.Alike v
      (runScripts (t.setting policy) { i with services := (i.services.trustValue policy c).2 }
        (run (i.services.trustValue policy c).1))
      (runScripts (t.setting policy) { i' with services := (i'.services.trustValue policy c).2 }
        (run (i'.services.trustValue policy c).1)) := by
  obtain ⟨source, stage, heap, lastError, hshows⟩ := h
  obtain ⟨hsame, hafter⟩ := View.shows_trustValue hshows policy c
  simp only
  rw [hsame]
  exact alike_runScripts (respects_setting t policy) (hrun _) (.intro source stage heap lastError hafter)

/-! ## Starting -/

theorem alike_setUp (modules : Modules) {services services' : Api.Services} (hshows : v.Shows services services') :
    Script.Alike v (setUp (t.setting policy) t modules services) (setUp (t.setting policy) t modules services') := by
  have hboot := Script.alike_boot (respects_setting t policy) t.sandbox t.memory hshows
  unfold setUp
  generalize Script.boot (t.setting policy) t.sandbox t.memory services = r,
    Script.boot (t.setting policy) t.sandbox t.memory services' = r' at hboot ⊢
  obtain @⟨x, w, w', hafter⟩ := hboot
  cases x with
  | error e => exact .intro _ hafter
  | ok _ =>
    have hinstall := Script.respects_install w w' hafter
    simp only
    generalize Script.install w = r, Script.install w' = r' at hinstall ⊢
    obtain ⟨x, hafter⟩ := hinstall
    cases x with
    | error e => exact .intro _ hafter
    | ok _ =>
      obtain ⟨heap, meter, hshows⟩ := hafter
      exact .intro _ (.intro _ meter (hshows.map (f := fun s => { s with modules }) (fun _ => rfl) fun _ => rfl))

theorem alike_enter (entry : String) (h : i.Alike v i') :
    Outcome.Alike v (i.enter t policy entry) (i'.enter t policy entry) := by
  have hprincipal : i'.source.principal = i.source.principal := by cases h; rfl
  unfold enter
  rw [hprincipal]
  have hrun : ∀ budget, Script.Respects v (Script.limited .init budget (Script.startModule (t.setting policy) entry)) :=
    fun _ => Script.respects_limited _ _ (Script.respects_startModule (respects_setting t policy) entry)
  exact alike_consulted t policy Phase.init.capability hrun (h.note _ _)

theorem alike_start (h : i.Alike v i') : Outcome.Alike v (i.start t policy) (i'.start t policy) := by
  refine alike_during h ?_
  obtain @⟨source, stage, heap, lastError, services, services', hshows⟩ := h
  simp only
  split
  · next e _ =>
    obtain ⟨source, stage, heap, lastError, hnoted⟩ :=
      (Alike.intro source stage heap lastError hshows).note .error e.message
    exact .intro _ (.intro _ _ _ _ hnoted)
  · next entry _ =>
    have hsetUp := alike_setUp t policy source.modules hshows
    generalize setUp (t.setting policy) t source.modules services = r,
      setUp (t.setting policy) t source.modules services' = r' at hsetUp ⊢
    obtain ⟨x, hafter⟩ := hsetUp
    obtain ⟨hheap, hservices⟩ := alike_handOver hafter
    simp only
    rw [hheap]
    cases x with
    | error e => exact alike_failSetup (respects_setting t policy) (.intro _ _ _ _ hservices) e
    | ok _ => exact alike_enter t policy entry (.intro _ _ _ _ hservices)

/-! ## Events -/

theorem alike_dispatch (e : Event) (h : i.Alike v i') :
    Outcome.Alike v (i.dispatch t policy e) (i'.dispatch t policy e) := by
  have hrun : ∀ budget, Script.Respects v
      (Script.limited e.phase budget (Script.fire (t.setting policy) e.name (Script.eventArguments e))) :=
    fun _ => Script.respects_limited _ _ (Script.respects_fire (respects_setting t policy) _ _)
  exact alike_during h (alike_consulted t policy e.phase.capability hrun h)

/-- Something that is not about what a view leaves out happens to the services. -/
theorem Alike.services (h : i.Alike v i') {f : Api.Services → Api.Services}
    (hf : ∀ s s', v.Shows s s' → v.Shows (f s) (f s')) :
    Instance.Alike v { i with services := f i.services } { i' with services := f i'.services } := by
  obtain ⟨source, stage, heap, lastError, hshows⟩ := h
  exact .intro _ _ _ _ (hf _ _ hshows)

theorem Alike.mailbox_eq (h : i.Alike v i') : i'.services.mailbox = i.services.mailbox := by
  rw [h.seen]
  rfl

theorem alike_dispatchWaiting (n : Nat) (h : i.Alike v i') :
    Outcome.Alike v (dispatchWaiting t policy n i) (dispatchWaiting t policy n i') := by
  induction n generalizing i i' with
  | zero => exact .intro _ h
  | succ n ih =>
    unfold dispatchWaiting
    rw [h.mailbox_eq]
    split
    · exact .intro _ h
    · next c mailbox _ =>
      have htaken := h.services (f := fun s => { s with mailbox }) fun _ _ hshows =>
        hshows.map (f := fun s => { s with mailbox }) (fun _ => rfl) fun _ => rfl
      exact (alike_dispatch t policy (.networkResponse c.request c.status c.body) htaken).andThen fun _ _ => ih

theorem alike_tick (h : i.Alike v i') : Outcome.Alike v (i.tick t policy) (i'.tick t policy) := by
  refine alike_during h ?_
  have hclock := h.services (f := (·.tickQuotas policy)) fun _ _ hshows => View.shows_tickQuotas hshows policy
  have hmost : ∀ {i i' : Instance}, i.Alike v i' → i'.mostAnswers = i.mostAnswers := by
    intro i i' h
    rw [h.seen]
    rfl
  simp only
  rw [hmost hclock]
  exact (alike_dispatchWaiting t policy _ hclock).andThen fun _ _ => alike_dispatch t policy .tick

theorem alike_render (delta : Float) (h : i.Alike v i') :
    Outcome.Alike v (i.render t policy delta) (i'.render t policy delta) := by
  refine alike_during h ?_
  refine (alike_dispatch t policy (.render delta) h).andThen fun _ _ hafter => ?_
  exact .intro _ (hafter.services fun _ _ => View.shows_uploadDirty)

end Host

/-! ## The end -/

theorem alike_ended (h : i.Alike v i') :
    Alike v { i with stage := .unloaded, services := { i.services with mailbox := i.services.mailbox.drain.2 } }
      { i' with stage := .unloaded, services := { i'.services with mailbox := i'.services.mailbox.drain.2 } } := by
  obtain ⟨source, stage, heap, lastError, hshows⟩ := h
  refine .intro _ _ _ _ ?_
  exact hshows.map (f := fun s => { s with mailbox := s.mailbox.drain.2 }) (fun _ => rfl) fun _ => rfl

theorem alike_unload (t : Terms) (policy : Policy) (h : i.Alike v i') :
    (i.unload (t.setting policy)).Alike v (i'.unload (t.setting policy)) := by
  obtain ⟨source, stage, heap, lastError, hshows⟩ := h
  have hreleased := alike_release (respects_setting t policy)
    (.intro source stage heap lastError (View.shows_shutdown hshows))
  unfold unload
  simp only
  split
  · exact .intro _ _ _ _ hshows
  · exact Alike.note (alike_ended hreleased) _ _

/-! ## The beginning -/

/-- A new load is seen as a load of another number. -/
theorem alike_new (t : Terms) (policy : Policy) (generation : Nat) {source : Source} (hname : source.name = v.package) :
    (Instance.new t policy generation source).Alike v (Instance.new t policy (v.number generation) source) := by
  refine .intro _ _ _ _ ?_
  unfold Services.new
  simp only
  refine View.shows_foldl (View.shows_services hname) _ fun hshows c => ?_
  split
  · exact (View.shows_trustValue hshows policy c).2
  · exact hshows

end Instance

end Package

end ScriptWarden
