import Mathlib.Logic.Relation
import ScriptWarden.Proofs.Api.Kinds
import ScriptWarden.Proofs.Package.Turn
set_option autoImplicit false

/-!
# Packages: what their scripts are at

The scripts of a package are between two runs, or in one.  How they come from one such state to the next is a
relation: the host starts a module, calls what was registered for an event, or changes its own state, and a run goes
on by one step of its machine.  `Does` says which module is started by that, if one is; `Moves` is what all of it does
to the memory.  Whatever is done with an instance, the memory that its scripts have then is reached that way from where
the package was set up (`lived_afterAll`).
-/

namespace ScriptWarden.Package

open Api (Thing)
open Lua (Heap Machine Thrown Value)
open Relation (ReflTransGen)
open Script (Vm)
open Trust (Policy)

/-! ## States -/

/-- What the scripts of a package are at.  Calls that an event asks for wait in `todo`. -/
inductive Activity where
  | idle (todo : List (Value × List Value)) (w : Vm Thing)
  | running (todo : List (Value × List Value)) (m : Machine Api.Services)

/-- The world that scripts see. -/
def Activity.world : Activity → Vm Thing
  | .idle _ w => w
  | .running _ m => m.world

@[simp] theorem Activity.world_idle (todo : List (Value × List Value)) (w : Vm Thing) :
    (Activity.idle todo w).world = w := rfl

@[simp] theorem Activity.world_running (todo : List (Value × List Value)) (m : Machine Api.Services) :
    (Activity.running todo m).world = m.world := rfl

/-- The calls that an event asks for. -/
def registered (w : Vm Thing) (name : String) (args : List Value) : List (Value × List Value) :=
  (w.host.callbacks[name]?.getD []).map fun f => (f, args)

/-- One thing that happens to the scripts of a package.  The trust in force may be another one at every step, and the
host may do anything between two runs that leaves the memory of the scripts and the registered functions alone. -/
inductive Moves (t : Terms) : Activity → Activity → Prop
  /-- The host begins to run a chunk. -/
  | load {todo : List (Value × List Value)} {w : Vm Thing} {name source : Lua.Bytes} {f : Value} {h : Heap}
    (hload : Lua.Library.loadSource name source none w.heap = (.ok f, h)) :
    Moves t (.idle todo w) (.running todo (.ofCall f [] ⟨h, w.host, w.meter⟩))
  /-- An event happens. -/
  | event {todo : List (Value × List Value)} {w : Vm Thing} (e : Event) :
    Moves t (.idle todo w) (.idle (registered w e.name (Script.eventArguments e)) w)
  /-- The host begins the next call. -/
  | call {todo : List (Value × List Value)} {w : Vm Thing} {f : Value} {args : List Value} :
    Moves t (.idle ((f, args) :: todo) w) (.running todo (.ofCall f args w))
  /-- A run goes on. -/
  | step {todo : List (Value × List Value)} {m : Machine Api.Services} (policy : Policy) :
    Moves t (.running todo m) (.running todo (m.step (t.setting policy).natives))
  /-- The host asks for the text of an error that nobody caught. -/
  | text {todo : List (Value × List Value)} {m : Machine Api.Services} {thrown : Thrown}
    (hraised : m.answer? = some (.raised thrown)) :
    Moves t (.running todo m) (.running todo (Script.textMachine thrown.value m.world))
  /-- The host begins to let the memory of the scripts go. -/
  | release {todo : List (Value × List Value)} {w : Vm Thing} :
    Moves t (.idle todo w) (.running todo (.ofClose t.collector w))
  /-- A run is over, or given up. -/
  | ended {todo : List (Value × List Value)} {m : Machine Api.Services} :
    Moves t (.running todo m) (.idle todo m.world)
  /-- The host does something else. -/
  | host {todo : List (Value × List Value)} {w w' : Vm Thing}
    (hheap : w'.heap = { w.heap with printed := w'.heap.printed })
    (hcallbacks : w'.host.callbacks = w.host.callbacks) : Moves t (.idle todo w) (.idle todo w')

/-- A machine that is about to start a module, as a script asked for. -/
def Requires (m : Machine Api.Services) (given : String) : Prop :=
  ∃ args w, m.control = .call (.host .require) args w ∧ Bridge.textOf? (args.headD .nil) = .ok given

/-- The world without a module that has not been started. -/
def taken (name : String) (w : Vm Thing) : Vm Thing := ⟨w.heap, (Bridge.takeModule name w.host).2, w.meter⟩

/-- What of the services scripts alone change. -/
def kept (s : Api.Services) := (s.callbacks, Api.held s)

/-- One thing that happens to the scripts of a package, and the module that is started by it, if one is.  A module that
is started is no longer there for another start, whether it runs or not. -/
inductive Does (t : Terms) : Option String → Activity → Activity → Prop
  /-- The host begins to run a module. -/
  | enter {todo : List (Value × List Value)} {w : Vm Thing} {given text : String} {f : Value} {h : Heap}
    (htext : w.host.modules[Bridge.moduleOf given]? = some text)
    (hload : Lua.Library.loadSource (Text.bytes (Bridge.moduleOf given)) (Text.bytes text) none w.heap = (.ok f, h)) :
    Does t (some (Bridge.moduleOf given)) (.idle todo w)
      (.running todo (.ofCall f [] ⟨h, (taken (Bridge.moduleOf given) w).host, w.meter⟩))
  /-- The host would run a module, but there is none, or it does not load. -/
  | refuse {todo : List (Value × List Value)} {w : Vm Thing} (given : String) :
    Does t (some (Bridge.moduleOf given)) (.idle todo w) (.idle todo (taken (Bridge.moduleOf given) w))
  /-- An event happens. -/
  | event {todo : List (Value × List Value)} {w : Vm Thing} (e : Event) :
    Does t none (.idle todo w) (.idle (registered w e.name (Script.eventArguments e)) w)
  /-- The host begins the next call. -/
  | call {todo : List (Value × List Value)} {w : Vm Thing} {f : Value} {args : List Value} :
    Does t none (.idle ((f, args) :: todo) w) (.running todo (.ofCall f args w))
  /-- A run goes on by the start of a module. -/
  | require {todo : List (Value × List Value)} {m : Machine Api.Services} {given : String} (policy : Policy)
    (hrequires : Requires m given) :
    Does t (some (Bridge.moduleOf given)) (.running todo m) (.running todo (m.step (t.setting policy).natives))
  /-- A run goes on. -/
  | step {todo : List (Value × List Value)} {m : Machine Api.Services} (policy : Policy)
    (hplain : ∀ given, ¬ Requires m given) :
    Does t none (.running todo m) (.running todo (m.step (t.setting policy).natives))
  /-- The host asks for the text of an error that nobody caught. -/
  | text {todo : List (Value × List Value)} {m : Machine Api.Services} {thrown : Thrown}
    (hraised : m.answer? = some (.raised thrown)) :
    Does t none (.running todo m) (.running todo (Script.textMachine thrown.value m.world))
  /-- The host begins to let the memory of the scripts go. -/
  | release {todo : List (Value × List Value)} {w : Vm Thing} :
    Does t none (.idle todo w) (.running todo (.ofClose t.collector w))
  /-- A run is over, or given up. -/
  | ended {todo : List (Value × List Value)} {m : Machine Api.Services} :
    Does t none (.running todo m) (.idle todo m.world)
  /-- The host does something else. -/
  | host {todo : List (Value × List Value)} {w w' : Vm Thing}
    (hheap : w'.heap = { w.heap with printed := w'.heap.printed }) (hkept : kept w'.host = kept w.host) :
    Does t none (.idle todo w) (.idle todo w')

/-- Something happens to the scripts of a package. -/
def Acts (t : Terms) (a b : Activity) : Prop := ∃ started, Does t started a b

/-- Between two runs the host leaves the functions of methods alone that scripts have asked for. -/
def Remembers : Activity → Activity → Prop
  | .idle _ w, .idle _ w' => w'.host.methods = w.host.methods
  | _, _ => True

/-- Something happens to the scripts of a package, and the host forgets no function of a method. -/
def Goes (t : Terms) (a b : Activity) : Prop := Acts t a b ∧ Remembers a b

variable {t : Terms} {policy : Policy} {todo : List (Value × List Value)}

theorem Does.acts {started : Option String} {a b : Activity} (h : Does t started a b) : Acts t a b := ⟨started, h⟩

theorem Does.goes {started : Option String} {a b : Activity} (h : Does t started a b) (hremembers : Remembers a b) :
    Goes t a b := ⟨h.acts, hremembers⟩

theorem acts_of_path {a b : Activity} (h : ReflTransGen (Goes t) a b) : ReflTransGen (Acts t) a b :=
  ReflTransGen.mono (fun _ _ (hgoes : Goes t _ _) => hgoes.1) a b h

theorem moves_of_acts {a b : Activity} (h : Acts t a b) : ReflTransGen (Moves t) a b := by
  obtain ⟨started, h⟩ := h
  cases h with
  | @enter todo w given text f h htext hload =>
    have htaken : Moves t (.idle todo w) (.idle todo (taken (Bridge.moduleOf given) w)) := .host rfl rfl
    exact .head htaken (.single (.load hload))
  | refuse => exact .single (.host rfl rfl)
  | event e => exact .single (.event e)
  | call => exact .single .call
  | require policy => exact .single (.step policy)
  | step policy => exact .single (.step policy)
  | text hraised => exact .single (.text hraised)
  | release => exact .single .release
  | ended => exact .single .ended
  | host hheap hkept => exact .single (.host hheap (congrArg Prod.fst hkept))

theorem moves_of_path {a b : Activity} (h : ReflTransGen (Acts t) a b) : ReflTransGen (Moves t) a b := by
  induction h with
  | refl => exact .refl
  | tail _ h ih => exact ih.trans (moves_of_acts h)

/-! ## Runs -/

theorem step_acts (policy : Policy) (m : Machine Api.Services) :
    Acts t (.running todo m) (.running todo (m.step (t.setting policy).natives)) := by
  by_cases hrequires : ∃ given, Requires m given
  · obtain ⟨given, hrequires⟩ := hrequires
    exact ⟨_, .require policy hrequires⟩
  · exact ⟨_, .step policy fun given h => hrequires ⟨given, h⟩⟩

theorem run_goes (steps : Nat) (m : Machine Api.Services) :
    ReflTransGen (Goes t) (.running todo m)
      (.running todo (Machine.run (t.setting policy).natives steps m)) := by
  induction steps generalizing m with
  | zero => exact .refl
  | succ steps ih =>
    unfold Machine.run
    split
    · exact .refl
    · exact .head ⟨step_acts policy m, trivial⟩ (ih _)

theorem run_acts (steps : Nat) (m : Machine Api.Services) :
    ReflTransGen (Acts t) (.running todo m)
      (.running todo (Machine.run (t.setting policy).natives steps m)) := acts_of_path (run_goes steps m)

theorem run_reaches (steps : Nat) (m : Machine Api.Services) :
    ReflTransGen (Moves t) (.running todo m)
      (.running todo (Machine.run (t.setting policy).natives steps m)) := moves_of_path (run_acts steps m)

theorem errorOf_goes (depth : Nat) {thrown : Thrown} {m : Machine Api.Services}
    (hraised : m.answer? = some (.raised thrown)) :
    ReflTransGen (Goes t) (.running todo m)
      (.idle todo (Script.errorOf (t.setting policy) depth thrown m.world).2) := by
  have hover : ReflTransGen (Goes t) (.running todo m) (.idle todo m.world) := .single (Does.ended.goes trivial)
  induction depth generalizing thrown m with
  | zero =>
    unfold Script.errorOf
    split
    · exact hover
    · split <;> exact hover
  | succ depth ih =>
    unfold Script.errorOf
    split
    · exact hover
    · split
      · exact hover
      · have hrun : ReflTransGen (Goes t) (.running todo m)
            (.running todo (Machine.run (t.setting policy).natives t.fuel
              (Script.textMachine thrown.value m.world))) :=
          .head ((Does.text hraised).goes trivial) (run_goes t.fuel _)
        simp only
        split
        · exact hrun.tail (Does.ended.goes trivial)
        · next hagain => exact hrun.trans (ih hagain (.single (Does.ended.goes trivial)))
        · exact hrun.tail (Does.ended.goes trivial)

theorem call_goes (f : Value) (args : List Value) (w : Vm Thing) :
    ReflTransGen (Goes t) (.running todo (.ofCall f args w))
      (.idle todo (Script.call (t.setting policy) f args w).2) := by
  have hrun : ReflTransGen (Goes t) (.running todo (.ofCall f args w))
      (.running todo (Machine.run (t.setting policy).natives t.fuel (.ofCall f args w))) :=
    run_goes t.fuel _
  unfold Script.call Script.finish
  simp only
  split
  · exact hrun.tail (Does.ended.goes trivial)
  · next hraised => exact hrun.trans (errorOf_goes _ hraised)
  · exact hrun.tail (Does.ended.goes trivial)

/-- A chunk that does not load leaves nothing behind. -/
theorem heap_of_loadFault {name source message : Lua.Bytes} {h h' : Heap}
    (hload : Lua.Library.loadSource name source none h = (.error message, h')) : h' = h := by
  unfold Lua.Library.loadSource at hload
  split at hload
  · exact (Prod.mk.inj hload).2.symm
  · split at hload
    · exact (Prod.mk.inj hload).2.symm
    · simp only at hload
      split at hload
      · exact (Prod.mk.inj hload).2.symm
      · cases hload

theorem startModule_goes (given : String) (w : Vm Thing) :
    ReflTransGen (Goes t) (.idle todo w)
      (.idle todo (Script.startModule (t.setting policy) given w).2) := by
  have hrefused : ReflTransGen (Goes t) (.idle todo w) (.idle todo (taken (Bridge.moduleOf given) w)) :=
    .single ((Does.refuse given).goes rfl)
  unfold Script.startModule
  simp only
  split
  · exact hrefused
  · next text htext =>
    unfold Script.chunk
    split
    · exact hrefused
    · simp only
      split
      · next hload =>
        rw [heap_of_loadFault hload]
        exact hrefused
      · next hload => exact .head ((Does.enter htext hload).goes trivial) (call_goes _ _ _)

/-- Calls are made in order; those behind one that fails stay undone. -/
theorem callEach_goes (args fs : List Value) (w : Vm Thing) : ∃ left,
    ReflTransGen (Goes t) (.idle (fs.map fun f => (f, args)) w)
      (.idle left (Script.callEach (t.setting policy) args fs w).2) := by
  induction fs generalizing w with
  | nil => exact ⟨_, .refl⟩
  | cons f rest ih =>
    have hcall : ReflTransGen (Goes t) (.idle ((f :: rest).map fun f => (f, args)) w)
        (.idle (rest.map fun f => (f, args)) (Script.call (t.setting policy) f args w).2) :=
      .head (Does.call.goes trivial) (call_goes f args w)
    unfold Script.callEach
    split
    · next w' heq =>
      rw [heq] at hcall
      obtain ⟨left, hrest⟩ := ih w'
      exact ⟨left, hcall.trans hrest⟩
    · next w' heq =>
      rw [heq] at hcall
      exact ⟨_, hcall⟩

theorem fire_goes (e : Event) (w : Vm Thing) : ∃ left,
    ReflTransGen (Goes t) (.idle todo w)
      (.idle left (Script.fire (t.setting policy) e.name (Script.eventArguments e) w).2) := by
  have hevent : Goes t (.idle todo w) (.idle (registered w e.name (Script.eventArguments e)) w) :=
    (Does.event e).goes rfl
  obtain ⟨left, hcalls⟩ : ∃ left, ReflTransGen (Goes t)
      (.idle (registered w e.name (Script.eventArguments e)) w)
      (.idle left (Script.callEach (t.setting policy) (Script.eventArguments e)
        (w.host.callbacks[e.name]?.getD []) w).2) := callEach_goes _ _ w
  have hfired := hcalls.head hevent
  unfold Script.fire
  simp only
  split
  · next heq =>
    rw [heq] at hfired
    exact ⟨left, hfired⟩
  · next heq =>
    rw [heq] at hfired
    exact ⟨left, hfired⟩

/-- The last thing that scripts do is what their finalizers do. -/
theorem release_goes (w : Vm Thing) :
    ReflTransGen (Goes t) (.idle todo w) (.idle todo (Script.release (t.setting policy) w).2) := by
  unfold Script.release
  split
  · exact .refl
  · exact .head (Does.release.goes trivial) ((run_goes t.fuel _).tail (Does.ended.goes trivial))

/-! ## The host between two runs -/

/-- What scripts printed is handed over. -/
theorem handOver_does (w : Vm Thing) :
    Does t none (.idle todo w) (.idle todo ⟨(Instance.handOver w).1, (Instance.handOver w).2, none⟩) := by
  obtain ⟨heap, host, meter⟩ := w
  unfold Instance.handOver
  simp only
  split
  · exact .host rfl rfl
  · exact .host rfl rfl

theorem handOver_goes (w : Vm Thing) :
    Goes t (.idle todo w) (.idle todo ⟨(Instance.handOver w).1, (Instance.handOver w).2, none⟩) := by
  refine (handOver_does w).goes ?_
  unfold Remembers Instance.handOver
  simp only
  split <;> rfl

/-- An allowance of instructions does not change where scripts come to. -/
theorem limited_goes {α : Type} (phase : Phase) (budget : Trust.Effective)
    {run : Vm Thing → Script.Result Thing α}
    (hrun : ∀ todo w, ∃ todo', ReflTransGen (Goes t) (.idle todo w) (.idle todo' (run w).2)) :
    ∀ todo w, ∃ todo',
      ReflTransGen (Goes t) (.idle todo w) (.idle todo' (Script.limited phase budget run w).2) := by
  intro todo w
  obtain ⟨todo', hreaches⟩ := hrun todo ⟨w.heap, w.host, some (Script.meterOf phase budget)⟩
  have hmetered : Does t none (.idle todo w)
      (.idle todo ⟨w.heap, w.host, some (Script.meterOf phase budget)⟩) := .host rfl rfl
  have hunmetered : Does t none (.idle todo' (run ⟨w.heap, w.host, some (Script.meterOf phase budget)⟩).2)
      (.idle todo' (Script.limited phase budget run w).2) := .host rfl rfl
  exact ⟨todo', (hreaches.head (hmetered.goes rfl)).tail (hunmetered.goes rfl)⟩

/-! ## Instances -/

/-- What of the services the host leaves to scripts between two runs. -/
def remembered (s : Api.Services) := (kept s, s.methods)

/-- An instance that is no longer to be started comes to another one: if that has memory for its scripts, they came
there from where they were. -/
structure Follows (t : Terms) (i i' : Instance) : Prop where
  source_eq : i'.source = i.source
  stage : i.stage ≠ .created → i'.stage ≠ .created
  heap : ∀ heap', i'.heap = some heap' → ∃ heap, i.heap = some heap ∧ ∀ todo, ∃ todo',
    ReflTransGen (Goes t) (.idle todo ⟨heap, i.services, none⟩) (.idle todo' ⟨heap', i'.services, none⟩)

namespace Follows

variable {i i₁ i₂ i₃ : Instance}

theorem refl (i : Instance) : Follows t i i where
  source_eq := rfl
  stage h := h
  heap heap h := ⟨heap, h, fun todo => ⟨todo, .refl⟩⟩

theorem trans (h : Follows t i₁ i₂) (h' : Follows t i₂ i₃) : Follows t i₁ i₃ where
  source_eq := h'.source_eq.trans h.source_eq
  stage hstage := h'.stage (h.stage hstage)
  heap heap₃ h₃ := by
    obtain ⟨heap₂, h₂, hpath'⟩ := h'.heap heap₃ h₃
    obtain ⟨heap₁, h₁, hpath⟩ := h.heap heap₂ h₂
    refine ⟨heap₁, h₁, fun todo => ?_⟩
    obtain ⟨todo', hreaches⟩ := hpath todo
    obtain ⟨todo'', hreaches'⟩ := hpath' todo'
    exact ⟨todo'', hreaches.trans hreaches'⟩

/-- The host changes the services. -/
theorem services {services : Api.Services} (h : remembered services = remembered i.services) :
    Follows t i { i with services } where
  source_eq := rfl
  stage hstage := hstage
  heap heap hheap := by
    have hhost (todo : List (Value × List Value)) : Does t none (.idle todo ⟨heap, i.services, none⟩)
        (.idle todo ⟨heap, services, none⟩) := .host rfl (congrArg Prod.fst h)
    exact ⟨heap, hheap, fun todo => ⟨todo, .single ((hhost todo).goes (congrArg Prod.snd h))⟩⟩

/-- The scripts end. -/
theorem ended {i' : Instance} (hsource : i'.source = i.source) (hstage : i'.stage ≠ .created)
    (hheap : i'.heap = none) : Follows t i i' where
  source_eq := hsource
  stage _ := hstage
  heap heap' h := by
    rw [hheap] at h
    cases h

theorem fault (s : Script.Setting Thing) (e : Script.Error) : Follows t i (i.fault s e).2 := by
  obtain ⟨services, heq⟩ := fault_eq s i e
  rw [heq]
  exact ended rfl nofun rfl

theorem runScripts {α : Type} (s : Script.Setting Thing) {run : Vm Thing → Script.Result Thing α}
    (hrun : ∀ todo w, ∃ todo', ReflTransGen (Goes t) (.idle todo w) (.idle todo' (run w).2)) :
    Follows t i (i.runScripts s run).2 := by
  obtain ⟨source, stage, heap, services, lastError⟩ := i
  cases heap with
  | none => exact refl _
  | some heap =>
    have hran : Follows t ⟨source, stage, some heap, services, lastError⟩
        ⟨source, stage, some (Instance.handOver (run ⟨heap, services, none⟩).2).1,
          (Instance.handOver (run ⟨heap, services, none⟩).2).2, lastError⟩ :=
      { source_eq := rfl
        stage := id
        heap := fun heap' hheap' => by
          cases hheap'
          refine ⟨heap, rfl, fun todo => ?_⟩
          obtain ⟨todo', hreaches⟩ := hrun todo ⟨heap, services, none⟩
          exact ⟨todo', hreaches.tail (handOver_goes _)⟩ }
    unfold Instance.runScripts
    simp only
    split
    · exact hran
    · exact hran.trans (fault s _)

theorem dispatch (policy : Policy) (e : Event) : Follows t i (i.dispatch t policy e).2 := by
  refine during_keeps (refl i) ?_
  refine .trans (services (Services.trustValue_keeps policy _ (fun _ _ => rfl) e.phase.capability)) ?_
  exact runScripts _ (limited_goes _ _ fun todo w => fire_goes e w)

theorem tick (policy : Policy) : Follows t i (i.tick t policy).2 :=
  tick_keeps (P := Follows t i)
    (fun _ h => h.trans (services (Services.tickQuotas_keeps policy _ (fun _ _ => rfl) fun _ _ => rfl)))
    (fun _ _ _ _ h => h.trans (services rfl)) (fun _ e h => h.trans (dispatch policy e)) (refl i)

theorem render (policy : Policy) (delta : Float) : Follows t i (i.render t policy delta).2 :=
  render_keeps (P := Follows t i) (fun _ e h => h.trans (dispatch policy e))
    (fun _ h => h.trans (services (Services.uploadDirty_keeps _ (fun _ _ => rfl) fun _ _ => rfl))) (refl i) delta

theorem enter (policy : Policy) (entry : String) : Follows t i (i.enter t policy entry).2 := by
  unfold Instance.enter
  generalize hnoted : i.note .info _ = noted
  have hnote : Follows t i noted := hnoted ▸ services rfl
  refine hnote.trans (.trans (services (Services.trustValue_keeps policy _ (fun _ _ => rfl) Phase.init.capability)) ?_)
  exact runScripts _ (limited_goes _ _ fun todo w => ⟨todo, startModule_goes entry w⟩)

end Follows

/-! ## Beginnings -/

/-- The scripts of a package once the package is set up. -/
inductive Begins (t : Terms) : Activity → Prop
  | setUp {policy : Policy} {modules : Modules} {services : Api.Services} {w : Vm Thing}
    (hfresh : services.callbacks = ∅)
    (hready : Instance.setUp (t.setting policy) t modules services = (.ok (), w)) :
    Begins t (.idle [] w)

/-- The scripts of a package with some modules once the package is set up: nothing was made or registered before. -/
inductive SetUp (t : Terms) (modules : Modules) : Activity → Prop
  | ready {policy : Policy} {services : Api.Services} {w : Vm Thing}
    (hfresh : services.callbacks = ∅) (hbare : services.objects = #[])
    (hready : Instance.setUp (t.setting policy) t modules services = (.ok (), w)) :
    SetUp t modules (.idle [] w)

/-- The same, where no function of a method was asked for before either. -/
inductive Opened (t : Terms) (modules : Modules) : Activity → Prop
  | ready {policy : Policy} {services : Api.Services} {w : Vm Thing}
    (hfresh : services.callbacks = ∅) (hbare : services.objects = #[]) (hunasked : services.methods = ∅)
    (hready : Instance.setUp (t.setting policy) t modules services = (.ok (), w)) :
    Opened t modules (.idle [] w)

theorem Opened.setUp {modules : Modules} {a : Activity} (h : Opened t modules a) : SetUp t modules a := by
  obtain ⟨hfresh, hbare, -, hready⟩ := h
  exact .ready hfresh hbare hready

theorem SetUp.begins {modules : Modules} {a : Activity} (h : SetUp t modules a) : Begins t a := by
  obtain ⟨hfresh, -, hready⟩ := h
  exact .setUp hfresh hready

/-- The memory of the scripts of an instance is reached from where its package was set up. -/
structure Lived (t : Terms) (source : Source) (i : Instance) : Prop where
  source_eq : i.source = source
  created : i.stage = .created → i.heap = none ∧ i.services.callbacks = ∅ ∧ i.services.objects = #[]
  unasked : i.stage = .created → i.services.methods = ∅
  went : ∀ heap, i.heap = some heap → ∃ a todo, Opened t source.modules a ∧
    ReflTransGen (Goes t) a (.idle todo ⟨heap, i.services, none⟩)

namespace Lived

variable {i i' : Instance} {source : Source}

theorem heap (h : Lived t source i) (heap : Heap) (hheap : i.heap = some heap) :
    ∃ a todo, SetUp t source.modules a ∧ ReflTransGen (Acts t) a (.idle todo ⟨heap, i.services, none⟩) := by
  obtain ⟨a, todo, hopened, hreaches⟩ := h.went heap hheap
  exact ⟨a, todo, hopened.setUp, acts_of_path hreaches⟩

theorem follows (h : Lived t source i) (hstage : i.stage ≠ .created) (hfollows : Follows t i i') :
    Lived t source i' where
  source_eq := hfollows.source_eq.trans h.source_eq
  created hcreated := absurd hcreated (hfollows.stage hstage)
  unasked hcreated := absurd hcreated (hfollows.stage hstage)
  went heap' hheap' := by
    obtain ⟨heap, hheap, hpath⟩ := hfollows.heap heap' hheap'
    obtain ⟨a, todo, hopened, hreaches⟩ := h.went heap hheap
    obtain ⟨todo', hreaches'⟩ := hpath todo
    exact ⟨a, todo', hopened, hreaches.trans hreaches'⟩

/-- Scripts that have ended have no memory. -/
theorem ended (hsource : i.source = source) (stage : Stage) (hstage : i.stage = stage) (hcreated : stage ≠ .created)
    (hheap : i.heap = none) : Lived t source i where
  source_eq := hsource
  created h := absurd (hstage.symm.trans h) hcreated
  unasked h := absurd (hstage.symm.trans h) hcreated
  went heap h := by
    rw [hheap] at h
    cases h

theorem new (policy : Policy) (generation : Nat) (source : Source) :
    Lived t source (.new t policy generation source) where
  source_eq := rfl
  created _ := ⟨rfl, Services.new_keeps (f := Services.callbacks) policy (fun _ _ => rfl) ..,
    Services.new_keeps (f := Services.objects) policy (fun _ _ => rfl) ..⟩
  unasked _ := Services.new_keeps (f := Services.methods) policy (fun _ _ => rfl) ..
  went heap hheap := by cases hheap

/-- An operation that only one stage allows, other than that of an instance that was just made. -/
theorem during {stage : Stage} {action : String} {run : Instance → Outcome} (h : Lived t source i)
    (hstage : stage ≠ .created) (hrun : Follows t i (i.during stage action run).2) :
    Lived t source (i.during stage action run).2 := by
  by_cases heq : i.stage = stage
  · exact h.follows (heq ▸ hstage) hrun
  · unfold Instance.during
    rw [if_neg heq]
    exact h

theorem start (h : Lived t source i) (policy : Policy) : Lived t source (i.start t policy).2 := by
  obtain ⟨source', stage, heap, services, lastError⟩ := i
  obtain rfl : source' = source := h.source_eq
  unfold Instance.start Instance.during
  split
  · next hcreated =>
    obtain ⟨hnone, hfresh, hbare⟩ := h.created hcreated
    have hunasked := h.unasked hcreated
    simp only at hnone hfresh hbare hunasked
    subst hnone
    simp only
    split
    · exact .ended rfl .faulted rfl nofun rfl
    · next entry _ =>
      cases hready : Instance.setUp (t.setting policy) t source'.modules services with
      | mk r w =>
        cases r with
        | error e =>
          obtain ⟨services', heq⟩ := failSetup_eq (t.setting policy)
            ⟨source', stage, some (Instance.handOver w).1, (Instance.handOver w).2, lastError⟩ e
          simp only [heq]
          exact .ended rfl .faulted rfl nofun rfl
        | ok =>
          have hrunning : Lived t source' ⟨source', .running, some (Instance.handOver w).1,
              (Instance.handOver w).2, lastError⟩ :=
            { source_eq := rfl
              created := nofun
              unasked := nofun
              went := fun heap hheap => by
                cases hheap
                exact ⟨_, [], .ready hfresh hbare hunasked hready, .single (handOver_goes w)⟩ }
          exact hrunning.follows nofun (.enter policy entry)
  · exact h

theorem unload (h : Lived t source i) (s : Script.Setting Thing) : Lived t source (i.unload s) := by
  obtain ⟨services, heq⟩ := release_eq s { i with services := i.services.shutdown }
  unfold Instance.unload
  split
  · exact h
  · simp only [heq]
    exact .ended h.source_eq .unloaded rfl nofun rfl

/-- The host delivers an answer to a request. -/
theorem answer (h : Lived t source i) (policy : Policy) (c : Host.Completion) :
    Lived t source { i with services := (Turn.delivered c).apply policy i.services } where
  source_eq := h.source_eq
  created := h.created
  unasked := h.unasked
  went heap hheap := by
    obtain ⟨a, todo, hopened, hreaches⟩ := h.went heap hheap
    have hhost : Does t none (.idle todo ⟨heap, i.services, none⟩)
        (.idle todo ⟨heap, (Turn.delivered c).apply policy i.services, none⟩) := .host rfl rfl
    exact ⟨a, todo, hopened, hreaches.tail (hhost.goes rfl)⟩

theorem apply (h : Lived t source i) (policy : Policy) (op : Operation) :
    Lived t source (op.apply t policy i) := by
  cases op with
  | start => exact h.start policy
  | tick => exact h.during nofun (.tick policy)
  | render delta => exact h.during nofun (.render policy delta)
  | dispatch e => exact h.during nofun (.dispatch policy e)
  | answer c => exact h.answer policy c
  | unload => exact h.unload _

end Lived

/-- Whatever is done with an instance, the memory of its scripts is reached from where its package was set up. -/
theorem lived_afterAll (t : Terms) (policy : Policy) (generation : Nat) (source : Source)
    (ops : List (Policy × Operation)) :
    Lived t source (afterAll t (.new t policy generation source) ops) := by
  have hnew : Lived t source (.new t policy generation source) := .new policy generation source
  generalize Instance.new t policy generation source = i at hnew
  induction ops generalizing i with
  | nil => exact hnew
  | cons o rest ih => exact ih _ (hnew.apply o.1 o.2)

/-- The memory of the scripts of an instance is reached from a beginning. -/
structure Reached (t : Terms) (i : Instance) : Prop where
  created : i.stage = .created → i.heap = none ∧ i.services.callbacks = ∅
  heap : ∀ heap, i.heap = some heap → ∃ a todo, Begins t a ∧
    ReflTransGen (Moves t) a (.idle todo ⟨heap, i.services, none⟩)

/-- Whatever is done with an instance, the memory of its scripts is reached from a beginning. -/
theorem reached_afterAll (t : Terms) (policy : Policy) (generation : Nat) (source : Source)
    (ops : List (Policy × Operation)) :
    Reached t (afterAll t (.new t policy generation source) ops) := by
  have hlived := lived_afterAll t policy generation source ops
  refine ⟨fun hcreated => ?_, fun heap hheap => ?_⟩
  · obtain ⟨hnone, hfresh, -⟩ := hlived.created hcreated
    exact ⟨hnone, hfresh⟩
  · obtain ⟨a, todo, hsetUp, hreaches⟩ := hlived.heap heap hheap
    exact ⟨a, todo, hsetUp.begins, moves_of_path hreaches⟩

end ScriptWarden.Package
