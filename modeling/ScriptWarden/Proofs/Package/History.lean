import ScriptWarden.Proofs.Api.Methods
import ScriptWarden.Proofs.Package.Activity
set_option autoImplicit false

/-!
# Packages: histories

A history is what happened to the scripts of a package since it was set up, with the names of the modules that were
started on the way.  A step that starts no module leaves the modules alone, whatever scripts call; a step that starts
one takes that one away and no other.  So the modules that are left are known from the history, and all along every
object stands for a thing of its type (`stands_of_history`).
-/

namespace ScriptWarden.Package

open Api (Grown Tended Thing Typed)
open Lua (Machine Native Value World)
open Relation (ReflTransGen)
open Script (Vm)
open Trust (Policy)

variable {t : Terms} {policy : Policy} {todo : List (Value × List Value)}

/-- What happened to the scripts of a package, and the modules that were started, in order. -/
inductive History (t : Terms) : List String → Activity → Activity → Prop
  | refl (a : Activity) : History t [] a a
  | tail {names : List String} {started : Option String} {a b c : Activity} (h : History t names a b)
    (hdoes : Does t started b c) : History t (names ++ started.toList) a c

theorem exists_history {a b : Activity} (h : ReflTransGen (Acts t) a b) : ∃ names, History t names a b := by
  induction h with
  | refl => exact ⟨[], .refl a⟩
  | tail _ hacts ih =>
    obtain ⟨names, hhistory⟩ := ih
    obtain ⟨started, hdoes⟩ := hacts
    exact ⟨_, hhistory.tail hdoes⟩

/-- Whatever is done with an instance, the memory of its scripts has a history. -/
theorem exists_history_afterAll (t : Terms) (policy : Policy) (generation : Nat) (source : Source)
    (ops : List (Policy × Operation)) {heap : Lua.Heap}
    (hheap : (afterAll t (.new t policy generation source) ops).heap = some heap) :
    ∃ a names todo, SetUp t source.modules a ∧
      History t names a (.idle todo ⟨heap, (afterAll t (.new t policy generation source) ops).services, none⟩) := by
  obtain ⟨a, todo, hsetUp, hreaches⟩ := (lived_afterAll t policy generation source ops).heap heap hheap
  obtain ⟨names, hhistory⟩ := exists_history hreaches
  exact ⟨a, names, todo, hsetUp, hhistory⟩

/-! ## Calls -/

/-- Between two worlds objects and states grow, and no module is started. -/
def GrownBetween (w w' : Vm Thing) : Prop := Grown w.host w'.host

/-- Fields are only looked up. -/
theorem apply_field (policy : Policy) (heap : Lua.Heap) (type name : String) (state : Nat) (s : Api.Services) :
    Turn.apply policy (.field heap type name state) s = s := by
  simp only [Turn.apply]
  split
  · next get hmember =>
    have hshown : Api.Shown type get := Api.surface_coheres type name _ hmember
    have hreads : (Bridge.readField get state).Reads :=
      Bridge.Action.reads_bind Bridge.reads_checkAlive fun _ => hshown.reads state
    rw [hreads]
  · rfl

theorem admits_grown (policy : Policy) : AdmitsCalls policy GrownBetween where
  refl w := .refl w.host
  trans h h' := h.trans h'
  heap _ _ s _ := .refl s
  turn turn hturn heap s meter := by
    cases turn with
    | call heap' type name args => exact (Api.bridgeCall_growing policy type name args ⟨heap', s, none⟩).toGrown
    | field heap' type name state =>
      simp only [GrownBetween, apply_field]
      exact .refl s
    | method type name =>
      simp only [GrownBetween, Turn.apply]
      split
      · exact .refl s
      · exact .of_held rfl
    | log level message => exact .of_held rfl
    | _ => exact hturn.elim

/-! ## Steps -/

/-- A run that lets objects and states grow and starts no module, unless it calls for one. -/
def Activity.Grows : Activity → Prop
  | .idle _ _ => True
  | .running _ m => m.Within GrownBetween m.world

/-- The services without a module that was started, if one was. -/
def left (started : Option String) (s : Api.Services) : Api.Services :=
  match started with
  | none => s
  | some name => (Bridge.takeModule name s).2

/-- What scripts are at after a step. -/
structure Grew (started : Option String) (a b : Activity) : Prop where
  grows : b.Grows
  grown : Grown (left started a.world.host) b.world.host

theorem grew_of_within {started : Option String} {a : Activity} {m : Machine Api.Services} {w : Vm Thing}
    (hw : w.host = left started a.world.host) (h : m.Within GrownBetween w) : Grew started a (.running todo m) where
  grows := h.here (admits_grown default).toAdmits
  grown := hw ▸ h.world

/-- What goes on once a module was taken out: its text is loaded and called. -/
def opened (name : String) (text : Option String) : Native Api.Services (List Value) :=
  match text with
  | none => Bridge.raiseText (Bridge.unknownModule name)
  | some text => do Bridge.callBack (← Bridge.load (Text.bytes name) (Text.bytes text)) []

/-- The start of a module takes it out first, and then asks for no other. -/
theorem requireModule_eq {given : String} {args : List Value} (w : Vm Thing)
    (hgiven : Bridge.textOf? (args.headD .nil) = .ok given) : Bridge.requireModule args w =
      opened (Bridge.moduleOf given) w.host.modules[Bridge.moduleOf given]? (taken (Bridge.moduleOf given) w) := by
  have htext : (Bridge.textOf (args.headD .nil) "bad argument #1: " : Native Api.Services String) = pure given := by
    unfold Bridge.textOf
    rw [hgiven]
  unfold Bridge.requireModule
  rw [htext]
  rfl

/-- A name that is no text is refused before any module is looked for. -/
theorem requireModule_refused {message : String} {args : List Value}
    (hrefused : Bridge.textOf? (args.headD .nil) = .error message) :
    (Bridge.requireModule args : Native Api.Services (List Value)) =
      Bridge.raiseHost ⟨Text.bytes ("bad argument #1: " ++ message), Bridge.nativePlace⟩ := by
  unfold Bridge.requireModule Bridge.textOf
  rw [hrefused]
  rfl

theorem opened_within (name : String) (text : Option String) : (opened name text).Within GrownBetween := by
  have hR := (admits_grown default).toAdmits
  cases text with
  | none => exact raiseText_within hR _
  | some text => exact .bind hR (load_within hR _ _) fun f => callBack_within hR f []

/-- Counting an instruction changes no services. -/
theorem grown_tick (stack : List (Lua.Activation Api.Services)) (w : Vm Thing) :
    GrownBetween w (Machine.tickMeter stack w).2 := by
  unfold GrownBetween
  rw [(Machine.tickMeter_eq stack w).2]
  exact .refl _

/-- A step of a run that starts no module. -/
theorem step_within_plain (policy : Policy) {m : Machine Api.Services} (hm : m.Within GrownBetween m.world)
    (hplain : ∀ given, ¬ Requires m given) :
    (m.step (t.setting policy).natives).Within GrownBetween m.world := by
  have hR := admits_grown policy
  by_cases hcall : ∃ args w, m.control = .call (.host .require) args w
  · obtain ⟨args, w, hcontrol⟩ := hcall
    obtain ⟨control, stack⟩ := m
    obtain rfl : control = .call (.host .require) args w := hcontrol
    refine ⟨?_, hm.stack⟩
    cases hgiven : Bridge.textOf? (args.headD .nil) with
    | ok given => exact absurd ⟨args, w, rfl, hgiven⟩ (hplain given)
    | error message =>
      have hwithin : (Bridge.requireModule args : Native Api.Services (List Value)).Within GrownBetween := by
        rw [requireModule_refused hgiven]
        exact raiseHost_within hR.toAdmits _
      exact hwithin w
  · refine Machine.step_within hR.toAdmits hm (fun f args w hcontrol => ?_) fun _ => grown_tick _ _
    exact natives_within_calls hR t.collector (fun hf => hcall ⟨args, w, hf ▸ hcontrol⟩) args

/-- A step by which a script starts a module. -/
theorem require_within (policy : Policy) {m : Machine Api.Services} (hm : m.Within GrownBetween m.world)
    {given : String} (hrequires : Requires m given) :
    (m.step (t.setting policy).natives).Within GrownBetween (taken (Bridge.moduleOf given) m.world) := by
  obtain ⟨args, w, hcontrol, hgiven⟩ := hrequires
  obtain ⟨control, stack⟩ := m
  obtain rfl : control = .call (.host .require) args w := hcontrol
  refine ⟨?_, hm.stack⟩
  have hopened := opened_within (Bridge.moduleOf given) w.host.modules[Bridge.moduleOf given]?
    (taken (Bridge.moduleOf given) w)
  rw [← requireModule_eq w hgiven] at hopened
  exact hopened

/-- Each step lets objects and states grow, and takes away the module that it starts. -/
theorem grew_of_does {started : Option String} {a b : Activity} (ha : a.Grows) (hdoes : Does t started a b) :
    Grew started a b := by
  have hR := (admits_grown default).toAdmits
  cases hdoes with
  | enter => exact grew_of_within rfl (Machine.within_ofCall hR _ _ _)
  | refuse => exact ⟨trivial, .refl _⟩
  | event => exact ⟨trivial, .refl _⟩
  | call => exact grew_of_within rfl (Machine.within_ofCall hR _ _ _)
  | require policy hrequires => exact grew_of_within rfl (require_within policy ha hrequires)
  | step policy hplain => exact grew_of_within rfl (step_within_plain policy ha hplain)
  | text => exact grew_of_within rfl (textMachine_within hR _ _)
  | release => exact grew_of_within rfl (Machine.within_ofClose hR _ _)
  | ended => exact ⟨trivial, .refl _⟩
  | host hheap hkept => exact ⟨trivial, .of_held (congrArg Prod.snd hkept)⟩

/-- A step takes one module away at most: the one that it starts. -/
theorem modules_of_does {started : Option String} {a b : Activity} (ha : a.Grows) (hdoes : Does t started a b)
    (name : String) : b.world.host.modules[name]? =
      if started = some name then none else a.world.host.modules[name]? := by
  rw [(grew_of_does ha hdoes).grown.modules_eq]
  cases started with
  | none => simp [left]
  | some started =>
    simp only [left, Bridge.takeModule, Option.some.injEq]
    simp [Std.ExtTreeMap.getElem?_erase]

/-! ## Beginnings -/

theorem admits_typed (policy : Policy) :
    AdmitsScripts policy fun w w' => Typed w.host → Typed w'.host where
  refl _ h := h
  trans h h' hs := h' (h hs)
  heap _ _ _ _ h := h
  tick stack w h := (grown_tick stack w).typed h
  turn turn hturn heap s meter h := by
    have hcalled (hcalled : turn.Called) : Typed (turn.apply policy s) :=
      ((admits_grown policy).turn turn hcalled heap s meter).typed h
    cases turn with
    | module name => exact h
    | _ => exact hcalled hturn

/-- Global objects are services. -/
theorem tended_installObjects (w : Vm Thing) : Tended w.host (Script.installObjects w).host := by
  unfold Script.installObjects
  have hkinds : ∀ o ∈ Api.globalObjects, Api.kindOf o.2 = .service := by decide
  generalize Api.globalObjects = objects at hkinds
  induction objects generalizing w with
  | nil => exact .refl _
  | cons o rest ih =>
    have hcreated : Tended w.host (Api.create o.2 .service w).2.host :=
      ⟨.create (hkinds o List.mem_cons_self).symm, rfl⟩
    simp only [List.foldl_cons]
    refine hcreated.trans ?_
    exact ih ⟨Script.setGlobal o.1 _ _, (Api.create o.2 .service w).2.host, w.meter⟩ fun o ho =>
      hkinds o (List.mem_cons_of_mem _ ho)

theorem tended_install {w w' : Vm Thing} (h : Script.install w = (.ok (), w')) : Tended w.host w'.host := by
  obtain ⟨heap, services, meter⟩ := w
  unfold Script.install at h
  simp only at h
  split at h
  · obtain ⟨-, rfl⟩ := Prod.mk.inj h
    exact tended_installObjects ⟨Script.installOutput _ heap, services, meter⟩
  · cases h

/-- All modules of the package are there when its first code runs, and every object is a service. -/
theorem typed_of_setUp {modules : Modules} {services : Api.Services} {w : Vm Thing}
    (hbare : services.objects = #[]) (hready : Instance.setUp (t.setting policy) t modules services = (.ok (), w)) :
    Typed w.host ∧ w.host.modules = modules := by
  have hbegin : Typed services := by
    intro id o ho
    rw [hbare] at ho
    cases ho
  have hboot : Typed (Script.boot (t.setting policy) t.sandbox t.memory services).2.host :=
    chunk_rel t (admits_typed policy) Script.sandboxChunk _ ⟨_, services, none⟩ hbegin
  unfold Instance.setUp at hready
  split at hready
  · cases hready
  · next booted heq =>
    rw [heq] at hboot
    split at hready
    · cases hready
    · next heap services' meter hinstall =>
      obtain ⟨-, rfl⟩ := Prod.mk.inj hready
      have hinstalled : Typed services' := (tended_install hinstall).toGrown.typed hboot
      exact ⟨hinstalled, rfl⟩

/-! ## Histories -/

variable {modules : Modules} {names : List String} {a b c : Activity}

/-- What is known of scripts after a history, in a package with some modules: the modules that were started are gone and
no others, and every object stands for a thing of its type. -/
structure Stands (modules : Modules) (names : List String) (a : Activity) : Prop where
  grows : a.Grows
  typed : Typed a.world.host
  pending : ∀ name, a.world.host.modules[name]? = if name ∈ names then none else modules[name]?

theorem stands_of_setUp (h : SetUp t modules a) : Stands modules [] a := by
  obtain ⟨-, hbare, hready⟩ := h
  obtain ⟨htyped, hmodules⟩ := typed_of_setUp hbare hready
  refine ⟨trivial, htyped, fun name => ?_⟩
  simp only [List.not_mem_nil, if_false]
  exact congrArg (·[name]?) hmodules

theorem Stands.step (h : Stands modules names b) {started : Option String} (hdoes : Does t started b c) :
    Stands modules (names ++ started.toList) c := by
  have hstep := grew_of_does h.grows hdoes
  refine ⟨hstep.grows, hstep.grown.typed ?_, fun name => ?_⟩
  · cases started with
    | none => exact h.typed
    | some started => exact h.typed
  · rw [modules_of_does h.grows hdoes, h.pending name]
    cases started with
    | none => simp
    | some started =>
      by_cases hsame : started = name
      · simp [hsame]
      · simp [hsame, Ne.symm hsame]

theorem stands_of_history (hsetUp : SetUp t modules a) (h : History t names a b) : Stands modules names b := by
  induction h with
  | refl => exact stands_of_setUp hsetUp
  | tail _ hdoes ih => exact (ih hsetUp).step hdoes

end ScriptWarden.Package
