import ScriptWarden.Proofs.Package.Globals
import ScriptWarden.Proofs.Package.History
set_option autoImplicit false

/-!
# Packages: which text a module runs

A module is started by a name: the entry of the package by the host, any other by a script.  The ending `.lua` is
dropped from the name first, and the module of the shorter name is taken out and run (`modules_run_as_stored`).  So a
module runs the text that is stored under its name unless that name has the ending itself.  The entry is chosen by the
whole name, though: a package whose only module is called `main.lua` cannot be started (`suffixed_refused`).
-/

namespace ScriptWarden.Package

open Api (Thing)
open Bridge (moduleOf)
open Lua (Heap Machine Native Value World)
open Script (Vm)
open Trust (Effective Policy)

variable {t : Terms}

/-! ## Names -/

theorem moduleOf_append (stem : String) : moduleOf (stem ++ ".lua") = stem := by
  cases hdropped : (stem ++ ".lua").dropSuffix? ".lua" with
  | none =>
    have hends : (stem ++ ".lua").toSlice.endsWith ".lua" = false :=
      String.Slice.dropSuffix?_eq_none_iff.1 hdropped
    rw [String.Slice.endsWith_string_eq_false_iff] at hends
    refine absurd ?_ hends
    simp
  | some rest =>
    have happend : stem ++ ".lua" = rest.copy ++ ".lua" := by
      simpa using String.Slice.eq_append_of_dropSuffix?_string_eq_some hdropped
    unfold moduleOf
    rw [hdropped]
    exact ((String.append_left_inj ".lua").1 happend).symm

/-- A name that lacks the ending is the name of a module as it stands. -/
theorem moduleOf_eq_self {k : String} (hk : ∀ stem, k ≠ stem ++ ".lua") : moduleOf k = k := by
  cases hdropped : k.dropSuffix? ".lua" with
  | none =>
    unfold moduleOf
    rw [hdropped]
    rfl
  | some rest =>
    have happend : k = rest.copy ++ ".lua" := by
      simpa using String.Slice.eq_append_of_dropSuffix?_string_eq_some hdropped
    exact absurd happend (hk rest.copy)

/-! ## What there is to call -/

/-- The function that the text of a module is, and the memory with it, if the text can be loaded under the name. -/
def loadable? (name text : String) (h : Heap) : Option (Value × Heap) :=
  match Bridge.nameFault? (Text.bytes name) with
  | some _ => none
  | none =>
    match Lua.Library.loadSource (Text.bytes name) (Text.bytes text) none h with
    | (.ok f, h) => some (f, h)
    | (.error _, _) => none

/-- What there is to call when a module is started, if those in `names` were started before. -/
def stored? (modules : Modules) (names : List String) (name : String) (h : Heap) : Option (Value × Heap) :=
  (if name ∈ names then none else modules[name]?).bind (loadable? name · h)

/-- What starting a module comes to for the host: its function is called, or there is nothing to call. -/
def Started (s : Script.Setting Thing) (found : Option (Value × Heap)) (w : Vm Thing)
    (r : Script.Result Thing Unit) : Prop :=
  match found with
  | some (f, h) =>
    let (r', w') := Script.call s f [] ⟨h, w.host, w.meter⟩
    r = (r'.map fun _ => (), w')
  | none => ∃ e, r = (.error e, w)

/-- A machine that throws. -/
def Throws (m : Machine Api.Services) : Prop := ∃ thrown w, m.control = .throw thrown w

/-- What starting a module comes to for a script: its function is called, if the stack has room for that, or there is
nothing to call. -/
def Opens (found : Option (Value × Heap)) (w : Vm Thing) (room : Prop) (m : Machine Api.Services) : Prop :=
  match found with
  | some (f, h) => (room → m.control = .call f [] ⟨h, w.host, w.meter⟩) ∧ (¬ room → Throws m)
  | none => Throws m

theorem startModule_started (s : Script.Setting Thing) (given : String) (w : Vm Thing) :
    Started s (w.host.modules[moduleOf given]?.bind (loadable? (moduleOf given) · w.heap)) (taken (moduleOf given) w)
      (Script.startModule s given w) := by
  obtain ⟨h, host, meter⟩ := w
  unfold Script.startModule
  simp only [Bridge.takeModule]
  cases host.modules[moduleOf given]? with
  | none => exact ⟨_, rfl⟩
  | some text =>
    simp only [Option.bind_some, loadable?, Script.chunk]
    cases Bridge.nameFault? (Text.bytes (moduleOf given)) with
    | some message => exact ⟨_, rfl⟩
    | none =>
      cases hload : Lua.Library.loadSource (Text.bytes (moduleOf given)) (Text.bytes text) none h with
      | mk r h' =>
        cases r with
        | ok f => rfl
        | error message =>
          simp only [Started]
          rw [heap_of_loadFault hload]
          exact ⟨_, rfl⟩

/-- What the function behind a start of a module does first: it asks for a call of the function of the module, or it
fails. -/
def Asks (found : Option (Value × Heap)) (w : Vm Thing) (o : Lua.Outcome Api.Services (List Value)) : Prop :=
  match found with
  | some (f, h) => ∃ resume, o = .ask (.guarded f [] none) resume ⟨h, w.host, w.meter⟩
  | none => ∃ fault w', o = .fail fault w'

theorem opened_asks (name : String) (text : Option String) (w : Vm Thing) :
    Asks (text.bind (loadable? name · w.heap)) w (opened name text w) := by
  obtain ⟨h, host, meter⟩ := w
  cases text with
  | none => exact ⟨_, _, rfl⟩
  | some text =>
    simp only [Option.bind_some, loadable?, opened, Bridge.load]
    cases Bridge.nameFault? (Text.bytes name) with
    | some message => exact ⟨_, _, rfl⟩
    | none =>
      cases hload : Lua.Library.loadSource (Text.bytes name) (Text.bytes text) none h with
      | mk r h' =>
        cases r with
        | ok f =>
          simp only [bind, Native.create, Lua.Outcome.bind, hload]
          exact ⟨_, rfl⟩
        | error message =>
          simp only [bind, Native.create, Lua.Outcome.bind, hload]
          exact ⟨_, _, rfl⟩

theorem opens_of_asks {found : Option (Value × Heap)} {w : Vm Thing} {o : Lua.Outcome Api.Services (List Value)}
    (h : Asks found w o) (natives : Lua.Natives Api.Services) (runner : Lua.Runner)
    (stack : Lua.Stack Api.Services) :
    Opens found w (stack.natives ≠ Machine.nativeLimit) (Machine.step natives ⟨.look runner o, stack⟩) := by
  cases found with
  | none =>
    obtain ⟨fault, w', rfl⟩ := h
    exact ⟨_, _, rfl⟩
  | some found =>
    obtain ⟨resume, rfl⟩ := h
    simp only [Opens, Machine.step, Machine.look]
    split
    · next hfull => exact ⟨fun hroom => absurd hfull hroom, fun _ => ⟨_, _, rfl⟩⟩
    · next hroom => exact ⟨fun _ => rfl, fun hfull => absurd hroom hfull⟩

/-- A script that starts a module takes it out first. -/
theorem requires_step {m : Machine Api.Services} {given : String} (hrequires : Requires m given) (policy : Policy) :
    m.step (t.setting policy).natives = ⟨.look (.function (.host .require))
      (opened (moduleOf given) m.world.host.modules[moduleOf given]? (taken (moduleOf given) m.world)), m.stack⟩ := by
  obtain ⟨args, w, hcontrol, hgiven⟩ := hrequires
  obtain ⟨control, stack⟩ := m
  obtain rfl : control = .call (.host .require) args w := hcontrol
  have hlooks : Machine.step (t.setting policy).natives ⟨.call (.host .require) args w, stack⟩ =
      ⟨.look (.function (.host .require)) (opened (moduleOf given) w.host.modules[moduleOf given]?
        (taken (moduleOf given) w)), stack⟩ := by
    rw [← requireModule_eq w hgiven]
    rfl
  exact hlooks

/-- A script that starts a module calls its function, two steps later. -/
theorem require_opens {m : Machine Api.Services} {given : String} (hrequires : Requires m given)
    (policy policy' : Policy) :
    Opens (m.world.host.modules[moduleOf given]?.bind (loadable? (moduleOf given) · m.world.heap))
      (taken (moduleOf given) m.world) (m.stack.natives ≠ Machine.nativeLimit)
      ((m.step (t.setting policy).natives).step (t.setting policy').natives) := by
  rw [requires_step hrequires]
  have hasks := opened_asks (moduleOf given) m.world.host.modules[moduleOf given]? (taken (moduleOf given) m.world)
  exact opens_of_asks hasks _ _ m.stack

/-! ## The entry -/

/-- A start that reaches the entry: the package is set up, and before anything else of it runs the entry is started
under the allowance of the phase. -/
inductive Entered (t : Terms) (policy : Policy) (source : Source) (entry : String) : Vm Thing → Outcome → Prop
  | entered {i : Instance} {heap : Heap} {a : Activity} {budget : Effective} (hsource : i.source = source)
    (hsetUp : SetUp t source.modules a)
    (hhistory : History t [] a (.idle [] ⟨heap, i.services, some (Script.meterOf .init budget)⟩))
    (hheap : i.heap = some heap) :
    Entered t policy source entry ⟨heap, i.services, some (Script.meterOf .init budget)⟩
      (i.runScripts (t.setting policy)
        (Script.limited .init budget (Script.startModule (t.setting policy) entry)))

theorem Entered.stands {policy : Policy} {source : Source} {entry : String} {w : Vm Thing} {o : Outcome}
    (h : Entered t policy source entry w o) : Stands source.modules [] (.idle [] w) := by
  cases h with
  | entered hsource hsetUp hhistory hheap => exact stands_of_history hsetUp hhistory

/-- Between setting a package up and starting its entry the host does nothing that scripts could notice. -/
theorem enter_entered {policy : Policy} {i : Instance} {w : Vm Thing} {services : Api.Services} (entry : String)
    (hfresh : services.callbacks = ∅) (hbare : services.objects = #[])
    (hready : Instance.setUp (t.setting policy) t i.source.modules services = (.ok (), w)) :
    ∃ w', Entered t policy i.source entry w'
      (Instance.enter t policy entry
        { i with stage := .running, heap := some (Instance.handOver w).1, services := (Instance.handOver w).2 }) := by
  unfold Instance.enter
  generalize hnoted : Instance.note _ _ _ = noted
  have hsource : noted.source = i.source := by
    rw [← hnoted]
    rfl
  have hheap : noted.heap = some (Instance.handOver w).1 := by
    rw [← hnoted]
    rfl
  have hkept : kept (noted.services.trustValue policy Phase.init.capability).2 = kept (Instance.handOver w).2 := by
    rw [Services.trustValue_keeps (f := kept) policy _ (fun _ _ => rfl), ← hnoted]
    rfl
  have hhistory : History t [] (.idle [] w) (.idle [] ⟨(Instance.handOver w).1,
      (noted.services.trustValue policy Phase.init.capability).2,
      some (Script.meterOf .init (noted.services.trustValue policy Phase.init.capability).1)⟩) :=
    ((History.refl _).tail (handOver_does w)).tail (.host rfl hkept)
  exact ⟨_, .entered (i := { noted with services := (noted.services.trustValue policy Phase.init.capability).2 })
    hsource (.ready hfresh hbare hready) hhistory hheap⟩

/-- A start either fails because the package cannot be set up, or it reaches the entry. -/
theorem start_entered (t : Terms) {i : Instance} (hcreated : i.stage = .created) (hfresh : i.services.callbacks = ∅)
    (hbare : i.services.objects = #[]) {entry : String} (hentry : i.source.resolveEntry = .ok entry)
    (policy : Policy) :
    (∃ e w, Instance.setUp (t.setting policy) t i.source.modules i.services = (.error e, w) ∧
      (i.start t policy).1 = .error (.setup i.source.name e.message)) ∨
      ∃ w, Entered t policy i.source entry w (i.start t policy) := by
  obtain ⟨source, stage, heap, services, lastError⟩ := i
  unfold Instance.start Instance.during
  rw [if_pos hcreated]
  simp only at hfresh hbare hentry ⊢
  rw [hentry]
  simp only
  cases hready : Instance.setUp (t.setting policy) t source.modules services with
  | mk r w =>
    cases r with
    | error e => exact .inl ⟨e, w, rfl, rfl⟩
    | ok => exact .inr (enter_entered (i := ⟨source, stage, heap, services, lastError⟩) entry hfresh hbare hready)

/-- Where no module is stored under the name of the entry without the ending, a start that reaches the entry fails. -/
theorem Entered.refused {policy : Policy} {source : Source} {entry : String} {w : Vm Thing} {o : Outcome}
    (h : Entered t policy source entry w o) (hmissing : source.modules[moduleOf entry]? = none) :
    ∃ line, o.1 = .error (.script source.name ("runtime error: " ++ Bridge.unknownModule (moduleOf entry)) line) := by
  have hpending : w.host.modules[moduleOf entry]? = none := by
    rw [← hmissing]
    exact h.stands.pending (moduleOf entry)
  cases h with
  | @entered i heap a budget hsource hsetUp hhistory hheap =>
    obtain ⟨source', stage, heap', services, lastError⟩ := i
    obtain rfl : source' = source := hsource
    obtain rfl : heap' = some heap := hheap
    simp only at hpending
    simp only [Instance.runScripts, Script.limited, Script.startModule, Bridge.takeModule, hpending]
    exact ⟨_, rfl⟩

/-! ## Runs -/

/-- What a history leaves is what there is to call. -/
theorem Stands.stored {modules : Modules} {names : List String} {a : Activity} (h : Stands modules names a)
    (name : String) (heap : Heap) :
    stored? modules names name heap = a.world.host.modules[name]?.bind (loadable? name · heap) := by
  rw [stored?, h.pending name]

/-- **A module runs the text that is stored under its name without the ending.**  A start that reaches the entry runs
the text stored under the name of the entry without `.lua`, before anything else of the package.  The first time that
any script starts a module by some name, it runs the text stored under that name without `.lua`; later, and where
there is no such text or it cannot be loaded, it gets an error, and nothing runs in its place.  A name that lacks the
ending stands for itself. -/
theorem modules_run_as_stored (t : Terms) (source : Source) :
    (∀ entry, source.resolveEntry = .ok entry → ∀ policy generation policy',
      let i := Instance.new t policy generation source
      (∃ e w, Instance.setUp (t.setting policy') t source.modules i.services = (.error e, w) ∧
        (i.start t policy').1 = .error (.setup source.name e.message)) ∨
        ∃ w, Entered t policy' source entry w (i.start t policy') ∧
          Started (t.setting policy') (stored? source.modules [] (moduleOf entry) w.heap) (taken (moduleOf entry) w)
            (Script.startModule (t.setting policy') entry w)) ∧
    (∀ a names todo m given, SetUp t source.modules a → History t names a (.running todo m) → Requires m given →
      ∀ policy policy', Opens (stored? source.modules names (moduleOf given) m.world.heap)
        (taken (moduleOf given) m.world) (m.stack.natives ≠ Machine.nativeLimit)
        ((m.step (t.setting policy).natives).step (t.setting policy').natives)) ∧
    ∀ name, (∃ stem, name = stem ++ ".lua" ∧ moduleOf name = stem) ∨
      (∀ stem, name ≠ stem ++ ".lua") ∧ moduleOf name = name := by
  refine ⟨fun entry hentry policy generation policy' => ?_, fun a names todo m given hsetUp hhistory hrequires policy
    policy' => ?_, fun name => ?_⟩
  · obtain ⟨-, hfresh, hbare⟩ := (Lived.new (t := t) policy generation source).created rfl
    refine (start_entered t rfl hfresh hbare hentry policy').imp_right fun ⟨w, hentered⟩ => ⟨w, hentered, ?_⟩
    have hstands : Stands source.modules [] (.idle [] w) := hentered.stands
    rw [hstands.stored]
    exact startModule_started _ entry w
  · rw [(stands_of_history hsetUp hhistory).stored]
    exact require_opens hrequires policy policy'
  · by_cases hending : ∃ stem, name = stem ++ ".lua"
    · obtain ⟨stem, rfl⟩ := hending
      exact .inl ⟨stem, rfl, moduleOf_append stem⟩
    · have hname : ∀ stem, name ≠ stem ++ ".lua" := fun stem heq => hending ⟨stem, heq⟩
      exact .inr ⟨hname, moduleOf_eq_self hname⟩

/-! ## Packages that start -/

/-- A package of nobody. -/
def nobody (modules : Modules) (entry : String) : Source := { name := "", principal := "", modules, entry }

/-- The services of a package that was just made, whatever its modules are. -/
def freshServices : Api.Services := .new "" "" 0 unlimited.limits unlimited.reply default

/-- What the sandbox script leaves. -/
def freshBoot : Script.Result Thing (List Value) :=
  Script.call (unlimited.setting default) (.closure 0) []
    ⟨Script.loadedSandbox (Script.emptyHeap 0), freshServices, none⟩

/-- What the host then puts in. -/
def freshInstall : Script.Result Thing Unit := Script.install freshBoot.2

/-- A package with some modules that is set up. -/
def freshWorld (modules : Modules) : Vm Thing :=
  Script.installRequire ⟨freshInstall.2.heap, { freshInstall.2.host with modules }, freshInstall.2.meter⟩

/-- Nothing stands in the way of a package that was just made. -/
theorem fresh_ready : (Script.emptyHeap 0).closures.size = 0 ∧ freshBoot.1.toBool ∧ freshInstall.1.toBool := by
  refine ⟨?_, ?_, ?_⟩ <;> decide +kernel

theorem modules_freshWorld (modules : Modules) : (freshWorld modules).host.modules = modules := rfl

theorem setUp_fresh (modules : Modules) :
    Instance.setUp (unlimited.setting default) unlimited modules freshServices = (.ok (), freshWorld modules) := by
  obtain ⟨hempty, hbooted, hinstalled⟩ := fresh_ready
  have hboot : Script.boot (unlimited.setting default) Script.builtinSandbox 0 freshServices =
      (.ok (), freshBoot.2) :=
    boot_of_call (congrArg Value.closure hempty) (r := freshBoot) (by unfold freshBoot; exact Eq.refl _) hbooted
  exact setUp_of_install hboot (eq_ok_of_toBool hinstalled)

theorem opened_fresh (modules : Modules) : Opened unlimited modules (.idle [] (freshWorld modules)) := by
  have hnew : Lived unlimited (nobody modules "") (.new unlimited default 0 (nobody modules "")) := .new default 0 _
  obtain ⟨-, hfresh, hbare⟩ := hnew.created rfl
  exact .ready hfresh hbare (hnew.unasked rfl) (setUp_fresh modules)

/-- The script of a module without a name, some steps after the host started it. -/
def freshAt (modules : Modules) (steps : Nat) (cs : List Char) : Machine Api.Services :=
  let w := freshWorld modules
  Machine.run (unlimited.setting default).natives steps
    (.ofCall (loaded cs w).1 [] ⟨(loaded cs w).2.heap, (taken "" w).host, w.meter⟩)

/-- The host starts that script if it is a program. -/
theorem fresh_goes {modules : Modules} {cs : List Char} (hstored : modules[""]? = some (String.ofList cs))
    (hhead : (Text.utf8 cs).head? ≠ some 0x1B)
    (hparsed : (Script.parseLexemes ByteArray.empty (Script.scanChars cs)).toBool)
    (hmain : (imageOf cs).protos.back?.isSome) (steps : Nat) :
    Relation.ReflTransGen (Goes unlimited) (.idle [] (freshWorld modules))
      (.running [] (freshAt modules steps cs)) := by
  have hname : moduleOf "" = "" := by decide +kernel
  have htext : (freshWorld modules).host.modules[moduleOf ""]? = some (String.ofList cs) := by
    rw [hname, modules_freshWorld]
    exact hstored
  have hload : Lua.Library.loadSource (Text.bytes (moduleOf "")) (Text.bytes (String.ofList cs)) none
      (freshWorld modules).heap =
        (.ok (loaded cs (freshWorld modules)).1, (loaded cs (freshWorld modules)).2.heap) := by
    rw [hname]
    exact loadSource_loaded hhead hparsed hmain _
  have hdoes : Does unlimited _ (.idle [] (freshWorld modules)) (.running [] _) := .enter htext hload
  have henter := hdoes.goes trivial
  rw [hname] at henter
  unfold freshAt
  exact .head henter (run_goes steps _)

/-- A package whose only module has a name with the ending. -/
def suffixed : Source := nobody ((∅ : Modules).insert "main.lua" "print('hi')") "main"

/-- Its entry is that module, but it is not run. -/
theorem suffixed_refused : suffixed.resolveEntry = .ok "main.lua" ∧
    suffixed.modules["main.lua"]? = some "print('hi')" ∧
    ∃ line, ((Instance.new unlimited default 0 suffixed).start unlimited default).1 =
      .error (.script "" "runtime error: module 'main' is unknown or has already been required" line) := by
  have hentry : suffixed.resolveEntry = .ok "main.lua" := rfl
  have hname : moduleOf "main.lua" = "main" := moduleOf_append "main"
  have hmissing : suffixed.modules["main"]? = none := by decide +kernel
  refine ⟨hentry, by decide +kernel, ?_⟩
  obtain ⟨-, hfresh, hbare⟩ := (Lived.new (t := unlimited) default 0 suffixed).created rfl
  obtain ⟨e, w, hfails, -⟩ | ⟨w, hentered⟩ := start_entered unlimited rfl hfresh hbare hentry default
  · cases (setUp_fresh suffixed.modules).symm.trans hfails
  · have hrefused := hentered.refused (by rw [hname]; exact hmissing)
    rw [hname] at hrefused
    exact hrefused

/-! ## A script that starts a module -/

/-- A script that starts another module of its package. -/
def starting : String := "require('part')"

/-- A package of that script and another one. -/
def paired : Source := nobody (((∅ : Modules).insert "" starting).insert "part" "") ""

/-- The name of the module that a machine is about to start. -/
def required? (m : Machine Api.Services) : Option String :=
  match m.control with
  | .call (.host .require) args _ => (Bridge.textOf? (args.headD .nil)).toOption
  | _ => none

theorem requires_of_required? {m : Machine Api.Services} {given : String} (h : required? m = some given) :
    Requires m given := by
  unfold required? at h
  split at h
  · next args w hcontrol =>
    cases hgiven : Bridge.textOf? (args.headD .nil) with
    | error message =>
      rw [hgiven] at h
      cases h
    | ok name =>
      rw [hgiven] at h
      cases h
      exact ⟨args, w, hcontrol, hgiven⟩
  · cases h

/-- The script four steps after the host started it. -/
def pairedAt (cs : List Char) : Machine Api.Services := freshAt paired.modules 4 cs

theorem starting_chars : ∃ cs, starting = String.ofList cs ∧ (Text.utf8 cs).head? ≠ some 0x1B ∧
    (Script.parseLexemes ByteArray.empty (Script.scanChars cs)).toBool ∧ (imageOf cs).protos.back?.isSome ∧
    required? (pairedAt cs) = some "part" ∧ (pairedAt cs).stack.natives ≠ Machine.nativeLimit ∧
    (pairedAt cs).world.host.modules["part"]? = some "" := by
  refine ⟨_, rfl, ?_, ?_, ?_, ?_, ?_, ?_⟩ <;> decide +kernel

theorem setUp_paired : SetUp unlimited paired.modules (.idle [] (freshWorld paired.modules)) :=
  (opened_fresh paired.modules).setUp

/-- The host starts the script, which then is about to start the other module. -/
theorem paired_reaches : ∃ m,
    Relation.ReflTransGen (Acts unlimited) (.idle [] (freshWorld paired.modules)) (.running [] m) ∧
      required? m = some "part" ∧ m.stack.natives ≠ Machine.nativeLimit ∧
      m.world.host.modules["part"]? = some "" := by
  obtain ⟨cs, htext, hhead, hparsed, hmain, hreached⟩ := starting_chars
  have hstored : paired.modules[""]? = some (String.ofList cs) := by
    rw [← htext]
    decide +kernel
  exact ⟨pairedAt cs, acts_of_path (fresh_goes hstored hhead hparsed hmain 4), hreached⟩

/-- The other module can be loaded. -/
theorem part_loadable (h : Heap) : (loadable? "part" "" h).isSome := by
  have hcode : (((Script.parseLexemes (Text.bytes "part") (Script.scanChars [])).toOption.map
      Lua.Compiler.compile).bind (·.protos.back?)).isSome := by decide +kernel
  obtain ⟨proto, hproto⟩ := Option.isSome_iff_exists.1 hcode
  obtain ⟨image, himage, hback⟩ := Option.bind_eq_some_iff.1 hproto
  have hname : Bridge.nameFault? (Text.bytes "part") = none := by decide +kernel
  have hloads := Script.loadSource_ofList (by decide) himage hback h
  unfold loadable?
  rw [hname]
  simp only
  rw [show "" = String.ofList [] from rfl, hloads]
  rfl

/-- The host starts the script, and the script starts the other module. -/
theorem paired_runs_part : paired.resolveEntry = .ok "" ∧
    (∃ w, Entered unlimited default paired "" w
      ((Instance.new unlimited default 0 paired).start unlimited default)) ∧
    ∃ a names m, SetUp unlimited paired.modules a ∧ History unlimited names a (.running [] m) ∧ Requires m "part" ∧
      ∃ f w, ((m.step (unlimited.setting default).natives).step (unlimited.setting default).natives).control =
        .call f [] w := by
  obtain ⟨hentry, hrequire, -⟩ := modules_run_as_stored unlimited paired
  have hresolved : paired.resolveEntry = .ok "" := by decide +kernel
  refine ⟨hresolved, ?_, ?_⟩
  · obtain ⟨e, w, hfails, -⟩ | ⟨w, hentered, -⟩ := hentry "" hresolved default 0 default
    · cases (setUp_fresh paired.modules).symm.trans hfails
    · exact ⟨w, hentered⟩
  · obtain ⟨m, hreaches, hrequired, hroom, hpending⟩ := paired_reaches
    obtain ⟨names, hhistory⟩ := exists_history hreaches
    have hpart : moduleOf "part" = "part" := by decide +kernel
    obtain ⟨⟨f, h⟩, hloads⟩ := Option.isSome_iff_exists.1 (part_loadable m.world.heap)
    have hfound : stored? paired.modules names (moduleOf "part") m.world.heap = some (f, h) := by
      have hstored := (stands_of_history setUp_paired hhistory).stored "part" m.world.heap
      simp only [Activity.world, hpending, Option.bind_some] at hstored
      rw [hpart, hstored, hloads]
    have hopens := hrequire _ names [] m "part" setUp_paired hhistory (requires_of_required? hrequired) default default
    rw [hfound] at hopens
    exact ⟨_, names, m, setUp_paired, hhistory, requires_of_required? hrequired, f, _, hopens.1 hroom⟩

end ScriptWarden.Package
