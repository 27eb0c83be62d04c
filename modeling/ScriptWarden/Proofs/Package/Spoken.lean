import ScriptWarden.Proofs.Package.Mediation
import ScriptWarden.Proofs.Package.Modules
set_option autoImplicit false

/-!
# Packages: packages of one script

A package with one module and nothing else runs its script when it is started; where that comes to its end, the package
runs (`start_spoken`).  So what is known of all packages can be looked at in one whose script is given as a text.
-/

namespace ScriptWarden.Package

open Api (Thing)
open Bridge (moduleOf)
open Lua (Heap Value)
open Script (Vm)
open Trust (Policy)

/-! ## Starts that run to their end -/

/-- An instance after the host asked for the value of a phase. -/
def consulted (policy : Policy) (phase : Phase) (i : Instance) : Instance :=
  { i with services := (i.services.trustValue policy phase.capability).2 }

section Starts

variable {t : Terms} {policy : Policy} {heap : Heap}

/-- Scripts that end without an error leave their memory and the services to the instance. -/
theorem runScripts_ran {α : Type} {s : Script.Setting Thing} {i : Instance} {phase : Phase} {budget : Trust.Effective}
    {run : Vm Thing → Script.Result Thing α} {a : α} {w : Vm Thing} (hheap : i.heap = some heap)
    (hrun : run ⟨heap, i.services, some (Script.meterOf phase budget)⟩ = (.ok a, w)) :
    i.runScripts s (Script.limited phase budget run) = (.ok (), { i with
      heap := some (Instance.handOver ⟨w.heap, w.host, none⟩).1
      services := (Instance.handOver ⟨w.heap, w.host, none⟩).2 }) := by
  obtain ⟨source, stage, heap', services, lastError⟩ := i
  obtain rfl : heap' = some heap := hheap
  simp only [Instance.runScripts, Script.limited, hrun]

/-- A start runs the entry once the package is set up. -/
theorem start_of_setUp {i : Instance} (hcreated : i.stage = .created) {entry : String}
    (hentry : i.source.resolveEntry = .ok entry) {w : Vm Thing}
    (hready : Instance.setUp (t.setting policy) t i.source.modules i.services = (.ok (), w)) :
    i.start t policy = Instance.enter t policy entry { i with
      stage := .running, heap := some (Instance.handOver w).1, services := (Instance.handOver w).2 } := by
  obtain ⟨source, stage, heap, services, lastError⟩ := i
  unfold Instance.start Instance.during
  rw [if_pos hcreated]
  simp only at hentry hready ⊢
  rw [hentry]
  simp only [hready]

/-- A text that loads is called when the module that it is of is started. -/
theorem startModule_of_text {cs : List Char} {s : Script.Setting Thing} {given : String} {w : Vm Thing}
    (hname : Text.bytes (moduleOf given) = ByteArray.empty)
    (htext : w.host.modules[moduleOf given]? = some (String.ofList cs)) (hhead : (Text.utf8 cs).head? ≠ some 0x1B)
    (hparsed : (Script.parseLexemes ByteArray.empty (Script.scanChars cs)).toBool)
    (hmain : (imageOf cs).protos.back?.isSome) {vs : List Value} {w' : Vm Thing}
    (hcall : Script.call s (loaded cs w).1 [] ⟨(loaded cs w).2.heap, (taken (moduleOf given) w).host, w.meter⟩ =
      (.ok vs, w')) : Script.startModule s given w = (.ok (), w') := by
  have hfault : Bridge.nameFault? ByteArray.empty = none := by decide +kernel
  have hstarted := startModule_started s given w
  simp only [htext, Option.bind_some, loadable?, hname, hfault, loadSource_loaded hhead hparsed hmain w,
    Started] at hstarted
  rw [show (taken (moduleOf given) w).meter = w.meter from rfl, hcall] at hstarted
  exact hstarted

/-- An entry that runs to its end leaves the package running. -/
theorem enter_ran {j : Instance} (hheap : j.heap = some heap) {entry : String} {w : Vm Thing}
    (hstart : Script.startModule (t.setting policy) entry ⟨heap,
      (consulted policy .init (j.note .info
        ("starting entry '" ++ entry ++ "' for " ++ j.source.principal))).services,
      some (Script.meterOf .init (policy.resolve j.services.principal Phase.init.capability))⟩ = (.ok (), w)) :
    j.enter t policy entry = (.ok (), { j with
      heap := some (Instance.handOver ⟨w.heap, w.host, none⟩).1
      services := (Instance.handOver ⟨w.heap, w.host, none⟩).2 }) := by
  unfold Instance.enter
  generalize hnoted : j.note .info _ = noted at hstart ⊢
  have hbudget : (noted.services.trustValue policy Phase.init.capability).1 =
      policy.resolve j.services.principal Phase.init.capability := by
    rw [Api.trustValue_eq, ← hnoted]
    rfl
  rw [← hbudget] at hstart
  have hheld : (consulted policy .init noted).heap = some heap := by
    rw [← hheap, ← hnoted]
    rfl
  have hran := runScripts_ran (s := t.setting policy) hheld hstart
  rw [← hnoted] at hran ⊢
  exact hran

end Starts

/-! ## Scripts as texts -/

/-- Terms with room for a line of the log and for a small image. -/
def roomy : Terms :=
  { limits := { logEntries := 1, textureSize := 4, texturePixels := 16 }, memory := 0, fuel := 200 }

/-- A trust that allows starts, and nothing else. -/
def granting : Policy :=
  { (default : Policy) with tiers := fun _ => { overrides := (∅ : Trust.Overrides).insert .initInstructions 1000 } }

/-- A trust that allows starts, ticks and a request. -/
def trusting : Policy :=
  { (default : Policy) with tiers := fun _ => { overrides := ((∅ : Trust.Overrides).insert .initInstructions 1000
      |>.insert .tickInstructions 1000 |>.insert .networkCall 1) } }

/-- A package of one script. -/
def spoken (text : String) (name : String := "") : Source :=
  { name, principal := "", modules := (∅ : Modules).insert "" text, entry := "" }

/-- How such a package comes to be: what it is called, which load it is, and the trust under which it is made and
started. -/
structure Making where
  name : String := ""
  generation : Nat := 0
  made : Policy := default
  policy : Policy := granting

/-- Everything happens under the trust that allows ticks. -/
def trusted : Making := { made := trusting, policy := trusting }

/-- The load. -/
def Making.created (m : Making) (text : String) : Instance := .new roomy m.made m.generation (spoken text m.name)

/-- The services of such a package before anything happened to it. -/
def spokenServices (m : Making) : Api.Services := .new m.name "" m.generation roomy.limits roomy.reply m.made

/-- What the sandbox script leaves. -/
@[irreducible]
def spokenBoot (m : Making) : Script.Result Thing (List Value) :=
  Script.call (roomy.setting m.policy) (.closure 0) []
    ⟨Script.loadedSandbox (Script.emptyHeap 0), spokenServices m, none⟩

/-- What the host then puts in. -/
@[irreducible]
def spokenInstall (m : Making) : Script.Result Thing Unit := Script.install (spokenBoot m).2

/-- The package once it is set up. -/
def spokenWorld (text : String) (m : Making) : Vm Thing :=
  let installed := (spokenInstall m).2
  Script.installRequire ⟨installed.heap, { installed.host with modules := (spoken text).modules }, installed.meter⟩

/-- The package before its script is started. -/
def announced (text : String) (m : Making) : Instance :=
  let ready := Instance.handOver (spokenWorld text m)
  { m.created text with stage := .running, heap := some ready.1, services := ready.2 }

/-- Where its script is started. -/
def spokenEntry (text : String) (m : Making) : Vm Thing :=
  let i := announced text m
  ⟨(Instance.handOver (spokenWorld text m)).1,
    (consulted m.policy .init (i.note .info "starting entry '' for ")).services,
    some (Script.meterOf .init (m.policy.resolve i.services.principal Phase.init.capability))⟩

/-- What comes of the script that the characters are. -/
def spokenRun (text : String) (cs : List Char) (m : Making) : Script.Result Thing (List Value) :=
  let w := spokenEntry text m
  Script.call (roomy.setting m.policy) (loaded cs w).1 [] ⟨(loaded cs w).2.heap, (taken "" w).host, w.meter⟩

/-- The package once its script has run. -/
def running (text : String) (cs : List Char) (m : Making := {}) : Instance :=
  let w := (spokenRun text cs m).2
  let left := Instance.handOver ⟨w.heap, w.host, none⟩
  { announced text m with heap := some left.1, services := left.2 }

/-- Nothing stands in the way of such packages. -/
def SpokenReady (m : Making) : Prop :=
  (Script.emptyHeap 0).closures.size = 0 ∧ (spokenBoot m).1.toBool ∧ (spokenInstall m).1.toBool

instance (m : Making) : Decidable (SpokenReady m) := inferInstanceAs (Decidable (_ ∧ _))

theorem spokenReady_granting : SpokenReady {} := by decide +kernel

theorem spokenReady_trusted : SpokenReady trusted := by decide +kernel

theorem setUp_spoken {m : Making} (hready : SpokenReady m) (text : String) :
    Instance.setUp (roomy.setting m.policy) roomy (spoken text).modules (spokenServices m) =
      (.ok (), spokenWorld text m) := by
  obtain ⟨hempty, hbooted, hinstalled⟩ := hready
  have hboot : Script.boot (roomy.setting m.policy) Script.builtinSandbox 0 (spokenServices m) =
      (.ok (), (spokenBoot m).2) :=
    boot_of_call (congrArg Value.closure hempty) (r := spokenBoot m) (by unfold spokenBoot; exact Eq.refl _) hbooted
  have hinstall : Script.install (spokenBoot m).2 = (.ok (), (spokenInstall m).2) := by
    unfold spokenInstall at hinstalled ⊢
    exact eq_ok_of_toBool hinstalled
  exact setUp_of_install hboot hinstall

theorem handOver_modules (w : Vm Thing) : (Instance.handOver w).2.modules = w.host.modules := by
  obtain ⟨heap, services, meter⟩ := w
  unfold Instance.handOver
  simp only
  split <;> rfl

theorem modules_spokenEntry (text : String) (m : Making) :
    (spokenEntry text m).host.modules[""]? = some text := by
  have hmodules : (spokenEntry text m).host.modules = (spoken text).modules :=
    (Services.trustValue_keeps (f := Services.modules) m.policy _ (fun _ _ => rfl) _).trans
      (handOver_modules (spokenWorld text m))
  rw [hmodules]
  simp [spoken]

/-- A script that loads, and that runs to its end in its package. -/
def Speaks (cs : List Char) (m : Making := {}) : Prop :=
  (Text.utf8 cs).head? ≠ some 0x1B ∧ (Script.parseLexemes ByteArray.empty (Script.scanChars cs)).toBool ∧
    (imageOf cs).protos.back?.isSome ∧ (spokenRun (String.ofList cs) cs m).1.toBool

instance (cs : List Char) (m : Making) : Decidable (Speaks cs m) := inferInstanceAs (Decidable (_ ∧ _))

/-- Such a script leaves its package running. -/
theorem start_of_speaks {m : Making} (hready : SpokenReady m) {text : String} {cs : List Char}
    (htext : text = String.ofList cs) (h : Speaks cs m) :
    (m.created text).start roomy m.policy = (.ok (), running text cs m) := by
  subst htext
  obtain ⟨hhead, hparsed, hmain, hran⟩ := h
  have hname : moduleOf "" = "" := by decide +kernel
  have hbytes : Text.bytes (moduleOf "") = ByteArray.empty := by
    rw [hname]
    decide +kernel
  have hstored : (spokenEntry (String.ofList cs) m).host.modules[moduleOf ""]? = some (String.ofList cs) := by
    rw [hname]
    exact modules_spokenEntry _ m
  obtain ⟨vs, hvs⟩ : ∃ vs, (spokenRun (String.ofList cs) cs m).1 = .ok vs := by
    generalize (spokenRun (String.ofList cs) cs m).1 = r at hran ⊢
    cases r with
    | ok vs => exact ⟨vs, rfl⟩
    | error e => cases hran
  have hcall : Script.call (roomy.setting m.policy) (loaded cs (spokenEntry (String.ofList cs) m)).1 []
      ⟨(loaded cs (spokenEntry (String.ofList cs) m)).2.heap,
        (taken (moduleOf "") (spokenEntry (String.ofList cs) m)).host, (spokenEntry (String.ofList cs) m).meter⟩ =
      (.ok vs, (spokenRun (String.ofList cs) cs m).2) := by
    rw [hname]
    exact Prod.ext hvs rfl
  have hstarted := startModule_of_text hbytes hstored hhead hparsed hmain hcall
  rw [start_of_setUp rfl (by rfl : (spoken (String.ofList cs) m.name).resolveEntry = .ok "") (setUp_spoken hready _)]
  exact enter_ran (j := announced (String.ofList cs) m) rfl hstarted

theorem start_spoken {text : String} {cs : List Char} (htext : text = String.ofList cs) (h : Speaks cs) :
    (Instance.new roomy default 0 (spoken text)).start roomy granting = (.ok (), running text cs) :=
  start_of_speaks spokenReady_granting htext h

theorem afterAll_start (t : Terms) (i : Instance) (policy : Policy) (ops : List (Policy × Operation)) :
    afterAll t i ((policy, .start) :: ops) = afterAll t (i.start t policy).2 ops := rfl

/-! ## A script that registers a function -/

/-- A script that registers a function of its own. -/
def hearing : String := "events:register('tick', function() end)"

/-- It leaves no table with a finalizer. -/
theorem hearing_chars : ∃ cs id, hearing = String.ofList cs ∧ Speaks cs ∧
    (running hearing cs).services.callbacks["tick"]? = some [.closure id] ∧
    (running hearing cs).heap.map (·.marked) = some [] := by
  refine ⟨_, 3, rfl, ?_, ?_, ?_⟩ <;> decide +kernel

end ScriptWarden.Package
