import ScriptWarden.Config
import ScriptWarden.Failure
import ScriptWarden.Package.Source
import ScriptWarden.Script.Position
import ScriptWarden.Script.Sandbox
set_option autoImplicit false

/-!
# Package: instances

One load of a package, from its creation to its end.  It is created with its modules, started once, then
told of ticks, frames and other events until it is unloaded.  An error that no script caught ends it at
once; what it has written and why it failed can still be asked for.
-/

namespace ScriptWarden.Package

open Trust (Policy)

/-- What every package of a host runs under. -/
structure Terms where
  limits : Limits
  /-- Bytes of one package's scripts; none at all mean that there is no limit. -/
  memory : Nat
  /-- What runs before any code of a package. -/
  sandbox : String := Script.builtinSandbox
  /-- Steps after which a run is given up, in case nothing else ends it. -/
  fuel : Nat := 0x1000000000000000
  /-- When tables with a finalizer are let go. -/
  collector : Lua.Collector := fun _ => none
  /-- The answer of the host to a request, if it has one at once. -/
  reply : Host.Request → Nat → Option Host.Completion := fun _ _ => none

/-- The terms of a configuration. -/
def Terms.ofConfig (c : Config) (sandbox : String := Script.builtinSandbox) : Terms :=
  { limits := ⟨c.logEntries, c.textureSize, c.texturePixels⟩, memory := c.memoryBytes, sandbox }

/-- What scripts run under while a policy is in force. -/
def Terms.setting (t : Terms) (policy : Policy) : Script.Setting Api.Thing :=
  { registry := Api.surface, policy, fuel := t.fuel, collector := t.collector }

/-- One load of a package. -/
structure Instance where
  source : Source
  stage : Stage := .created
  /-- The memory of the scripts, as long as any of them can run. -/
  heap : Option Lua.Heap := none
  services : Api.Services
  /-- Why it failed. -/
  lastError : Option String := none

/-- What an operation gives, and what becomes of the instance. -/
abbrev Outcome := Except Failure Unit × Instance

namespace Instance

/-- A load that has not been started. -/
def new (t : Terms) (policy : Policy) (generation : Nat) (source : Source) : Instance :=
  { source
    services := .new source.name source.principal generation t.limits t.reply policy }

/-- What the package is called. -/
def name (i : Instance) : String := i.source.name

/-- A line for the operator about the package. -/
def note (i : Instance) (line : String → Diagnostic) (text : String) : Instance :=
  { i with services := i.services.note (line ("[sandbox][" ++ i.name ++ "] " ++ text)) }

/-! ## Memory -/

/-- Give what scripts printed to the world outside. -/
def handOver (w : Script.Vm Api.Thing) : Lua.Heap × Api.Services :=
  let ⟨heap, services, _⟩ := w
  if heap.printed.isEmpty then (heap, services)
  else
    let printed := heap.printed
    ({ heap with printed := ByteArray.empty }, services.emit (.printed printed))

/-- The services after a run that came to a result. -/
def heed (result : Except Script.Error Unit) (services : Api.Services) : Api.Services :=
  match result with
  | .error .exhausted => services.giveUp
  | _ => services

/-- Let go of the memory of the scripts.  Finalizers that were never called run now. -/
def release (s : Script.Setting Api.Thing) (i : Instance) : Instance :=
  match i with
  | ⟨source, stage, some heap, services, lastError⟩ =>
    let (r, w) := Script.release s ⟨heap, services, none⟩
    let (_, services) := handOver w
    ⟨source, stage, none, heed r services, lastError⟩
  | i => i

/-! ## Failing -/

/-- No script is told of anything any more. -/
def fail (i : Instance) (reason : String) : Instance :=
  { i with
    stage := .faulted
    services := i.services.shutdown
    lastError := some reason }

/-- The package could not be set up. -/
def failSetup (s : Script.Setting Api.Thing) (i : Instance) (e : Script.Error) : Outcome :=
  let reason := e.message
  let i := (i.note .error ("setup failed: " ++ reason)).fail reason
  let left := i.release s
  (.error (.setup i.name reason), { left with services := heed (.error e) left.services })

/-- A script failed.  The memory goes while the package still counts as alive. -/
def fault (s : Script.Setting Api.Thing) (i : Instance) (e : Script.Error) : Outcome :=
  let message := e.message
  let i := i.note .error ("faulted: " ++ message)
  let i := { i with services := i.services.pushLog "error" message }
  let left := i.release s
  (.error (.script i.name message (Script.errorLine? message)),
    { left with services := heed (.error e) left.services }.fail message)

/-- Do something that only one stage allows. -/
def during (i : Instance) (stage : Stage) (action : String) (run : Instance → Outcome) : Outcome :=
  if i.stage = stage then run i else (.error (.stage i.name action i.stage), i)

/-- Let scripts run.  Without memory there are none. -/
def runScripts {α : Type} (s : Script.Setting Api.Thing) (i : Instance)
    (run : Script.Vm Api.Thing → Script.Result Api.Thing α) : Outcome :=
  match i with
  | ⟨source, stage, some heap, services, lastError⟩ =>
    let (r, w) := run ⟨heap, services, none⟩
    let ⟨heap, services⟩ := handOver w
    let i : Instance := ⟨source, stage, some heap, services, lastError⟩
    match r with
    | .ok _ => (.ok (), i)
    | .error e => i.fault s e
  | i => (.ok (), i)

/-! ## Starting -/

/-- Everything that a package finds when its own code starts. -/
def setUp (s : Script.Setting Api.Thing) (t : Terms) (modules : Modules)
    (services : Api.Services) : Script.Result Api.Thing Unit :=
  match Script.boot s t.sandbox t.memory services with
  | (.error e, w) => (.error e, w)
  | (.ok (), w) =>
    match Script.install w with
    | (.error e, w) => (.error e, w)
    | (.ok (), ⟨heap, services, meter⟩) =>
      (.ok (), Script.installRequire ⟨heap, { services with modules }, meter⟩)

/-- Run the entry module of a package that is set up. -/
def enter (t : Terms) (policy : Policy) (entry : String) (i : Instance) : Outcome :=
  let i := i.note .info ("starting entry '" ++ entry ++ "' for " ++ i.source.principal)
  let (budget, services) := i.services.trustValue policy Phase.init.capability
  runScripts (t.setting policy) { i with services } fun w =>
    Script.limited .init budget (Script.startModule (t.setting policy) entry) w

/-- Set the package up and run its entry module. -/
def start (t : Terms) (policy : Policy) (i : Instance) : Outcome :=
  i.during .created "start" fun i =>
    match i.source.resolveEntry with
    | .error e =>
      let i := i.note .error e.message
      (.error e, { i with stage := .faulted, lastError := some e.message })
    | .ok entry =>
      let ⟨source, stage, _, services, lastError⟩ := i
      let (r, w) := setUp (t.setting policy) t source.modules services
      let ⟨ready, services⟩ := handOver w
      match r with
      | .error e => failSetup (t.setting policy) ⟨source, stage, some ready, services, lastError⟩ e
      | .ok () => enter t policy entry ⟨source, .running, some ready, services, lastError⟩

/-! ## Events -/

/-- Call what the scripts registered for an event. -/
def dispatch (t : Terms) (policy : Policy) (e : Event) (i : Instance) : Outcome :=
  i.during .running "dispatch" fun i =>
    let (budget, services) := i.services.trustValue policy e.phase.capability
    runScripts (t.setting policy) { i with services } fun w =>
      Script.limited e.phase budget
        (Script.fire (t.setting policy) e.name (Script.eventArguments e)) w

/-- Dispatch the answers that wait, the oldest first, up to the first error. -/
def dispatchWaiting (t : Terms) (policy : Policy) : Nat → Instance → Outcome
  | 0, i => (.ok (), i)
  | n + 1, i =>
    match i.services.mailbox.next? with
    | none => (.ok (), i)
    | some (c, mailbox) =>
      match { i with services := { i.services with mailbox } }.dispatch t policy
          (.networkResponse c.request c.status c.body) with
      | (.error e, i) => (.error e, i)
      | (.ok (), i) => dispatchWaiting t policy n i

/-- The most answers that one tick can bring: those that wait, and one for each request that the
budget still allows, since a host may answer at once. -/
def mostAnswers (i : Instance) : Nat :=
  i.services.mailbox.waiting.length + (i.services.gate.remaining .networkCall).toNat

/-- One tick: budgets, answers, then the event itself. -/
def tick (t : Terms) (policy : Policy) (i : Instance) : Outcome :=
  i.during .running "tick" fun i =>
    let i := { i with services := i.services.tickQuotas policy }
    match dispatchWaiting t policy i.mostAnswers i with
    | (.error e, i) => (.error e, i)
    | (.ok (), i) => i.dispatch t policy .tick

/-- One frame; images that it changed are uploaded. -/
def render (t : Terms) (policy : Policy) (delta : Float) (i : Instance) : Outcome :=
  i.during .running "render" fun i =>
    match i.dispatch t policy (.render delta) with
    | (.error e, i) => (.error e, i)
    | (.ok (), i) => (.ok (), { i with services := i.services.uploadDirty.2 })

/-! ## The end -/

/-- What is left of a package runs under when nothing else is said. -/
def lastSetting : Script.Setting Api.Thing :=
  { registry := Api.surface, policy := default, fuel := 0x1000000000000000 }

/-- End the package, whatever its stage.  Finalizers run in a package that is no longer alive. -/
def unload (i : Instance) (s : Script.Setting Api.Thing := lastSetting) : Instance :=
  if i.stage = .unloaded then i
  else
    let i := { i with services := i.services.shutdown }
    let i := i.release s
    let i := { i with
      stage := .unloaded
      services := { i.services with mailbox := i.services.mailbox.drain.2 } }
    i.note .info "unloaded"

end Instance

end ScriptWarden.Package
