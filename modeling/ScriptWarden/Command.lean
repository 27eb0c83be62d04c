import ScriptWarden.Backend
import ScriptWarden.Fleet
import ScriptWarden.Host.Narration
import ScriptWarden.Package.Tree
import ScriptWarden.Trust.Record
set_option autoImplicit false

/-!
# The command

Loads the packages in some directories and lets them run, round after round, for a host that only tells
what packages make it do.  Everything the command reaches outside of itself is handed to it.
-/

namespace ScriptWarden.Command

open Package (Effect Entry Source)
open Trust (Policy)

/-- A line of the error stream. -/
inductive Line where
  | log (d : Diagnostic)
  | plain (text : String)
  deriving DecidableEq, Repr, Inhabited

/-- What the command reaches outside of itself. -/
structure Surroundings (m : Type → Type) where
  say : Line → m Unit
  /-- Write to the output. -/
  print : ByteArray → m Unit
  /-- Does a path lead anywhere? -/
  present : String → m Bool
  /-- The contents of a file. -/
  file : String → m (Option ByteArray)
  /-- A directory with everything below it. -/
  directory : String → m (Option Entry)
  /-- Write a file, and make the directories above it; tells if it worked. -/
  write : String → String → m Bool

/-! ## Arguments -/

/-- What the arguments ask for. -/
structure Request where
  directories : List String := []
  /-- Rounds to run; without it the command runs until it is stopped. -/
  rounds : Option Nat := none
  deriving DecidableEq, Repr, Inhabited

/-- The number of rounds follows this argument. -/
def roundsOption : String := "--ticks"

/-- What the operator hears about a number of rounds that is none. -/
def roundsNotice : Diagnostic :=
  .warn ("[startup] " ++ roundsOption ++ " needs a number; running until interrupted")

/-- Read arguments, after what others have asked for. -/
def Request.read (r : Request) : List String → Request × List Diagnostic
  | [] => (r, [])
  | [arg] =>
    if arg = roundsOption then (r, [roundsNotice])
    else ({ r with directories := r.directories ++ [arg] }, [])
  | arg :: next :: rest =>
    if arg = roundsOption then
      match Text.unsigned? 64 next.toList with
      | some n => { r with rounds := some n }.read rest
      | none =>
        let (r, notices) := r.read rest
        (r, roundsNotice :: notices)
    else { r with directories := r.directories ++ [arg] }.read (next :: rest)

/-- How the command is called. -/
def usage : String := "usage: package-sandbox [--ticks N] <package-dir>..."

/-- The owner of packages whose manifest names none. -/
def anonymous : String := "anonymous"

/-! ## A run -/

/-- A run that is under way. -/
structure Run where
  config : Config
  fleet : Fleet

variable {m : Type → Type} [Monad m]

/-- Something that may fail. -/
abbrev Attempt (m : Type → Type) := ExceptT Failure m

/-- Say a line. -/
def log (s : Surroundings m) (d : Diagnostic) : m Unit := s.say (.log d)

/-- Is there a backend to send requests to? -/
def hasBackend (c : Config) : Bool := !c.backend.token.isEmpty

/-- Tell something that happened.  Requests to a backend are not told. -/
def tell (s : Surroundings m) (backend : Bool) : Effect → m Unit
  | .notice d => log s d
  | .call package c =>
    match c, backend with
    | .request .., true => return ()
    | c, _ => log s (c.narrate package)
  | .printed bytes => s.print bytes
  | .unending _ => return ()

/-- Tell everything that happened. -/
def flush (s : Surroundings m) (r : Run) : m Run := do
  let (effects, fleet) := r.fleet.drain
  for e in effects do
    tell s (hasBackend r.config) e
  return { r with fleet }

/-- The text of a file. -/
def textOf (s : Surroundings m) (path : String) : Attempt m String := do
  match (← s.file path).bind String.fromUTF8? with
  | some text => return text
  | none => throw .files

/-- The configuration. -/
def readConfig (s : Surroundings m) : Option String → Attempt m Config
  | none => return {}
  | some path => do
    ExceptT.lift (log s (.info ("[config] loading " ++ path)))
    match Config.parse? (← textOf s path) with
    | some c => return c
    | none => throw .json

/-- What runs before any code of a package. -/
def readSandbox (s : Surroundings m) : Option String → Attempt m String
  | none => return Script.builtinSandbox
  | some path => do
    let text ← textOf s path
    ExceptT.lift (log s (.info ("[sandbox] using sandboxing script " ++ path)))
    return text

/-- The policy in a file, or an empty one if there is no such file. -/
def readPolicy (s : Surroundings m) (c : Config) : Attempt m Policy := do
  match c.trustFile with
  | none => return .new c.defaults
  | some path =>
    if !(← s.present path) then return .new c.defaults
    match ← s.file path with
    | none => throw .files
    | some bytes =>
      match Policy.readArchive? bytes.toList with
      | none => throw .json
      | some archive =>
        for d in Policy.archiveNotices archive do
          ExceptT.lift (log s d)
        return .ofArchive c.defaults archive

/-- The answer of the host to a request: without a backend nobody is there. -/
def replyOf (c : Config) (r : Host.Request) (id : Nat) : Option Host.Completion :=
  if hasBackend c then Backend.refusal? id r.method else some (Host.offlineAnswer id)

/-- Load the package in a directory. -/
def loadDirectory (s : Surroundings m) (r : Run) (path : String) : m Run := do
  let manifest ← s.file (Package.manifestPath path)
  let directory ← s.directory path
  match Source.ofDirectory path directory (manifest.map .file) anonymous with
  | .error e =>
    log s (.error ("[startup] " ++ path ++ ": " ++ e.message))
    return r
  | .ok source =>
    log s (source.readNotice path)
    let (result, fleet) := r.fleet.load source
    let r ← flush s { r with fleet }
    if let .error e := result then
      log s (.error ("[startup] " ++ path ++ ": " ++ e.message))
    return r

/-- Everything before the first round, given what is asked for and what there is to say about that;
`none` if nothing is asked for. -/
def open? (s : Surroundings m) (config : Option String) (request : Request)
    (notices : List Diagnostic) : Attempt m (Option Run) := do
  let config ← readConfig s config
  for d in notices do
    ExceptT.lift (log s d)
  if request.directories.isEmpty then
    s.say (.plain usage)
    return none
  let sandbox ← readSandbox s config.sandboxScript
  let policy ← readPolicy s config
  let policy := match config.localPrincipal with
    | some p => policy.withOperator p
    | none => policy
  if hasBackend config then
    ExceptT.lift (log s (.warn ("[startup] backend unreachable (continuing): " ++ Failure.http.message)))
  let terms := { Package.Terms.ofConfig config sandbox with reply := replyOf config }
  let r ← ExceptT.lift (flush s { config, fleet := .new terms policy })
  return some (← ExceptT.lift (request.directories.foldlM (loadDirectory s) r))

/-- One round. -/
def round (s : Surroundings m) (r : Run) : m Run := flush s { r with fleet := r.fleet.round }

/-! ## The loop -/

/-- What ends a wait: the next round is due, or the command is to stop. -/
inductive Wake where
  | due
  | stop
  deriving DecidableEq, Repr, Inhabited

/-- Waits for the next round, given the rounds in a second and the rounds so far. -/
abbrev Wait (m : Type → Type) := Nat → Nat → m Wake

/-- Wait for the next round and make it; `none` if the command is to stop. -/
def lap (s : Surroundings m) (wait : Wait m) (ran : Nat) (r : Run) : m (Option Run) := do
  match ← wait (max r.config.ticksPerSecond 1) ran with
  | .stop =>
    log s (.info ("[engine] interrupted after " ++ toString ran ++ " tick(s)"))
    return none
  | .due => return some (← round s r)

/-- Go on with a run that made some rounds, as far as a limit; gives the rounds that were made.  The limit
is looked at after a round. -/
def driveTo (s : Surroundings m) (wait : Wait m) (limit ran : Nat) (r : Run) : m (Nat × Run) := do
  match ← lap s wait ran r with
  | none => return (ran, r)
  | some r =>
    if limit ≤ ran + 1 then return (ran + 1, r)
    else driveTo s wait limit (ran + 1) r
termination_by limit - ran

/-- Make the rounds that are asked for; `endless` makes them if there is no limit. -/
def drive (s : Surroundings m) (wait : Wait m) (endless : Run → m (Nat × Run)) :
    Option Nat → Run → m (Nat × Run)
  | some limit, r => driveTo s wait limit 0 r
  | none, r => endless r

/-! ## From beginning to end -/

/-- What the operator hears of a package at the end. -/
def summary (i : Package.Instance) : Diagnostic :=
  .info ("[shutdown] " ++ i.name ++ " (" ++ i.source.principal ++ ") " ++ i.stage.label
    ++ ", denied \x7b" ++ ", ".intercalate (i.services.gate.denied.map (·.label)) ++ "\x7d")

/-- Everything after the last round. -/
def close (s : Surroundings m) (r : Run) (ran : Nat) : Attempt m Unit := do
  ExceptT.lift (log s (.info ("[engine] stopped after " ++ toString ran ++ " tick(s)")))
  for i in r.fleet.packages.values do
    ExceptT.lift (log s (summary i))
  let r ← ExceptT.lift (flush s { r with fleet := r.fleet.unloadAll })
  if let some path := r.config.trustFile then
    if !(← s.write path r.fleet.policy.save) then throw .files

/-- Run the command; gives the code it exits with.  `drive` makes the rounds up to a limit and counts
them. -/
def run (s : Surroundings m) (drive : Option Nat → Run → m (Nat × Run)) (config : Option String)
    (args : List String) : m UInt32 := do
  let (request, notices) := Request.read {} args
  let work : Attempt m Unit := do
    match ← open? s config request notices with
    | none => return
    | some r =>
      let (ran, r) ← drive request.rounds r
      close s r ran
  match ← work.run with
  | .ok () => return 0
  | .error e =>
    s.say (.plain ("package-sandbox: " ++ e.message))
    return 1

end ScriptWarden.Command
