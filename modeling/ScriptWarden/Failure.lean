set_option autoImplicit false

/-!
# Failures

What goes wrong on the host's side, with the wording it is reported in.  Mistakes of scripts show up
here only when nobody in the script caught them.
-/

namespace ScriptWarden

/-- The stages in the life of a package. -/
inductive Stage where
  | created
  | sandboxed
  | running
  | faulted
  | unloaded
  deriving DecidableEq, Repr, Inhabited

/-- The name of a stage. -/
def Stage.name : Stage → String
  | .created => "created"
  | .sandboxed => "sandboxed"
  | .running => "running"
  | .faulted => "faulted"
  | .unloaded => "unloaded"

/-- The name of a stage as log lines show it. -/
def Stage.label : Stage → String
  | .created => "Created"
  | .sandboxed => "Sandboxed"
  | .running => "Running"
  | .faulted => "Faulted"
  | .unloaded => "Unloaded"

/-- Why an operation of the host did not succeed. -/
inductive Failure where
  /-- The sandbox of a package could not be set up. -/
  | setup (package reason : String)
  /-- A script raised an error that nobody caught. -/
  | script (package message : String) (line : Option Nat)
  | emptyPackage (package : String)
  | missingEntry (package entry : String)
  /-- The package is not in a stage that allows the action. -/
  | stage (package action : String) (found : Stage)
  | unknownPackage (package : String)
  | auth (reason : String)
  /-- A file could not be read or written. -/
  | files
  /-- A text is not what its reader expects. -/
  | json
  /-- The backend could not be reached. -/
  | http
  deriving DecidableEq, Repr, Inhabited

/-- The wording of a failure. -/
def Failure.message : Failure → String
  | .setup package reason => "sandbox setup failed for package '" ++ package ++ "': " ++ reason
  | .script package message _ => "script error in package '" ++ package ++ "': " ++ message
  | .emptyPackage package => "package '" ++ package ++ "' supplied no modules"
  | .missingEntry package entry =>
    "package '" ++ package ++ "' has no entry module named '" ++ entry ++ "'"
  | .stage package action found =>
    "package '" ++ package ++ "' cannot " ++ action ++ " while " ++ found.label
  | .unknownPackage package => "unknown package '" ++ package ++ "'"
  | .auth reason => "authentication failed: " ++ reason
  | .files => "IO error"
  | .json => "JSON error"
  | .http => "HTTP error"

end ScriptWarden
