set_option autoImplicit false

/-!
# Diagnostics

Lines for the operator's log.  The library never prints them: whatever has something to say returns
its diagnostics, and the command line writes them out.
-/

namespace ScriptWarden

/-- How loud a line is. -/
inductive Level where
  | error
  | warn
  | info
  deriving DecidableEq, Repr, Inhabited

/-- The word that stands in front of a line. -/
def Level.word : Level → String
  | .error => "ERROR"
  | .warn => "WARN"
  | .info => "INFO"

/-- One line for the operator. -/
structure Diagnostic where
  level : Level
  text : String
  deriving DecidableEq, Repr, Inhabited

namespace Diagnostic

/-- A line about something that failed. -/
def error (text : String) : Diagnostic := ⟨.error, text⟩

/-- A line about something that was mended or refused. -/
def warn (text : String) : Diagnostic := ⟨.warn, text⟩

/-- A line about ordinary progress. -/
def info (text : String) : Diagnostic := ⟨.info, text⟩

end Diagnostic

end ScriptWarden
