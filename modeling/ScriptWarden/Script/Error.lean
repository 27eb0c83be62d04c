import ScriptWarden.Bridge.Natives
set_option autoImplicit false

/-!
# Script: errors

What the host learns of an error that nobody in a script caught.
-/

namespace ScriptWarden.Script

open Lua (Bytes)

/-- An uncaught error. -/
inductive Error where
  /-- The text is no program. -/
  | malformed (message : String)
  /-- A script raised a value, whose text this is. -/
  | raised (text : String)
  /-- A function of the host failed. -/
  | refused (message origin : String)
  | memory
  /-- The host failed outside of any script. -/
  | host (message : String)
  /-- The run was given up. -/
  | exhausted
  deriving DecidableEq, Repr, Inhabited

/-- The trace behind an error, as far as its first place. -/
def trace (origin : String) : String := "\nstack traceback:\n\t" ++ origin ++ ": in ?"

/-- The words for an error. -/
def Error.message : Error → String
  | .malformed message => "syntax error: " ++ message
  | .raised text => "runtime error: " ++ text ++ trace "[C]"
  | .refused message origin => message ++ trace origin
  | .memory => "memory error: not enough memory"
  | .host message => message
  | .exhausted => "the run was given up"

end ScriptWarden.Script
