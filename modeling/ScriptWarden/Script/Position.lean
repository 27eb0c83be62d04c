import ScriptWarden.Text.Blank
import ScriptWarden.Text.Unsigned
set_option autoImplicit false

/-!
# Script: positions in error texts

The text of an error that a script raised starts with where it was raised: the name of the chunk in
brackets, a colon, the line and another colon.  `errorLine?` finds the line again.
-/

namespace ScriptWarden.Script

/-- What follows the first bracket with a colon behind it. -/
def afterBracket? : List Char → Option (List Char)
  | [] => none
  | ']' :: ':' :: rest => some rest
  | _ :: rest => afterBracket? rest

/-- The line in the text of an error: the number between the first `]:` and the next colon. -/
def errorLine? (message : String) : Option Nat := do
  let rest ← afterBracket? message.toList
  if rest.contains ':' then
    Text.unsigned? 32 (Text.trimChars (rest.takeWhile (· ≠ ':')))
  else none

end ScriptWarden.Script
