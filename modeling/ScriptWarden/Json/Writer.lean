import ScriptWarden.Json.Value
set_option autoImplicit false

/-!
# Json: writing

Two layouts: on one line without a blank, and with two blanks of indentation a level.  Members keep
their order.
-/

namespace ScriptWarden.Json

/-- A hexadecimal digit, lower case. -/
def hexChar (n : Nat) : Char := Nat.digitChar (n % 16)

/-- A character inside a string. -/
def escapeChar (c : Char) : List Char :=
  if c = '"' then ['\\', '"']
  else if c = '\\' then ['\\', '\\']
  else if c = '\n' then ['\\', 'n']
  else if c = '\r' then ['\\', 'r']
  else if c = '\t' then ['\\', 't']
  else if c = Char.ofNat 8 then ['\\', 'b']
  else if c = Char.ofNat 12 then ['\\', 'f']
  else if c.toNat < 0x20 then ['\\', 'u', '0', '0', hexChar (c.toNat / 16), hexChar c.toNat]
  else [c]

/-- A quoted string. -/
def quote (s : String) : String :=
  s.foldl (fun acc c => (escapeChar c).foldl String.push acc) "\"" ++ "\""

/-- The digits of a numeral as they were written. -/
def Numeral.text (n : Numeral) : String :=
  (if n.negative then "-" else "") ++ toString n.whole
    ++ (if n.fraction.isEmpty then "" else "." ++ String.join (n.fraction.map toString))
    ++ (if n.exponent = 0 ∧ n.fraction ≠ [] then ""
        else if n.exponent = 0 then ".0" else "e" ++ toString n.exponent)

namespace Value

mutual

/-- On one line. -/
def compact : Value → String
  | .null => "null"
  | .bool true => "true"
  | .bool false => "false"
  | .int n => toString n
  | .real n => n.text
  | .string s => quote (s.getD "")
  | .array items => "[" ++ compactItems items ++ "]"
  | .object fields => "\x7b" ++ compactFields fields ++ "\x7d"

/-- Items between commas. -/
def compactItems : List Value → String
  | [] => ""
  | [v] => v.compact
  | v :: rest => v.compact ++ "," ++ compactItems rest

/-- Members between commas. -/
def compactFields : List (Option String × Value) → String
  | [] => ""
  | [(k, v)] => quote (k.getD "") ++ ":" ++ v.compact
  | (k, v) :: rest => quote (k.getD "") ++ ":" ++ v.compact ++ "," ++ compactFields rest

end

/-- A line end and the indentation of a level. -/
def lineBreak (level : Nat) : String := "\n" ++ String.ofList (List.replicate (2 * level) ' ')

mutual

/-- Indented, the value standing at a level. -/
def prettyAt (level : Nat) : Value → String
  | .array [] => "[]"
  | .array items => "[" ++ prettyItems (level + 1) items ++ lineBreak level ++ "]"
  | .object [] => "\x7b\x7d"
  | .object fields => "\x7b" ++ prettyFields (level + 1) fields ++ lineBreak level ++ "\x7d"
  | v => v.compact

/-- Items, each on lines of its own. -/
def prettyItems (level : Nat) : List Value → String
  | [] => ""
  | [v] => lineBreak level ++ v.prettyAt level
  | v :: rest => lineBreak level ++ v.prettyAt level ++ "," ++ prettyItems level rest

/-- Members, each on lines of its own. -/
def prettyFields (level : Nat) : List (Option String × Value) → String
  | [] => ""
  | [(k, v)] => lineBreak level ++ quote (k.getD "") ++ ": " ++ v.prettyAt level
  | (k, v) :: rest =>
    lineBreak level ++ quote (k.getD "") ++ ": " ++ v.prettyAt level ++ ","
      ++ prettyFields level rest

end

/-- Indented by two blanks a level. -/
def pretty (v : Value) : String := v.prettyAt 0

end Value

end ScriptWarden.Json
