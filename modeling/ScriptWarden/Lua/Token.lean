import ScriptWarden.Lua.Value
set_option autoImplicit false

/-!
# Lua: tokens

The words of a program, and the text of what is wrong with one that has none.
-/

namespace ScriptWarden.Lua

/-- A word of a program. -/
inductive Token where
  | name (s : Bytes)
  | str (s : Bytes)
  | int (n : Int64)
  | float (x : Float)
  /-- A reserved word. -/
  | word (w : String)
  /-- Punctuation. -/
  | sign (s : String)
  /-- A byte that begins no token. -/
  | stray (b : UInt8)
  | eof
  deriving Inhabited

/-- A token where it stands: how it is shown in messages, and the line it ends on. -/
structure Lexeme where
  token : Token
  shown : Bytes
  line : Nat
  deriving Inhabited

/-- Why a program is none: a line and a message. -/
structure SyntaxFault where
  line : Nat
  message : Bytes
  deriving Inhabited

/-- The reserved words. -/
def reservedWords : List String :=
  ["and", "break", "do", "else", "elseif", "end", "false", "for", "function", "goto", "if", "in",
    "local", "nil", "not", "or", "repeat", "return", "then", "true", "until", "while"]

/-- The reserved words as they stand in programs. -/
def reservedTable : List (Bytes × String) := reservedWords.map fun w => (Text.bytes w, w)

/-- Text between single quotes. -/
def inQuotes (s : Bytes) : Bytes := Text.bytes "'" ++ s ++ Text.bytes "'"

/-- A message with the place it is about. -/
def near (message : String) (shown : Bytes) : Bytes :=
  Text.bytes (message ++ " near ") ++ shown

/-! ## Names of chunks -/

/-- Longest text of a chunk's name, with room for a final mark. -/
def chunkNameLimit : Nat := 60

/-- Bytes of the first line, and whether there are more lines. -/
def firstLine (s : Bytes) : Bytes × Bool :=
  let line := s.toList.takeWhile (· ≠ 0x0A)
  (Text.ofByteList line, line.length < s.size)

/-- How positions name a chunk.  A name that starts with `=` or `@` is shown as it stands, cut at
the end or at the front if it is too long; any other is program text, of which the first line is
shown in quotes. -/
def chunkId (name : Bytes) : Bytes :=
  match (name[0]? : Option UInt8) with
  | some 0x3D =>
    let rest := name.extract 1 name.size
    if rest.size < chunkNameLimit then rest else rest.extract 0 (chunkNameLimit - 1)
  | some 0x40 =>
    let rest := name.extract 1 name.size
    if rest.size < chunkNameLimit then rest
    else Text.bytes "..." ++ rest.extract (rest.size - (chunkNameLimit - 4)) rest.size
  | _ =>
    let opening := Text.bytes "[string \""
    let closing := Text.bytes "\"]"
    let room := chunkNameLimit - (opening.size + 3 + closing.size) - 1
    let (line, more) := firstLine name
    if !more && name.size ≤ room then opening ++ name ++ closing
    else
      let line := if room < line.size then line.extract 0 room else line
      opening ++ line ++ Text.bytes "..." ++ closing

/-- A message with its position in front. -/
def withPosition (chunk : Bytes) (line : Nat) (message : Bytes) : Bytes :=
  chunk ++ Text.bytes (":" ++ toString line ++ ": ") ++ message

end ScriptWarden.Lua
