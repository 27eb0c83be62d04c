import ScriptWarden.Lua.Number
import ScriptWarden.Lua.Token
set_option autoImplicit false

/-!
# Lua: from text to tokens

`scan` gives the tokens of a program up to its end or up to the first place where no token can be
read.  A fault of the second kind is reported only when a reader gets there, so that earlier mistakes
are found first.
-/

namespace ScriptWarden.Lua.Lexer

/-- What is left of the text, and the current line. -/
structure Cursor where
  rest : List UInt8
  line : Nat

/-- A step of reading that may find a fault. -/
abbrev Scan (α : Type) := Except SyntaxFault α

/-- A letter or an underscore. -/
def isLetter (b : UInt8) : Bool :=
  (0x41 ≤ b && b ≤ 0x5A) || (0x61 ≤ b && b ≤ 0x7A) || b == 0x5F

/-- A letter, an underscore or a digit. -/
def isWordByte (b : UInt8) : Bool := isLetter b || (digitValue? b).isSome

/-- Line feed or carriage return. -/
def isLineEnd (b : UInt8) : Bool := b == 0x0A || b == 0x0D

/-- Pass over one line end; two different bytes in a row are one. -/
def skipLineEnd (first : UInt8) (rest : List UInt8) : List UInt8 :=
  match rest with
  | b :: after => if isLineEnd b && b != first then after else rest
  | [] => []

/-- Text gathered in reverse. -/
abbrev Buffer := List UInt8

/-- The gathered text. -/
def Buffer.bytes (b : Buffer) : Bytes := Text.ofByteList b.reverse

/-- The fault of a token that is gathered so far. -/
def faultNear {α : Type} (line : Nat) (message : String) (b : Buffer) : Scan α :=
  .error ⟨line, near message (inQuotes b.bytes)⟩

/-- The fault of a text that ends too early. -/
def faultAtEnd {α : Type} (line : Nat) (message : String) : Scan α :=
  .error ⟨line, near message (Text.bytes "<eof>")⟩

/-! ## Long brackets -/

/-- The equals signs behind a bracket: their number and what follows. -/
def equalsSigns : List UInt8 → Nat × List UInt8
  | 0x3D :: rest => let (n, after) := equalsSigns rest; (n + 1, after)
  | rest => (0, rest)

/-- What follows a closing bracket of the given level, if one stands here. -/
def closingBracket? (level : Nat) (afterBracket : List UInt8) : Option (List UInt8) :=
  let (n, after) := equalsSigns afterBracket
  match after with
  | 0x5D :: after => if n = level then some after else none
  | _ => none

/-- The text of a long bracket up to its closing one; each turn takes a byte, which `fuel` counts.
Line ends become line feeds. -/
def longBody (fuel : Nat) (what : String) (level start : Nat) (b : Buffer) (c : Cursor) :
    Scan (Buffer × Cursor) :=
  let unfinished : Scan (Buffer × Cursor) :=
    faultAtEnd c.line ("unfinished long " ++ what ++ " (starting at line " ++ toString start ++ ")")
  match fuel with
  | 0 => unfinished
  | fuel + 1 =>
    match c.rest with
    | [] => unfinished
    | 0x5D :: rest =>
      match closingBracket? level rest with
      | some after => .ok (b, { c with rest := after })
      | none => longBody fuel what level start (0x5D :: b) { c with rest }
    | x :: rest =>
      if isLineEnd x then
        longBody fuel what level start (0x0A :: b) ⟨skipLineEnd x rest, c.line + 1⟩
      else longBody fuel what level start (x :: b) { c with rest }

/-- The text of a long bracket whose opening is passed.  A line end right behind the opening does not
count. -/
def longBracket (what : String) (level : Nat) (c : Cursor) : Scan (Buffer × Cursor) :=
  let start := c.line
  let c := match c.rest with
    | x :: rest => if isLineEnd x then ⟨skipLineEnd x rest, c.line + 1⟩ else c
    | [] => c
  longBody (c.rest.length + 1) what level start [] c

/-! ## Strings -/

/-- UTF-8 of a number of up to 31 bits, the way it was first defined: up to six bytes. -/
def wideUtf8 (n : Nat) : List UInt8 :=
  let tail := fun k => (0x80 + n / Nat.pow 64 k % 64).toUInt8
  if n < 0x80 then [n.toUInt8]
  else if n < 0x800 then [(0xC0 + n / 64).toUInt8, tail 0]
  else if n < 0x10000 then [(0xE0 + n / 0x1000).toUInt8, tail 1, tail 0]
  else if n < 0x200000 then [(0xF0 + n / 0x40000).toUInt8, tail 2, tail 1, tail 0]
  else if n < 0x4000000 then [(0xF8 + n / 0x1000000).toUInt8, tail 3, tail 2, tail 1, tail 0]
  else [(0xFC + n / 0x40000000).toUInt8, tail 4, tail 3, tail 2, tail 1, tail 0]

/-- A fault inside an escape: it is shown up to and with the byte that is wrong. -/
def escapeFault {α : Type} (line : Nat) (message : String) (b : Buffer) (rest : List UInt8) :
    Scan α :=
  match rest with
  | x :: _ => faultNear line message (x :: b)
  | [] => faultNear line message b

/-- Hexadecimal digits of a code point up to the closing brace; `shown` is the raw text. -/
def codePoint (line : Nat) (n : Nat) (shown : Buffer) : List UInt8 → Scan (Nat × List UInt8)
  | [] => escapeFault line "missing '\x7d'" shown []
  | x :: rest =>
    match hexValue? x with
    | some d =>
      if 0x7FFFFFFF / 16 < n then escapeFault line "UTF-8 value too large" shown (x :: rest)
      else codePoint line (n * 16 + d) (x :: shown) rest
    | none =>
      if x == 0x7D then .ok (n, rest)
      else escapeFault line "missing '\x7d'" shown (x :: rest)

/-- The bytes of an escape after its backslash, and what follows.  `b` is the text of the string so
far. -/
def escape (b : Buffer) (c : Cursor) : Scan (List UInt8 × Cursor) :=
  let shown : Buffer := 0x5C :: b
  match c.rest with
  | [] => faultAtEnd c.line "unfinished string"
  | x :: rest =>
    let one := fun (v : UInt8) => Except.ok ([v], { c with rest })
    if x == 0x61 then one 0x07
    else if x == 0x62 then one 0x08
    else if x == 0x66 then one 0x0C
    else if x == 0x6E then one 0x0A
    else if x == 0x72 then one 0x0D
    else if x == 0x74 then one 0x09
    else if x == 0x76 then one 0x0B
    else if x == 0x5C || x == 0x22 || x == 0x27 then one x
    else if isLineEnd x then .ok ([0x0A], ⟨skipLineEnd x rest, c.line + 1⟩)
    else if x == 0x78 then
      match rest with
      | h :: rest₁ =>
        match hexValue? h with
        | none => escapeFault c.line "hexadecimal digit expected" (x :: shown) rest
        | some high =>
          match rest₁ with
          | l :: rest₂ =>
            match hexValue? l with
            | none => escapeFault c.line "hexadecimal digit expected" (h :: x :: shown) rest₁
            | some low => .ok ([(high * 16 + low).toUInt8], { c with rest := rest₂ })
          | [] => escapeFault c.line "hexadecimal digit expected" (h :: x :: shown) []
      | [] => escapeFault c.line "hexadecimal digit expected" (x :: shown) []
    else if x == 0x75 then
      match rest with
      | 0x7B :: rest₁ =>
        match rest₁ with
        | h :: rest₂ =>
          match hexValue? h with
          | none => escapeFault c.line "hexadecimal digit expected" (0x7B :: x :: shown) rest₁
          | some d => do
            let (n, after) ← codePoint c.line d (h :: 0x7B :: x :: shown) rest₂
            return (wideUtf8 n, { c with rest := after })
        | [] => escapeFault c.line "hexadecimal digit expected" (0x7B :: x :: shown) []
      | _ => escapeFault c.line "missing '\x7b'" (x :: shown) rest
    else if x == 0x7A then
      let blanks := rest.takeWhile isSpace
      -- Every line end among the blanks counts once, two different bytes in a row as one.
      let rec count : List UInt8 → Nat → Nat
        | [], n => n
        | 0x0D :: 0x0A :: r, n => count r (n + 1)
        | 0x0A :: 0x0D :: r, n => count r (n + 1)
        | y :: r, n => count r (if isLineEnd y then n + 1 else n)
      .ok ([], ⟨rest.drop blanks.length, c.line + count blanks 0⟩)
    else
      match digitValue? x with
      | none => escapeFault c.line "invalid escape sequence" shown c.rest
      | some _ =>
        let digits := (c.rest.take 3).takeWhile fun y => (digitValue? y).isSome
        let n : Nat := digits.foldl (fun n y => n * 10 + (y.toNat - 0x30)) 0
        let after := c.rest.drop digits.length
        if 255 < n then
          escapeFault c.line "decimal escape too large" (digits.reverse ++ shown) after
        else .ok ([n.toUInt8], { c with rest := after })

/-- The rest of a quoted string; each turn takes a byte, which `fuel` counts. -/
def stringBody (fuel : Nat) (quote : UInt8) (b : Buffer) (c : Cursor) : Scan (Buffer × Cursor) :=
  match fuel with
  | 0 => faultAtEnd c.line "unfinished string"
  | fuel + 1 =>
    match c.rest with
    | [] => faultAtEnd c.line "unfinished string"
    | x :: rest =>
      if x == quote then .ok (x :: b, { c with rest })
      else if isLineEnd x then faultNear c.line "unfinished string" b
      else if x == 0x5C then do
        let (bs, c) ← escape b { c with rest }
        stringBody fuel quote (bs.reverse ++ b) c
      else stringBody fuel quote (x :: b) { c with rest }

/-! ## Numbers -/

/-- The text of a numeral: digits, points and exponents in any order, as far as it goes. -/
def numeralBody (expo : List UInt8) (b : Buffer) : List UInt8 → Buffer × List UInt8
  | [] => (b, [])
  | x :: rest =>
    if expo.contains x then
      match rest with
      | y :: after =>
        if y == 0x2B || y == 0x2D then numeralBody expo (y :: x :: b) after
        else numeralBody expo (x :: b) (y :: after)
      | [] => (x :: b, [])
    else if (hexValue? x).isSome || x == 0x2E then numeralBody expo (x :: b) rest
    else (b, x :: rest)

/-- A numeral, given its gathered beginning. -/
def number (b : Buffer) (c : Cursor) : Scan (Lexeme × Cursor) :=
  let (b, rest, expo) : Buffer × List UInt8 × List UInt8 :=
    match b, c.rest with
    | [0x30], x :: rest =>
      if x == 0x78 || x == 0x58 then ([x, 0x30], rest, [0x70, 0x50])
      else (b, c.rest, [0x65, 0x45])
    | _, _ => (b, c.rest, [0x65, 0x45])
  let (b, rest) := numeralBody expo b rest
  let (b, rest) : Buffer × List UInt8 :=
    match rest with
    | x :: after => if isLetter x then (x :: b, after) else (b, rest)
    | [] => (b, rest)
  match numeral? b.bytes with
  | some (.int n) => .ok (⟨.int n, inQuotes b.bytes, c.line⟩, { c with rest })
  | some (.float x) => .ok (⟨.float x, inQuotes b.bytes, c.line⟩, { c with rest })
  | none => faultNear c.line "malformed number" b

/-! ## Tokens -/

/-- Signs of several bytes, longer ones first. -/
def longSigns : List (String × List UInt8) :=
  ["...", "..", "==", "~=", "<=", ">=", "//", "::", "<<", ">>"].map
    fun s => (s, s.toUTF8.toList)

/-- Signs of one byte. -/
def shortSigns : List UInt8 := "+-*/%^#&~|<>=(){}[];:,.".toUTF8.toList

/-- A sign. -/
def sign (c : Cursor) : Lexeme × Cursor :=
  match longSigns.find? fun (_, bs) => bs.isPrefixOf c.rest with
  | some (s, bs) =>
    (⟨.sign s, inQuotes (Text.bytes s), c.line⟩, { c with rest := c.rest.drop bs.length })
  | none =>
    match c.rest with
    | [] => (⟨.eof, Text.bytes "<eof>", c.line⟩, c)
    | b :: rest =>
      if shortSigns.contains b then
        let s := String.singleton (Char.ofNat b.toNat)
        (⟨.sign s, inQuotes (Text.bytes s), c.line⟩, { c with rest })
      else
        let shown :=
          if 0x20 ≤ b && b < 0x7F then inQuotes (Text.ofByteList [b])
          else Text.bytes ("'<\\" ++ toString b.toNat ++ ">'")
        (⟨.stray b, shown, c.line⟩, { c with rest })

/-- A name or a reserved word. -/
def word (c : Cursor) : Lexeme × Cursor :=
  let bs := c.rest.takeWhile isWordByte
  let s := Text.ofByteList bs
  let c' := { c with rest := c.rest.drop bs.length }
  match reservedTable.find? fun (t, _) => t == s with
  | some (_, w) => (⟨.word w, inQuotes s, c.line⟩, c')
  | none => (⟨.name s, inQuotes s, c.line⟩, c')

/-- The next token; blanks and comments in front of it are passed over.  Each turn takes a byte, which
`fuel` counts. -/
def next (fuel : Nat) (c : Cursor) : Scan (Lexeme × Cursor) :=
  let atEnd : Scan (Lexeme × Cursor) := .ok (⟨.eof, Text.bytes "<eof>", c.line⟩, c)
  match fuel with
  | 0 => atEnd
  | fuel + 1 =>
    match c.rest with
    | [] => atEnd
    | b :: rest =>
      if isLineEnd b then next fuel ⟨skipLineEnd b rest, c.line + 1⟩
      else if isSpace b then next fuel { c with rest }
      else if b == 0x2D && rest.head? == some 0x2D then
        let body := rest.drop 1
        let toLineEnd := next fuel { c with rest := body.dropWhile fun x => !isLineEnd x }
        match body with
        | 0x5B :: inner =>
          let (level, after) := equalsSigns inner
          match after with
          | 0x5B :: inside => do
            let (_, c) ← longBracket "comment" level { c with rest := inside }
            next fuel c
          | _ => toLineEnd
        | _ => toLineEnd
      else if b == 0x5B then
        let (level, after) := equalsSigns rest
        match after with
        | 0x5B :: inside => do
          let (text, c') ← longBracket "string" level { c with rest := inside }
          let marks : Bytes := Text.ofByteList (0x5B :: List.replicate level 0x3D ++ [0x5B])
          let ends : Bytes := Text.ofByteList (0x5D :: List.replicate level 0x3D ++ [0x5D])
          return (⟨.str text.bytes, inQuotes (marks ++ text.bytes ++ ends), c'.line⟩, c')
        | _ =>
          if level = 0 then .ok (sign c)
          else
            faultNear c.line "invalid long string delimiter"
              (List.replicate level 0x3D ++ [0x5B])
      else if b == 0x22 || b == 0x27 then do
        let (text, c') ← stringBody (rest.length + 1) b [b] { c with rest }
        let inner := Text.ofByteList ((text.drop 1).reverse.drop 1)
        return (⟨.str inner, inQuotes text.bytes, c'.line⟩, c')
      else if isLetter b then .ok (word c)
      else if (digitValue? b).isSome then number [b] { c with rest }
      else if b == 0x2E then
        match rest with
        | d :: after =>
          if (digitValue? d).isSome then number [d, b] { c with rest := after } else .ok (sign c)
        | [] => .ok (sign c)
      else .ok (sign c)

/-- Every token from here on, in reverse behind those gathered; the last one is the end of the text,
unless a fault comes first. -/
def collect (fuel : Nat) (got : List Lexeme) (c : Cursor) : List Lexeme × Option SyntaxFault :=
  match fuel with
  | 0 => (got, none)
  | fuel + 1 =>
    match next (c.rest.length + 1) c with
    | .error e => (got, some e)
    | .ok (l, c) =>
      match l.token with
      | .eof => (l :: got, none)
      | _ => collect fuel (l :: got) c

/-- The tokens of a program, and the fault that ends them if there is one. -/
def scan (source : Bytes) : List Lexeme × Option SyntaxFault :=
  let (got, fault) := collect (source.size + 1) [] ⟨source.toList, 1⟩
  (got.reverse, fault)

end ScriptWarden.Lua.Lexer
