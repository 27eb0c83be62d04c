import ScriptWarden.Json.Value
set_option autoImplicit false

/-!
# Json: reading

`Value.parse?` reads one document and demands that nothing but blanks follow it.  Everything works on
the list of bytes that is left, and every step gives back a shorter one; the nesting is bounded by
the length of the text, which is what the fuel of `value` counts.
-/

namespace ScriptWarden.Json.Reader

/-- What is left of the text. -/
abbrev Input := List UInt8

/-- The byte of an ASCII character. -/
def byte (c : Char) : UInt8 := c.toNat.toUInt8

/-- Blank, tab and the two line ends. -/
def isBlank (b : UInt8) : Bool := b == 0x20 || b == 0x09 || b == 0x0A || b == 0x0D

/-- Pass over blanks. -/
def skipBlanks (input : Input) : Input := input.dropWhile isBlank

/-- A decimal digit. -/
def digit? (b : UInt8) : Option Nat :=
  if 0x30 ≤ b && b ≤ 0x39 then some (b.toNat - 0x30) else none

/-- A hexadecimal digit of either case. -/
def hexDigit? (b : UInt8) : Option Nat :=
  if 0x30 ≤ b && b ≤ 0x39 then some (b.toNat - 0x30)
  else if 0x41 ≤ b && b ≤ 0x46 then some (b.toNat - 0x41 + 10)
  else if 0x61 ≤ b && b ≤ 0x66 then some (b.toNat - 0x61 + 10)
  else none

/-- The digits in front, and what follows them. -/
def digits : Input → List Nat × Input
  | [] => ([], [])
  | b :: rest =>
    match digit? b with
    | some d => let (ds, after) := digits rest; (d :: ds, after)
    | none => ([], b :: rest)

/-- Digits as a number. -/
def ofDigits (ds : List Nat) : Nat := ds.foldl (fun n d => n * 10 + d) 0

/-- The given word must come next. -/
def expect (word : List UInt8) (input : Input) : Option Input :=
  if word.isPrefixOf input then some (input.drop word.length) else none

/-! ## Strings -/

/-- Four hexadecimal digits. -/
def hexQuad : Input → Option (Nat × Input)
  | a :: b :: c :: d :: rest => do
    let a ← hexDigit? a
    let b ← hexDigit? b
    let c ← hexDigit? c
    let d ← hexDigit? d
    return (((a * 16 + b) * 16 + c) * 16 + d, rest)
  | _ => none

/-- UTF-8 bytes of a scalar value. -/
def encodeScalar (n : Nat) : List UInt8 := (String.singleton (Char.ofNat n)).toUTF8.toList

/-- The text gathered so far, in reverse; `none` once an escape named no character. -/
abbrev Gathered := Option (List UInt8)

/-- Add bytes. -/
def Gathered.add (g : Gathered) (bs : List UInt8) : Gathered := g.map (bs.reverse ++ ·)

/-- One of the escapes that stand for a single character. -/
def simpleEscape? (b : UInt8) : Option UInt8 :=
  if b == byte '"' then some 0x22
  else if b == byte '\\' then some 0x5C
  else if b == byte '/' then some 0x2F
  else if b == byte 'b' then some 0x08
  else if b == byte 'f' then some 0x0C
  else if b == byte 'n' then some 0x0A
  else if b == byte 'r' then some 0x0D
  else if b == byte 't' then some 0x09
  else none

/-- The escapes of a high surrogate: it must be followed by the escape of a low one.  Anything else
leaves the text broken, and reading goes on behind the first escape. -/
def surrogatePair (high : Nat) (rest : Input) : Option (List UInt8) × Input :=
  match rest with
  | 0x5C :: 0x75 :: after =>
    match hexQuad after with
    | some (low, rest') =>
      if 0xDC00 ≤ low ∧ low ≤ 0xDFFF then
        (some (encodeScalar (0x10000 + (high - 0xD800) * 0x400 + (low - 0xDC00))), rest')
      else (none, rest)
    | none => (none, rest)
  | _ => (none, rest)

/-- The rest of a string after its opening quote.  Every turn takes at least one byte, which `fuel`
counts. -/
def stringBody (fuel : Nat) (g : Gathered) (input : Input) : Option (Option String × Input) :=
  match fuel with
  | 0 => none
  | fuel + 1 =>
    match input with
    | [] => none
    | 0x22 :: rest =>
      some (g.bind fun bs => String.fromUTF8? ⟨bs.reverse.toArray⟩, rest)
    | 0x5C :: 0x75 :: rest => do
      let (n, after) ← hexQuad rest
      if 0xD800 ≤ n ∧ n ≤ 0xDBFF then
        let (bs, after) := surrogatePair n after
        stringBody fuel (bs.bind fun bs => g.add bs) after
      else if 0xDC00 ≤ n ∧ n ≤ 0xDFFF then stringBody fuel none after
      else stringBody fuel (g.add (encodeScalar n)) after
    | 0x5C :: e :: rest => do
      let b ← simpleEscape? e
      stringBody fuel (g.add [b]) rest
    | b :: rest =>
      if b < 0x20 then none
      else if b == 0x5C then none
      else stringBody fuel (g.add [b]) rest

/-! ## Numbers -/

/-- The exponent part, if one is written. -/
def exponent (input : Input) : Option (Option Int × Input) :=
  match input with
  | b :: rest =>
    if b == byte 'e' || b == byte 'E' then
      let (negative, rest) :=
        match rest with
        | 0x2B :: r => (false, r)
        | 0x2D :: r => (true, r)
        | _ => (false, rest)
      match digits rest with
      | ([], _) => none
      | (ds, after) =>
        let n : Int := ofDigits ds
        some (some (if negative then -n else n), after)
    else some (none, input)
  | [] => some (none, [])

/-- A number after its sign.  No digit follows a leading zero, and a point has digits on both
sides. -/
def number (negative : Bool) (input : Input) : Option (Value × Input) := do
  let (whole, rest) := digits input
  match whole with
  | [] => none
  | 0 :: _ :: _ => none
  | _ =>
    let (fraction, rest) ←
      match rest with
      | 0x2E :: r =>
        match digits r with
        | ([], _) => none
        | (ds, after) => some (ds, after)
      | _ => some ([], rest)
    let (e, rest) ← exponent rest
    let n := ofDigits whole
    if fraction.isEmpty && e.isNone && !(negative && n == 0) then
      return (.int (if negative then -(n : Int) else n), rest)
    else
      return (.real ⟨negative, n, fraction, e.getD 0⟩, rest)

/-! ## Values -/

mutual

/-- One value, blanks in front of it allowed. -/
def value (fuel : Nat) (input : Input) : Option (Value × Input) :=
  match fuel with
  | 0 => none
  | fuel + 1 =>
    match skipBlanks input with
    | [] => none
    | b :: rest =>
      if b == byte 'n' then do
        let rest ← expect [0x75, 0x6C, 0x6C] rest
        return (.null, rest)
      else if b == byte 't' then do
        let rest ← expect [0x72, 0x75, 0x65] rest
        return (.bool true, rest)
      else if b == byte 'f' then do
        let rest ← expect [0x61, 0x6C, 0x73, 0x65] rest
        return (.bool false, rest)
      else if b == 0x22 then do
        let (s, rest) ← stringBody (rest.length + 1) (some []) rest
        return (.string s, rest)
      else if b == byte '-' then number true rest
      else if b == byte '[' then
        match skipBlanks rest with
        | 0x5D :: after => some (.array [], after)
        | inside => items fuel [] inside
      else if b == 0x7B then
        match skipBlanks rest with
        | 0x7D :: after => some (.object [], after)
        | inside => members fuel [] inside
      else number false (b :: rest)

/-- Items of a list up to its closing bracket, gathered in reverse. -/
def items (fuel : Nat) (got : List Value) (input : Input) : Option (Value × Input) :=
  match fuel with
  | 0 => none
  | fuel + 1 => do
    let (v, rest) ← value fuel input
    match skipBlanks rest with
    | 0x2C :: after => items fuel (v :: got) after
    | 0x5D :: after => some (.array (v :: got).reverse, after)
    | _ => none

/-- Members of an object up to its closing brace, gathered in reverse. -/
def members (fuel : Nat) (got : List (Option String × Value)) (input : Input) :
    Option (Value × Input) :=
  match fuel with
  | 0 => none
  | fuel + 1 =>
    match skipBlanks input with
    | 0x22 :: rest => do
      let (key, rest) ← stringBody (rest.length + 1) (some []) rest
      match skipBlanks rest with
      | 0x3A :: rest => do
        let (v, rest) ← value fuel rest
        match skipBlanks rest with
        | 0x2C :: after => members fuel ((key, v) :: got) after
        | 0x7D :: after => some (.object ((key, v) :: got).reverse, after)
        | _ => none
      | _ => none
    | _ => none

end

end Reader

/-- The one value that a text holds. -/
def Value.ofBytes? (bytes : List UInt8) : Option Value := do
  let (v, rest) ← Reader.value (2 * bytes.length + 1) bytes
  if (Reader.skipBlanks rest).isEmpty then some v else none

/-- The one value that a text holds. -/
def Value.parse? (text : String) : Option Value := Value.ofBytes? text.toUTF8.toList

end ScriptWarden.Json
