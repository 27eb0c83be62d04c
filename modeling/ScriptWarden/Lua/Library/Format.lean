import ScriptWarden.Lua.Library.Arguments
set_option autoImplicit false

/-!
# Lua: formatted text
-/

namespace ScriptWarden.Lua.Library

open ScriptWarden.Lua.Native

variable {σ : Type}

/-! ## Specifications -/

/-- How a value is to be written. -/
structure Layout where
  minus : Bool := false
  plus : Bool := false
  blank : Bool := false
  alternate : Bool := false
  zero : Bool := false
  width : Nat := 0
  precision : Option Nat := none
  deriving Inhabited

/-- Up to two digits, and what follows. -/
def twoDigits (input : List Char) : Nat × List Char :=
  match input with
  | a :: b :: rest =>
    if a.isDigit ∧ b.isDigit then ((a.toNat - 48) * 10 + (b.toNat - 48), rest)
    else if a.isDigit then (a.toNat - 48, b :: rest)
    else (0, input)
  | [a] => if a.isDigit then (a.toNat - 48, []) else (0, input)
  | [] => (0, [])

/-- Take the flags that a conversion allows. -/
def takeFlags (allowed : List Char) (l : Layout) : List Char → Layout × List Char
  | [] => (l, [])
  | c :: rest =>
    if allowed.contains c then
      let l :=
        match c with
        | '-' => { l with minus := true }
        | '+' => { l with plus := true }
        | ' ' => { l with blank := true }
        | '#' => { l with alternate := true }
        | _ => { l with zero := true }
      takeFlags allowed l rest
    else (l, c :: rest)

/-- Read the flags, width and precision of a conversion; nothing but its letter may follow. -/
def layout? (allowed : List Char) (precise : Bool) (spec : List Char) : Option Layout :=
  let (l, rest) := takeFlags allowed {} spec
  let (l, rest) :=
    match rest with
    | '0' :: _ => (l, rest)
    | _ =>
      let (width, rest) := twoDigits rest
      match rest with
      | '.' :: rest =>
        if precise then
          let (p, rest) := twoDigits rest
          ({ l with width, precision := some p }, rest)
        else ({ l with width }, '.' :: rest)
      | _ => ({ l with width }, rest)
  match rest with
  | c :: _ => if c.isAlpha then some l else none
  | [] => none

/-! ## Writing -/

/-- Fill a text up to the width of a layout; zeros go behind the sign. -/
def fill (l : Layout) (zeros : Bool) (sign body : List Char) : List Char :=
  let n := l.width - (sign.length + body.length)
  if l.minus then sign ++ body ++ List.replicate n ' '
  else if zeros then sign ++ List.replicate n '0' ++ body
  else List.replicate n ' ' ++ sign ++ body

/-- The sign of a number. -/
def signOf (l : Layout) (negative : Bool) : List Char :=
  if negative then ['-'] else if l.plus then ['+'] else if l.blank then [' '] else []

/-- Digits of an integer, at least as many as the precision asks for. -/
def intDigits (l : Layout) (base n : Nat) : List Char :=
  match l.precision with
  | some 0 => if n = 0 then [] else Nat.toDigits base n
  | some p => Decimal.padLeft p (Nat.toDigits base n)
  | none => Nat.toDigits base n

/-- An integer with a sign. -/
def writeInt (l : Layout) (n : Int64) : List Char :=
  fill l (l.zero && l.precision.isNone) (signOf l (n.toInt < 0)) (intDigits l 10 n.toInt.natAbs)

/-- A word in another base. -/
def writeWord (l : Layout) (base : Nat) (upper : Bool) (n : UInt64) : List Char :=
  let digits := intDigits l base n.toNat
  let mark : List Char :=
    if l.alternate ∧ n ≠ 0 then
      if base = 16 then ['0', 'x'] else if digits.head? = some '0' then [] else ['0']
    else []
  let cs := fill l (l.zero && l.precision.isNone) mark digits
  if upper then cs.map Char.toUpper else cs

/-- Hexadecimal digits of a fraction of 52 bits, rounded to a number of places; the first digit may
grow. -/
def hexFraction (lead significand : Nat) (places : Option Nat) : Nat × List Char :=
  match places with
  | some p =>
    if p < 13 then
      let unit := Nat.pow 16 (13 - p)
      let whole := Decimal.roundHalfEven (lead * 0x10000000000000 + significand) unit
      let digits := whole % Nat.pow 16 p
      (whole / Nat.pow 16 p, if p = 0 then [] else Decimal.padLeft p (Nat.toDigits 16 digits))
    else
      (lead, Decimal.padLeft 13 (Nat.toDigits 16 significand) ++ List.replicate (p - 13) '0')
  | none =>
    let digits := Decimal.padLeft 13 (Nat.toDigits 16 significand)
    (lead, (digits.reverse.dropWhile (· = '0')).reverse)

/-- A double in hexadecimal digits, without its sign. -/
def hexFloat (l : Layout) (x : Float) : List Char :=
  let bits := x.toBits.toNat
  let significand : Nat := bits % 0x10000000000000
  let exponent : Nat := bits / 0x10000000000000 % 0x800
  let e : Int :=
    if exponent ≠ 0 then (exponent : Int) - 1023 else if significand = 0 then 0 else -1022
  let lead := if exponent = 0 then 0 else 1
  let (lead, digits) := hexFraction lead significand l.precision
  let point : List Char := if digits.isEmpty ∧ !l.alternate then [] else ['.']
  let sign : Char := if e < 0 then '-' else '+'
  ['0', 'x'] ++ Nat.toDigits 16 lead ++ point ++ digits ++ ['p', sign] ++ Nat.toDigits 10 e.natAbs

/-- A finite double under a conversion, without its sign. -/
def floatBody (l : Layout) (conversion : Char) (d : Decimal.Dyadic) (x : Float) : List Char :=
  let precision := l.precision.getD 6
  match conversion with
  | 'f' => Decimal.fixedPoint d precision l.alternate
  | 'e' => Decimal.scientific d precision l.alternate
  | 'g' => Decimal.general d (max precision 1) l.alternate
  | _ => hexFloat l x

/-- A double. -/
def writeFloat (l : Layout) (conversion : Char) (x : Float) : List Char :=
  let lower := conversion.toLower
  let negative := x.toBits.toNat / 0x8000000000000000 = 1
  let sign := signOf l negative
  let cs :=
    match Decimal.Reading.ofFloat x with
    | .nan => fill l false ['-'] ['n', 'a', 'n']
    | .infinite _ => fill l false sign ['i', 'n', 'f']
    | .finite _ d =>
      let body := floatBody l lower d x
      if lower = 'a' then fill l l.zero (sign ++ ['0', 'x']) (body.drop 2) else fill l l.zero sign body
  if conversion.isUpper then cs.map Char.toUpper else cs

/-- A string, cut to the precision and filled up to the width. -/
def writeStr (l : Layout) (s : Bytes) : Bytes :=
  let s :=
    match l.precision with
    | some p => s.extract 0 p
    | none => s
  let room := Text.bytes (String.ofList (List.replicate (l.width - s.size) ' '))
  if l.minus then s ++ room else room ++ s

/-- A byte of a quoted string; `next` is the byte behind it. -/
def quotedByte (b : UInt8) (next : Option UInt8) : Bytes :=
  let isDigit : Bool :=
    match next with
    | some d => 0x30 ≤ d ∧ d ≤ 0x39
    | none => false
  if b = 0x22 ∨ b = 0x5C ∨ b = 0x0A then ⟨#[0x5C, b]⟩
  else if b < 0x20 ∨ b = 0x7F then
    let digits := Nat.toDigits 10 b.toNat
    Text.bytes ("\\" ++ String.ofList (if isDigit then Decimal.padLeft 3 digits else digits))
  else ⟨#[b]⟩

/-- The bytes of a quoted string. -/
def quotedBytes : List UInt8 → Bytes → Bytes
  | [], got => got
  | b :: rest, got => quotedBytes rest (got ++ quotedByte b rest.head?)

/-- A value as a script can read it back, if it has such a form. -/
def literal? : Value → Option Bytes
  | .str s => some (Text.bytes "\"" ++ quotedBytes s.toList ByteArray.empty ++ Text.bytes "\"")
  | .int n =>
    some (Text.bytes (if n == Int64.minValue then "0x8000000000000000" else toString n.toInt))
  | .float x =>
    match Decimal.Reading.ofFloat x with
    | .nan => some (Text.bytes "(0/0)")
    | .infinite negative => some (Text.bytes (if negative then "-1e9999" else "1e9999"))
    | .finite .. => some (Text.bytes (String.ofList (writeFloat {} 'a' x)))
  | .nil => some (Text.bytes "nil")
  | .bool b => some (Text.bytes (if b then "true" else "false"))
  | _ => none

/-! ## Conversions -/

/-- Characters that may stand between the mark and the letter of a conversion. -/
def isModifier (c : Char) : Bool := c.isDigit || ['-', '+', ' ', '#', '.'].contains c

/-- The longest conversion. -/
def conversionLimit : Nat := 22

/-- Write an argument under a conversion: `spec` is what stands behind the mark, its letter last. -/
def convert (args : List Value) (place : Nat) (spec : List Char) : Native σ Bytes := do
  let letter := spec.getLast?.getD ' '
  let shown := "%" ++ String.ofList (spec.filter (· ≠ Char.ofNat 0))
  let checked (allowed : List Char) (precise : Bool) : Native σ Layout :=
    match layout? allowed precise spec with
    | some l => return l
    | none => failText ("invalid conversion specification: '" ++ shown ++ "'")
  let text (cs : List Char) : Bytes := Text.bytes (String.ofList cs)
  match letter with
  | 'c' =>
    let l ← checked ['-'] false
    let n ← intArg args place
    return writeStr l ⟨#[n.toUInt64.toUInt8]⟩
  | 'd' | 'i' =>
    let n ← intArg args place
    return text (writeInt (← checked ['-', '+', '0', ' '] true) n)
  | 'u' =>
    let n ← intArg args place
    return text (writeWord (← checked ['-', '0'] true) 10 false n.toUInt64)
  | 'x' | 'X' | 'o' =>
    let n ← intArg args place
    let l ← checked ['-', '#', '0'] true
    return text (writeWord l (if letter = 'o' then 8 else 16) (letter = 'X') n.toUInt64)
  | 'a' | 'A' =>
    let l ← checked ['-', '+', '#', '0', ' '] true
    return text (writeFloat l letter (← floatArg args place))
  | 'f' | 'e' | 'E' | 'g' | 'G' =>
    let x ← floatArg args place
    return text (writeFloat (← checked ['-', '+', '#', '0', ' '] true) letter x)
  | 'p' =>
    let v ← anyArg args place
    let l ← checked ['-'] false
    let shown ← heap (Access.plainText · v)
    let pointed :=
      match v with
      | .nil | .bool _ | .int _ | .float _ => Text.bytes "(null)"
      | .str _ => Text.bytes "0x00000000000000"
      | _ => Text.ofByteList ((shown.toList.dropWhile (· ≠ 0x3A)).drop 2)
    return writeStr l pointed
  | 'q' =>
    if spec.length ≠ 1 then failText "specifier '%q' cannot have modifiers"
    match literal? (← anyArg args place) with
    | some s => return s
    | none => failArgument place "value has no literal form"
  | 's' =>
    let s ← Access.text (← anyArg args place)
    if spec.length = 1 then return s
    require (!s.toList.contains 0) place "string contains zeros"
    let l ← checked ['-'] true
    return writeStr l s
  | _ => failText ("invalid conversion '" ++ shown ++ "' to 'format'")

/-- Write the pieces of a format; `fuel` counts its characters. -/
def formatFrom (args : List Value) (fuel place : Nat) (input : List UInt8) (got : Bytes) :
    Native σ Bytes :=
  match fuel, input with
  | 0, _ | _, [] => return got
  | fuel + 1, 0x25 :: 0x25 :: rest => formatFrom args fuel place rest (got.push 0x25)
  | fuel + 1, 0x25 :: rest => do
    let place := place + 1
    if (arg? args place).isNone then failArgument place "no value"
    let chars := rest.map fun b => Char.ofNat b.toNat
    let modifiers := chars.takeWhile isModifier
    if conversionLimit ≤ modifiers.length + 1 then failText "invalid format string to 'format'"
    let letter := chars[modifiers.length]?.getD (Char.ofNat 0)
    let s ← convert args place (modifiers ++ [letter])
    formatFrom args fuel place (rest.drop (modifiers.length + 1)) (got ++ s)
  | fuel + 1, b :: rest => formatFrom args fuel place rest (got.push b)

/-- Formatted text. -/
def format (args : List Value) : Native σ (List Value) := do
  let s ← strArg args 1
  return [← newString (← formatFrom args s.size 1 s.toList ByteArray.empty)]

end ScriptWarden.Lua.Library
