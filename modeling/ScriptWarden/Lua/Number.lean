import ScriptWarden.Decimal.Layout
import ScriptWarden.Decimal.Read
import ScriptWarden.Lua.Value
set_option autoImplicit false

/-!
# Lua: numbers

Integers of 64 bits that wrap, and doubles.  An operation takes integers to an integer where it can;
a double counts as an integer when its value is one.
-/

namespace ScriptWarden.Lua

/-- A number. -/
inductive Number where
  | int (n : Int64)
  | float (x : Float)
  deriving Inhabited

namespace Number

/-- The number as a value. -/
def toValue : Number → Value
  | .int n => .int n
  | .float x => .float x

/-- The number as a double. -/
def toFloat : Number → Float
  | .int n => n.toFloat
  | .float x => x

end Number

/-! ## Between integers and doubles -/

/-- Two to the 63rd. -/
def twoPow63 : Float := 9223372036854775808

/-- The integer that a double is. -/
def floatToInt? (x : Float) : Option Int64 :=
  if x.floor == x && -twoPow63 ≤ x && x < twoPow63 then some x.toInt64 else none

/-- The largest integer not above a double, if it has 64 bits. -/
def floorInt? (x : Float) : Option Int64 := floatToInt? x.floor

/-- The smallest integer not below a double, if it has 64 bits. -/
def ceilInt? (x : Float) : Option Int64 := floatToInt? x.ceil

/-- The integer that a number is. -/
def Number.toInt? : Number → Option Int64
  | .int n => some n
  | .float x => floatToInt? x

/-! ## Numerals -/

/-- Blanks around a numeral. -/
def isSpace (b : UInt8) : Bool := b == 0x20 || (0x09 ≤ b && b ≤ 0x0D)

/-- The value of a digit, up to sixteen. -/
def hexValue? (b : UInt8) : Option Nat :=
  if 0x30 ≤ b && b ≤ 0x39 then some (b.toNat - 0x30)
  else if 0x41 ≤ b && b ≤ 0x46 then some (b.toNat - 0x41 + 10)
  else if 0x61 ≤ b && b ≤ 0x66 then some (b.toNat - 0x61 + 10)
  else none

/-- The value of a decimal digit. -/
def digitValue? (b : UInt8) : Option Nat :=
  if 0x30 ≤ b && b ≤ 0x39 then some (b.toNat - 0x30) else none

/-- Digits in front of a text: how many, the number they make after `acc`, and the rest. -/
def takeDigits (digit : UInt8 → Option Nat) (base : Nat) :
    List UInt8 → Nat → Nat → Nat × Nat × List UInt8
  | [], count, acc => (count, acc, [])
  | b :: rest, count, acc =>
    match digit b with
    | some d => takeDigits digit base rest (count + 1) (acc * base + d)
    | none => (count, acc, b :: rest)

/-- A signed exponent behind one of two letters, or nothing. -/
def takeExponent (lower upper : UInt8) (input : List UInt8) : Option (Int × List UInt8) :=
  match input with
  | b :: rest =>
    if b == lower || b == upper then
      let (negative, rest) : Bool × List UInt8 :=
        match rest with
        | 0x2D :: r => (true, r)
        | 0x2B :: r => (false, r)
        | _ => (false, rest)
      let (count, n, rest) := takeDigits digitValue? 10 rest 0 0
      if count = 0 then none else some (if negative then -(n : Int) else n, rest)
    else some (0, input)
  | [] => some (0, [])

/-- Digits with an optional fraction: the mantissa, how many digits follow the point, whether a point
is written, and the rest.  At least one digit must be there. -/
def takeMantissa (digit : UInt8 → Option Nat) (base : Nat) (input : List UInt8) :
    Option (Nat × Nat × Bool × List UInt8) :=
  let (before, n, rest) := takeDigits digit base input 0 0
  match rest with
  | 0x2E :: rest =>
    let (after, n, rest) := takeDigits digit base rest 0 n
    if before + after = 0 then none else some (n, after, true, rest)
  | _ => if before = 0 then none else some (n, 0, false, rest)

/-- An unsigned numeral, the whole text of it.  A hexadecimal integer wraps; a decimal one that does
not fit becomes a double.  `limit` is the largest decimal integer that fits. -/
def unsignedNumeral? (limit : Nat) (input : List UInt8) : Option Number := do
  let hex := match input with
    | 0x30 :: x :: _ => x == 0x78 || x == 0x58
    | _ => false
  if hex then
    let (n, fraction, point, rest) ← takeMantissa hexValue? 16 (input.drop 2)
    if !point && rest.isEmpty then some (.int (Int64.ofNat (n % 0x10000000000000000)))
    else
      let (e, rest) ← takeExponent 0x70 0x50 rest
      if rest.isEmpty then
        let shift := e - 4 * fraction
        -- Far outside the range of doubles the size of the number decides.
        if n = 0 then some (.float 0)
        else if 2000 < shift + n.log2 then some (.float (1.0 / 0.0))
        else if shift + n.log2 < -2000 then some (.float 0)
        else
          let (num, den) := (Decimal.Dyadic.mk n shift).ratio
          some (.float (Decimal.ofFraction num den))
      else none
  else
    let (n, fraction, point, rest) ← takeMantissa digitValue? 10 input
    if !point && rest.isEmpty && n ≤ limit then some (.int (Int64.ofNat n))
    else
      let (e, rest) ← takeExponent 0x65 0x45 rest
      if rest.isEmpty then some (.float (Decimal.nearest n (e - fraction))) else none

/-- A numeral with blanks around it and a sign in front. -/
def numeral? (s : Bytes) : Option Number := do
  let input := s.toList.dropWhile isSpace
  let input := (input.reverse.dropWhile isSpace).reverse
  match input with
  | 0x2D :: rest =>
    match ← unsignedNumeral? 0x8000000000000000 rest with
    | .int n => return .int (-n)
    | .float x => return .float (-x)
  | 0x2B :: rest => unsignedNumeral? 0x7FFFFFFFFFFFFFFF rest
  | _ => unsignedNumeral? 0x7FFFFFFFFFFFFFFF input

/-! ## Text of numbers -/

/-- A double with up to fourteen significant digits, and a sign that it is one. -/
def floatText (x : Float) : String :=
  match Decimal.Reading.ofFloat x with
  | .nan => "-nan"
  | .infinite negative => if negative then "-inf" else "inf"
  | .finite negative d =>
    let cs := Decimal.general d 14 false
    let cs := if cs.all Char.isDigit then cs ++ ['.', '0'] else cs
    String.ofList (Decimal.signed negative cs)

/-- A number as a string. -/
def Number.text : Number → String
  | .int n => toString n.toInt
  | .float x => floatText x

/-! ## Coercions of values -/

namespace Value

/-- The number that a value is. -/
def number? : Value → Option Number
  | .int n => some (.int n)
  | .float x => some (.float x)
  | _ => none

/-- The number that a value is or spells. -/
def toNumber? : Value → Option Number
  | .int n => some (.int n)
  | .float x => some (.float x)
  | .str s => numeral? s
  | _ => none

/-- The integer that a value is or spells. -/
def toInteger? (v : Value) : Option Int64 := v.toNumber?.bind Number.toInt?

/-- The string that a value is or is written as. -/
def toBytes? : Value → Option Bytes
  | .str s => some s
  | .int n => some (Text.bytes (Number.int n).text)
  | .float x => some (Text.bytes (Number.float x).text)
  | _ => none

end Value

/-! ## Arithmetic -/

/-- Why an operation on numbers has no result. -/
inductive ArithFault where
  | divideByZero
  | moduloByZero
  /-- One of the operands is no integer. -/
  | noInteger
  deriving DecidableEq, Repr

/-- Shift to the left; a negative distance shifts to the right, and zeros come in. -/
def shiftLeft (a b : Int64) : Int64 :=
  let distance := b.toInt
  let word := a.toUInt64.toNat
  if distance ≤ -64 ∨ 64 ≤ distance then 0
  else if 0 ≤ distance then Int64.ofNat (word * Nat.pow 2 distance.toNat % 0x10000000000000000)
  else Int64.ofNat (word / Nat.pow 2 distance.natAbs)

/-- Remainder of doubles, with the sign of the first: exact, as both are fractions over one power of
two. -/
def floatRemainder (a b : Float) : Float :=
  match Decimal.Reading.ofFloat a, Decimal.Reading.ofFloat b with
  | .finite negative x, .finite _ y =>
    if y.significand = 0 then 0.0 / 0.0
    else
      let low := min x.exponent y.exponent
      let m := x.significand * Nat.pow 2 (x.exponent - low).toNat
      let n := y.significand * Nat.pow 2 (y.exponent - low).toNat
      let (num, den) := (Decimal.Dyadic.mk (m % n) low).ratio
      let r := Decimal.ofFraction num den
      if negative then -r else r
  | .finite .., .infinite _ => a
  | _, _ => 0.0 / 0.0

/-- Modulo of doubles: the remainder takes the sign of the divisor. -/
def floatModulo (a b : Float) : Float :=
  let r := floatRemainder a b
  if r > 0 then (if b < 0 then r + b else r)
  else if r < 0 && b > 0 then r + b
  else r

/-- A power; squaring is one multiplication. -/
def floatPower (a b : Float) : Float := if b == 2 then a * a else a.pow b

/-- An operation on two integers, where it stays among them. -/
def intArith? (op : Arith) (a b : Int64) : Option (Except ArithFault Int64) :=
  match op with
  | .add => some (.ok (a + b))
  | .sub => some (.ok (a - b))
  | .mul => some (.ok (a * b))
  | .idiv =>
    some (if b == 0 then .error .divideByZero else .ok (Int64.ofInt (a.toInt.fdiv b.toInt)))
  | .mod =>
    some (if b == 0 then .error .moduloByZero else .ok (Int64.ofInt (a.toInt.fmod b.toInt)))
  | .unm => some (.ok (-a))
  | .pow | .div => none
  | .band => some (.ok (a &&& b))
  | .bor => some (.ok (a ||| b))
  | .bxor => some (.ok (a ^^^ b))
  | .shl => some (.ok (shiftLeft a b))
  | .shr => some (.ok (if b == Int64.minValue then 0 else shiftLeft a (-b)))
  | .bnot => some (.ok (~~~a))

/-- An operation on two doubles. -/
def floatArith (op : Arith) (a b : Float) : Float :=
  match op with
  | .add => a + b
  | .sub => a - b
  | .mul => a * b
  | .div => a / b
  | .pow => floatPower a b
  | .idiv => (a / b).floor
  | .mod => floatModulo a b
  | .unm => -a
  | _ => 0

/-- Does the operation need integers? -/
def Arith.isBitwise : Arith → Bool
  | .band | .bor | .bxor | .shl | .shr | .bnot => true
  | _ => false

/-- An operation on two numbers; those with one operand get it twice. -/
def arith (op : Arith) (a b : Number) : Except ArithFault Number :=
  if op.isBitwise then
    match a.toInt?, b.toInt? with
    | some m, some n =>
      match intArith? op m n with
      | some (.ok r) => .ok (.int r)
      | some (.error e) => .error e
      | none => .error .noInteger
    | _, _ => .error .noInteger
  else
    match a, b with
    | .int m, .int n =>
      match intArith? op m n with
      | some (.ok r) => .ok (.int r)
      | some (.error e) => .error e
      | none => .ok (.float (floatArith op a.toFloat b.toFloat))
    | _, _ => .ok (.float (floatArith op a.toFloat b.toFloat))

/-! ## Comparison -/

/-- Is an integer less than a double? -/
def intLtFloat (n : Int64) (x : Float) : Bool :=
  if x.isNaN then false
  else if twoPow63 ≤ x then true
  else if x ≤ -twoPow63 then false
  else n.toInt < x.ceil.toInt64.toInt

/-- Is an integer at most a double? -/
def intLeFloat (n : Int64) (x : Float) : Bool :=
  if x.isNaN then false
  else if twoPow63 ≤ x then true
  else if x < -twoPow63 then false
  else n.toInt ≤ x.floor.toInt64.toInt

/-- Less than. -/
def Number.lt : Number → Number → Bool
  | .int a, .int b => a.toInt < b.toInt
  | .float a, .float b => a < b
  | .int a, .float b => intLtFloat a b
  | .float a, .int b => !a.isNaN && !intLeFloat b a

/-- At most. -/
def Number.le : Number → Number → Bool
  | .int a, .int b => a.toInt ≤ b.toInt
  | .float a, .float b => a ≤ b
  | .int a, .float b => intLeFloat a b
  | .float a, .int b => !a.isNaN && !intLtFloat b a

/-- Equal as numbers. -/
def Number.equal : Number → Number → Bool
  | .int a, .int b => a == b
  | .float a, .float b => a == b
  | .int a, .float b => floatToInt? b == some a
  | .float a, .int b => floatToInt? a == some b

/-- Equal without asking a metatable. -/
def Value.rawEqual : Value → Value → Bool
  | .nil, .nil => true
  | .bool a, .bool b => a == b
  | .int a, .int b => a == b
  | .float a, .float b => a == b
  | .int a, .float b => floatToInt? b == some a
  | .float a, .int b => floatToInt? a == some b
  | .str a, .str b => a == b
  | .table a, .table b => a == b
  | .closure a, .closure b => a == b
  | .builtin a, .builtin b => a == b
  | .matcher a, .matcher b => a == b
  | .host a, .host b => a == b
  | .object a, .object b => a == b
  | .raised a, .raised b => a == b
  | _, _ => false

end ScriptWarden.Lua
