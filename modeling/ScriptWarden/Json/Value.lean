set_option autoImplicit false

/-!
# Json: values

A document is kept as far as its text decides it, and no further: a number stays the digits that were
written, and a string whose escapes name no character (or whose bytes are no UTF-8) is kept as
*broken*, so that a reader may pass over it where nobody looks at it and refuse it where somebody
does.
-/

namespace ScriptWarden.Json

/-- A number with a fraction, an exponent or a negative zero: the digits as written.
`exponent` is zero when none is written. -/
structure Numeral where
  negative : Bool
  whole : Nat
  fraction : List Nat
  exponent : Int
  deriving DecidableEq, Repr, Inhabited

/-- A JSON value.  A key or string is `none` where its text is broken. -/
inductive Value where
  | null
  | bool (b : Bool)
  | int (n : Int)
  | real (n : Numeral)
  | string (s : Option String)
  | array (items : List Value)
  | object (fields : List (Option String × Value))
  deriving Repr, Inhabited

namespace Value

/-- A string value. -/
def text (s : String) : Value := .string (some s)

/-- A natural number. -/
def nat (n : Nat) : Value := .int n

/-- An object with well-formed keys. -/
def record (fields : List (String × Value)) : Value :=
  .object (fields.map fun (k, v) => (some k, v))

/-- The value or `null`. -/
def ofOption {α : Type} (f : α → Value) : Option α → Value
  | none => .null
  | some a => f a

mutual

/-- Nesting: a scalar has depth zero, a list or object one more than its deepest member. -/
def depth : Value → Nat
  | .array items => depthList items + 1
  | .object fields => depthFields fields + 1
  | _ => 0

/-- The deepest of some values. -/
def depthList : List Value → Nat
  | [] => 0
  | v :: rest => max v.depth (depthList rest)

/-- The deepest of some members. -/
def depthFields : List (Option String × Value) → Nat
  | [] => 0
  | (_, v) :: rest => max v.depth (depthFields rest)

end

end Value

/-! ## The double a numeral denotes

A word of 64 bits takes as many leading digits as fit; further digits only move the exponent.  The
word, made a double, is then multiplied or divided once by a power of ten. -/

namespace Numeral

/-- The leading digits, and the exponent that goes with them. -/
structure Leading where
  word : Nat
  exponent : Int
  full : Bool
  deriving Repr

/-- The largest word. -/
def wordLimit : Nat := 0xFFFFFFFFFFFFFFFF

/-- One more digit before the point. -/
def Leading.pushWhole (l : Leading) (digit : Nat) : Leading :=
  if l.full || wordLimit < l.word * 10 + digit then
    { l with exponent := l.exponent + 1, full := true }
  else { l with word := l.word * 10 + digit }

/-- One more digit after the point. -/
def Leading.pushFraction (l : Leading) (digit : Nat) : Leading :=
  if l.full || wordLimit < l.word * 10 + digit then { l with full := true }
  else { l with word := l.word * 10 + digit, exponent := l.exponent - 1 }

/-- Leading digits of a numeral. -/
def leading (n : Numeral) : Leading :=
  let whole := (Nat.toDigits 10 n.whole).map fun c => c.toNat - '0'.toNat
  let l := whole.foldl Leading.pushWhole ⟨0, 0, false⟩
  let l := n.fraction.foldl Leading.pushFraction { l with full := false }
  { l with exponent := l.exponent + n.exponent }

/-- `10 ^ k` for `k ≤ 308`, correctly rounded. -/
def powerOfTen (k : Nat) : Float := Float.ofScientific 1 false k

/-- Scale by a power of ten; `none` on overflow.  Each round of `fuel` divides by `10 ^ 308`, and
two of them take any word to zero. -/
def scale (fuel : Nat) (x : Float) (exponent : Int) : Option Float :=
  if exponent.natAbs ≤ 308 then
    if 0 ≤ exponent then
      let y := x * powerOfTen exponent.natAbs
      if y.isInf then none else some y
    else some (x / powerOfTen exponent.natAbs)
  else if x == 0 then some x
  else if 0 ≤ exponent then none
  else match fuel with
    | 0 => some 0
    | fuel + 1 => scale fuel (x / powerOfTen 308) (exponent + 308)

/-- The double that the numeral denotes; `none` when it is too large for one. -/
def toFloat? (n : Numeral) : Option Float :=
  let l := n.leading
  (scale 4 (Float.ofNat l.word) l.exponent).map fun x => if n.negative then -x else x

end Numeral

/-- The double that an integer literal denotes. -/
def intToFloat? (n : Int) : Option Float :=
  Numeral.toFloat? ⟨n < 0, n.natAbs, [], 0⟩

namespace Value

mutual

/-- Every string and key is well formed and every number fits a double. -/
def wellFormed : Value → Bool
  | .null | .bool _ => true
  | .int n => (intToFloat? n).isSome
  | .real n => n.toFloat?.isSome
  | .string s => s.isSome
  | .array items => wellFormedList items
  | .object fields => wellFormedFields fields

/-- Every item is well formed. -/
def wellFormedList : List Value → Bool
  | [] => true
  | v :: rest => v.wellFormed && wellFormedList rest

/-- Every member is well formed. -/
def wellFormedFields : List (Option String × Value) → Bool
  | [] => true
  | (k, v) :: rest => k.isSome && v.wellFormed && wellFormedFields rest

end

end Value

end ScriptWarden.Json
