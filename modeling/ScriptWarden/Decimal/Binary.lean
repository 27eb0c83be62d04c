set_option autoImplicit false

/-!
# Decimal: the exact value of a double

A finite double is a sign and a dyadic number `significand · 2 ^ exponent`.  Everything the other
modules of this folder do with a double, they do with that dyadic number in exact natural-number
arithmetic; the hardware's own rounding never enters a printed digit.
-/

namespace ScriptWarden.Decimal

/-- The number `significand · 2 ^ exponent`. -/
structure Dyadic where
  significand : Nat
  exponent : Int
  deriving DecidableEq, Repr, Inhabited

namespace Dyadic

/-- The number as a fraction with a positive denominator. -/
def ratio (d : Dyadic) : Nat × Nat :=
  match d.exponent with
  | .ofNat e => (d.significand * Nat.pow 2 e, 1)
  | .negSucc e => (d.significand, Nat.pow 2 (e + 1))

end Dyadic

/-- What a double stands for. -/
inductive Reading where
  | nan
  | infinite (negative : Bool)
  | finite (negative : Bool) (value : Dyadic)
  deriving DecidableEq, Repr, Inhabited

/-- Split the 64 bits of a double into sign, exponent and significand. -/
def Reading.ofBits (bits : UInt64) : Reading :=
  let word := bits.toNat
  let negative := 0x8000000000000000 ≤ word
  let biased : Nat := word / 0x10000000000000 % 0x800
  let fraction := word % 0x10000000000000
  if biased = 2047 then
    if fraction = 0 then .infinite negative else .nan
  else if biased = 0 then
    .finite negative ⟨fraction, -1074⟩
  else
    .finite negative ⟨0x10000000000000 + fraction, (biased : Int) - 1075⟩

/-- The exact value of a double. -/
def Reading.ofFloat (x : Float) : Reading := .ofBits x.toBits

/-- Nearest integer to `num / den`; a half goes to the even neighbour. -/
def roundHalfEven (num den : Nat) : Nat :=
  let quotient := num / den
  let rest := num % den
  if 2 * rest < den then quotient
  else if den < 2 * rest then quotient + 1
  else if quotient % 2 = 0 then quotient else quotient + 1

/-- The fraction scaled by a power of ten. -/
def scaleTen (fraction : Nat × Nat) : Int → Nat × Nat
  | .ofNat k => (fraction.1 * Nat.pow 10 k, fraction.2)
  | .negSucc k => (fraction.1, fraction.2 * Nat.pow 10 (k + 1))

/-- Does `10 ^ k ≤ num / den` hold? -/
def reachesPowerOfTen (fraction : Nat × Nat) : Int → Bool
  | .ofNat k => Nat.pow 10 k * fraction.2 ≤ fraction.1
  | .negSucc k => fraction.2 ≤ fraction.1 * Nat.pow 10 (k + 1)

/-- The exponent of the leading decimal digit of a positive fraction: the largest `k` with
`10 ^ k ≤ num / den`.  The bit lengths give a guess that is at most one off. -/
def leadingExponent (fraction : Nat × Nat) : Int :=
  let bits : Int := (fraction.1.log2 : Int) - (fraction.2.log2 : Int)
  let guess := (bits * 1233) / 4096
  if reachesPowerOfTen fraction (guess + 1) then guess + 1
  else if reachesPowerOfTen fraction guess then guess
  else if reachesPowerOfTen fraction (guess - 1) then guess - 1
  else guess - 2

end ScriptWarden.Decimal
