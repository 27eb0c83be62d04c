import ScriptWarden.Decimal.Binary
set_option autoImplicit false

/-!
# Decimal: reading

The double nearest to a decimal or to a hexadecimal numeral; a half goes to the even neighbour.
-/

namespace ScriptWarden.Decimal

/-- The double nearest to `mantissa · 10 ^ exponent`.  Exponents far outside the range of doubles are
settled by the size of the number, so that no large power is ever computed. -/
def nearest (mantissa : Nat) (exponent : Int) : Float :=
  if mantissa = 0 then 0
  else
    let size : Int := exponent + (Nat.toDigits 10 mantissa).length
    if 400 < size then 1.0 / 0.0
    else if size < -400 then 0
    else Float.ofScientific mantissa (exponent < 0) exponent.natAbs

/-- The double nearest to the positive fraction `num / den`: cut to 53 bits (fewer below the normal
range), and scaled back. -/
def ofFraction (num den : Nat) : Float :=
  if num = 0 ∨ den = 0 then 0
  else
    let lead : Int := (num.log2 : Int) - (den.log2 : Int)
    let shift : Int := max (lead - 53) (-1074)
    let quotient := match shift with
      | .ofNat k => roundHalfEven num (den * Nat.pow 2 k)
      | .negSucc k => roundHalfEven (num * Nat.pow 2 (k + 1)) den
    -- `quotient` may carry one bit more than fits; that bit is rounded away below.
    let (quotient, shift) :=
      if quotient < 0x20000000000000 then (quotient, shift)
      else
        match shift + 1 with
        | .ofNat k => (roundHalfEven num (den * Nat.pow 2 k), shift + 1)
        | .negSucc k => (roundHalfEven (num * Nat.pow 2 (k + 1)) den, shift + 1)
    Float.scaleB (Float.ofNat quotient) shift

end ScriptWarden.Decimal
