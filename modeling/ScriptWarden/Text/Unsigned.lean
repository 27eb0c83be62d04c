set_option autoImplicit false

/-!
# Text: unsigned numbers

A number in a command line or an error position: digits, with a plus sign in front if one likes,
that fit a word of the given width.
-/

namespace ScriptWarden.Text

/-- Decimal digits, all of them, as a number. -/
def digitsValue? : List Char → Nat → Option Nat
  | [], n => some n
  | c :: rest, n => if c.isDigit then digitsValue? rest (n * 10 + (c.toNat - '0'.toNat)) else none

/-- The number of at most `bits` bits that the characters spell. -/
def unsigned? (bits : Nat) (cs : List Char) : Option Nat := do
  let digits := match cs with
    | '+' :: rest => rest
    | _ => cs
  if digits.isEmpty then none
  else
    let n ← digitsValue? digits 0
    if n < Nat.pow 2 bits then some n else none

end ScriptWarden.Text
