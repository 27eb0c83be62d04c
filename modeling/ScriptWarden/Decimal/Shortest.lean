import ScriptWarden.Decimal.Binary
set_option autoImplicit false

/-!
# Decimal: the fewest digits that read back

`shortest` names the decimal with the fewest digits among those that round to a given positive
double, and of those the one nearest to it.  The decimals that round to the double `m · 2 ^ e` are
those of an interval around it, ends included exactly when `m` is even.  On each grid of
1, 2, …, 17 significant digits it is enough to look at the two neighbours of the value: if any point
of the grid lies in the interval, one of them does.
-/

namespace ScriptWarden.Decimal

/-- A decimal number `digits · 10 ^ exponent`. -/
structure Digits where
  digits : Nat
  exponent : Int
  deriving DecidableEq, Repr, Inhabited

/-- The interval of reals that round to a double, in quarters of a unit in its last place:
`low / 4` and `high / 4` units, with the double itself at `mid / 4`. -/
structure Basin where
  low : Nat
  mid : Nat
  high : Nat
  /-- Two less than the double's exponent: the scale of the three numbers above. -/
  exponent : Int
  closed : Bool
  deriving DecidableEq, Repr

/-- Below a power of two the doubles lie twice as dense, so the interval is shorter there. -/
def Basin.ofDyadic (d : Dyadic) : Basin :=
  let step := if d.significand = 0x10000000000000 ∧ d.exponent ≠ -1074 then 1 else 2
  { low := 4 * d.significand - step
    mid := 4 * d.significand
    high := 4 * d.significand + 2
    exponent := d.exponent - 2
    closed := d.significand % 2 = 0 }

/-- Is the decimal `c` inside the interval? -/
def Basin.contains (b : Basin) (c : Digits) : Bool :=
  let (num, den) := scaleTen (c.digits, 1) c.exponent
  let (lowNum, lowDen) := (Dyadic.mk b.low b.exponent).ratio
  let (highNum, highDen) := (Dyadic.mk b.high b.exponent).ratio
  if b.closed then lowNum * den ≤ num * lowDen && num * highDen ≤ highNum * den
  else lowNum * den < num * lowDen && num * highDen < highNum * den

/-- The point of the grid of `count` significant digits that reads back, the nearer one first. -/
def onGrid (b : Basin) (fraction : Nat × Nat) (lead : Int) (count : Nat) : Option Digits :=
  let exponent := lead - (count - 1)
  let (num, den) := scaleTen fraction (-exponent)
  let below : Digits := ⟨num / den, exponent⟩
  let above : Digits := ⟨num / den + 1, exponent⟩
  let rest := num % den
  let nearBelow := 2 * rest < den || (2 * rest = den && num / den % 2 = 0)
  let first := if nearBelow then below else above
  let second := if nearBelow then above else below
  if b.contains first then some first
  else if b.contains second then some second
  else none

/-- Strip trailing zeros, at most `fuel` of them. -/
def Digits.trim (fuel : Nat) (c : Digits) : Digits :=
  match fuel with
  | 0 => c
  | fuel + 1 =>
    if c.digits ≠ 0 ∧ c.digits % 10 = 0 then trim fuel ⟨c.digits / 10, c.exponent + 1⟩ else c

/-- The shortest decimal that reads back as the positive dyadic `d`. -/
def shortest (d : Dyadic) : Digits :=
  let fraction := d.ratio
  let lead := leadingExponent fraction
  let basin := Basin.ofDyadic d
  match (List.range 17).findSome? fun n => onGrid basin fraction lead (n + 1) with
  | some c => c.trim 18
  | none => ⟨d.significand, 0⟩

end ScriptWarden.Decimal
