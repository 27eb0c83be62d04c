import ScriptWarden.Decimal.Shortest
set_option autoImplicit false

/-!
# Decimal: laying digits out

A rounded or shortest decimal becomes text in one of three layouts: positional, with an exponent,
or the general layout that chooses between them by the size of the exponent.
-/

namespace ScriptWarden.Decimal

/-- Decimal digits of a natural number, most significant first. -/
def natDigits (n : Nat) : List Char := Nat.toDigits 10 n

/-- The digits, padded with zeros on the left to at least `width`. -/
def padLeft (width : Nat) (cs : List Char) : List Char :=
  List.replicate (width - cs.length) '0' ++ cs

/-- `digits · 10 ^ exponent` without an exponent, no digit more than needed. -/
def positional (c : Digits) : List Char :=
  let cs := natDigits c.digits
  match c.exponent with
  | .ofNat e => if c.digits = 0 then cs else cs ++ List.replicate e '0'
  | .negSucc e =>
    let places := e + 1
    let padded := padLeft (places + 1) cs
    let cut := padded.length - places
    padded.take cut ++ '.' :: padded.drop cut

/-- A value rounded to `places` digits after the point; the point itself is left out when there are
none, unless `keepPoint`. -/
def fixedPoint (d : Dyadic) (places : Nat) (keepPoint : Bool) : List Char :=
  let (num, den) := d.ratio
  let cs := padLeft (places + 1) (natDigits (roundHalfEven (num * Nat.pow 10 places) den))
  let cut := cs.length - places
  let fraction := cs.drop cut
  cs.take cut ++ (if fraction.isEmpty && !keepPoint then [] else '.' :: fraction)

/-- A value rounded to `count ≥ 1` significant digits: exactly `count` digits, and the exponent of
the first of them.  Zero has the exponent zero. -/
def significant (d : Dyadic) (count : Nat) : Nat × Int :=
  if d.significand = 0 then (0, 0)
  else
    let lead := leadingExponent d.ratio
    let (num, den) := scaleTen d.ratio ((count : Int) - 1 - lead)
    let rounded := roundHalfEven num den
    if rounded = Nat.pow 10 count then (Nat.pow 10 (count - 1), lead + 1) else (rounded, lead)

/-- A signed exponent of at least two digits. -/
def exponentSuffix (e : Int) : List Char :=
  'e' :: (if e < 0 then '-' else '+') :: padLeft 2 (natDigits e.natAbs)

/-- One digit, a point and `places` more digits, and an exponent. -/
def scientific (d : Dyadic) (places : Nat) (keepPoint : Bool) : List Char :=
  let (digits, lead) := significant d (places + 1)
  let cs := padLeft (places + 1) (natDigits digits)
  let fraction := cs.drop 1
  cs.take 1 ++ (if fraction.isEmpty && !keepPoint then [] else '.' :: fraction)
    ++ exponentSuffix lead

/-- Drop zeros at the end of a fraction, and the point if nothing follows it. -/
def dropTrailingZeros (cs : List Char) : List Char :=
  if cs.contains '.' then
    let kept := cs.reverse.dropWhile (· == '0')
    (match kept with
      | '.' :: rest => rest
      | _ => kept).reverse
  else cs

/-- The general layout with `precision` significant digits: positional while the exponent of the
first digit lies in `[-4, precision)`, otherwise with an exponent.  Trailing zeros go unless
`keepZeros`. -/
def general (d : Dyadic) (precision : Nat) (keepZeros : Bool) : List Char :=
  let count := if precision = 0 then 1 else precision
  let (digits, lead) := significant d count
  let tidy := fun cs => if keepZeros then cs else dropTrailingZeros cs
  if lead < -4 ∨ (count : Int) ≤ lead then
    let cs := padLeft count (natDigits digits)
    let fraction := cs.drop 1
    let body := cs.take 1 ++ (if fraction.isEmpty && !keepZeros then [] else '.' :: fraction)
    tidy body ++ exponentSuffix lead
  else
    tidy (fixedPoint d ((count : Int) - 1 - lead).toNat keepZeros)

/-- The sign of a double in front of the text of its magnitude. -/
def signed (negative : Bool) (cs : List Char) : List Char :=
  if negative then '-' :: cs else cs

/-- Shortest text that reads back, never with an exponent. -/
def plainText (x : Float) : String :=
  match Reading.ofFloat x with
  | .nan => "NaN"
  | .infinite negative => String.ofList (signed negative "inf".toList)
  | .finite negative d =>
    String.ofList (signed negative (if d.significand = 0 then ['0'] else positional (shortest d)))

/-- Shortest text that reads back and shows that it is a fraction: at least one digit after the
point, and an exponent below `10 ^ -4` and from `10 ^ 16` on. -/
def detailText (x : Float) : String :=
  match Reading.ofFloat x with
  | .nan => "NaN"
  | .infinite negative => String.ofList (signed negative "inf".toList)
  | .finite negative d =>
    if d.significand = 0 then String.ofList (signed negative "0.0".toList)
    else
      let c := shortest d
      let cs := natDigits c.digits
      let lead := c.exponent + cs.length - 1
      let body :=
        if lead < -4 ∨ 16 ≤ lead then
          let fraction := cs.drop 1
          cs.take 1 ++ (if fraction.isEmpty then [] else '.' :: fraction)
            ++ 'e' :: (toString lead).toList
        else
          let text := positional c
          if text.contains '.' then text else text ++ ['.', '0']
      String.ofList (signed negative body)

/-- A double with exactly `places` digits after the point. -/
def fixedText (x : Float) (places : Nat) : String :=
  match Reading.ofFloat x with
  | .nan => "NaN"
  | .infinite negative => String.ofList (signed negative "inf".toList)
  | .finite negative d => String.ofList (signed negative (fixedPoint d places false))

end ScriptWarden.Decimal
