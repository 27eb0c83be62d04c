import Mathlib.Algebra.Group.Nat.Defs
import ScriptWarden.Text.Unsigned
set_option autoImplicit false

/-!
# Unsigned numbers are read as they are written

A number that fits the width is found again in its decimal digits.
-/

namespace ScriptWarden.Text

theorem digitsValue?_of_isDigit {cs : List Char} (h : ∀ c ∈ cs, c.isDigit = true) (n : Nat) :
    digitsValue? cs n = some (Nat.ofDigitChars 10 cs n) := by
  induction cs generalizing n with
  | nil => rfl
  | cons c cs ih =>
    have digit : c.isDigit = true := h c List.mem_cons_self
    rw [digitsValue?, if_pos digit, ih fun d hd => h d (List.mem_cons_of_mem _ hd)]
    simp [Nat.ofDigitChars_eq_foldl, Nat.mul_comm]

theorem isDigit_of_mem_toString {n : Nat} {c : Char} (h : c ∈ (toString n).toList) :
    c.isDigit = true := by
  rw [Nat.toString_eq_ofList_toDigits, String.toList_ofList] at h
  exact Nat.isDigit_of_mem_toDigits (by decide) (by decide) h

/-- Digits are the number that they spell if it fits. -/
theorem unsigned?_of_isDigit {bits : Nat} {cs : List Char} (some_digit : cs ≠ [])
    (h : ∀ c ∈ cs, c.isDigit = true) (fits : Nat.ofDigitChars 10 cs 0 < 2 ^ bits) :
    unsigned? bits cs = some (Nat.ofDigitChars 10 cs 0) := by
  cases cs with
  | nil => exact absurd rfl some_digit
  | cons c cs =>
    have no_sign : ∀ rest, c :: cs ≠ '+' :: rest := by
      intro rest sign
      obtain ⟨rfl, -⟩ := List.cons.inj sign
      exact absurd (h '+' List.mem_cons_self) (by decide)
    have fits' : Nat.ofDigitChars 10 (c :: cs) 0 < Nat.pow 2 bits := fits
    simp only [unsigned?, List.isEmpty_cons, Bool.false_eq_true, if_false,
      digitsValue?_of_isDigit h, Option.bind_eq_bind, Option.bind_some, fits', if_true]

/-- A number that fits is read as itself. -/
theorem unsigned?_toString {bits n : Nat} (h : n < 2 ^ bits) :
    unsigned? bits (toString n).toList = some n := by
  have digits : (toString n).toList = Nat.toDigits 10 n := by
    rw [Nat.toString_eq_ofList_toDigits, String.toList_ofList]
  have value : Nat.ofDigitChars 10 (toString n).toList 0 = n := by
    rw [digits, Nat.ofDigitChars_ten_toDigits]
  have fits : Nat.ofDigitChars 10 (toString n).toList 0 < 2 ^ bits := by rwa [value]
  rw [unsigned?_of_isDigit (digits ▸ Nat.toDigits_ne_nil) (fun _ hc => isDigit_of_mem_toString hc) fits,
    value]

theorem digitsValue?_eq_none {c : Char} (h : c.isDigit = false) {cs : List Char} (hc : c ∈ cs)
    (n : Nat) : digitsValue? cs n = none := by
  induction cs generalizing n with
  | nil => cases hc
  | cons d cs ih =>
    rw [digitsValue?]
    split
    · next digit =>
      refine ih ((List.mem_cons.1 hc).resolve_left ?_) _
      rintro rfl
      exact absurd digit (by simp [h])
    · rfl

/-- A character that is neither digit nor sign spells no number. -/
theorem unsigned?_eq_none {bits : Nat} {c : Char} (h : c.isDigit = false) (other : c ≠ '+')
    {cs : List Char} (hc : c ∈ cs) : unsigned? bits cs = none := by
  have none_in : ∀ ds, c ∈ ds → (if ds.isEmpty then none else do
      let n ← digitsValue? ds 0
      if n < Nat.pow 2 bits then some n else none) = none := by
    intro ds hds
    rw [digitsValue?_eq_none h hds]
    simp
  by_cases sign : ∃ rest, cs = '+' :: rest
  · obtain ⟨rest, rfl⟩ := sign
    rw [unsigned?]
    exact none_in rest ((List.mem_cons.1 hc).resolve_left other)
  · rw [unsigned?]
    · exact none_in cs hc
    · exact fun rest hcs => sign ⟨rest, hcs⟩

end ScriptWarden.Text
