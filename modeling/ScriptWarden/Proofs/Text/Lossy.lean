import Mathlib.Algebra.Group.Nat.Defs
import Mathlib.Tactic.SplitIfs
import ScriptWarden.Proofs.Text.Utf8
set_option autoImplicit false

/-!
# Reading a text whatever it is

`Text.lossy` reads every byte string.  It goes on behind an ASCII byte wherever it stands, so a text is
read part by part if an ASCII byte begins the second part.  An ASCII character among those that were read
is an ASCII byte of the text: nothing else is read as one.
-/

namespace ScriptWarden.Text

/-! ## One character -/

/-- A step of decoding with more bytes behind that continue no character. -/
def Scalar.followed (tail : List UInt8) : Scalar → Scalar
  | .char c rest => .char c (rest ++ tail)
  | .broken count rest => .broken count (rest ++ tail)
  | .truncated count => .broken count tail

/-- The bytes that a step leaves. -/
def Scalar.left : Scalar → List UInt8
  | .char _ rest => rest
  | .broken _ rest => rest
  | .truncated _ => []

/-- The character that a step finds. -/
def Scalar.found : Scalar → Char
  | .char c _ => c
  | _ => replacement

@[simp] theorem Scalar.followed_left (tail : List UInt8) (s : Scalar) :
    (s.followed tail).left = s.left ++ tail := by
  cases s <;> rfl

@[simp] theorem Scalar.followed_found (tail : List UInt8) (s : Scalar) :
    (s.followed tail).found = s.found := by
  cases s <;> rfl

theorem continueScalar_left_suffix (need : Nat) (low high : UInt8) (bits taken : Nat)
    (rest : List UInt8) : (continueScalar need low high bits taken rest).left <:+ rest := by
  induction need generalizing low high bits taken rest with
  | zero => simp [continueScalar, Scalar.left]
  | succ need ih =>
    cases rest with
    | nil => simp [continueScalar, Scalar.left]
    | cons b after =>
      rw [continueScalar]
      split
      · exact (ih ..).trans (List.suffix_cons b after)
      · exact List.suffix_rfl

theorem scalar_left_suffix (b : UInt8) (rest : List UInt8) : (scalar b rest).left <:+ rest := by
  rw [scalar]
  cases lead? b with
  | none => exact List.suffix_rfl
  | some l => exact continueScalar_left_suffix ..

theorem scalar_of_ascii {b : UInt8} (h : b < 0x80) (rest : List UInt8) :
    scalar b rest = .char (Char.ofNat b.toNat) rest := by
  simp [scalar, lead?, h, continueScalar]

/-- The second byte of a character is none of ASCII. -/
theorem lead?_low {b : UInt8} {l : Lead} (h : lead? b = some l) : l.extra = 0 ∨ 0x80 ≤ l.low := by
  simp only [lead?] at h
  split at h <;> grind

theorem continueScalar_append {a : UInt8} (ha : a < 0x80) (tail : List UInt8) {need : Nat}
    {low high : UInt8} (hlow : need = 0 ∨ 0x80 ≤ low) (bits taken : Nat) (rest : List UInt8) :
    continueScalar need low high bits taken (rest ++ a :: tail) =
      (continueScalar need low high bits taken rest).followed (a :: tail) := by
  induction need generalizing low high bits taken rest with
  | zero => simp [continueScalar, Scalar.followed]
  | succ need ih =>
    have hlow : 0x80 ≤ low := hlow.resolve_left (Nat.succ_ne_zero need)
    cases rest with
    | nil =>
      have : ¬ low ≤ a := by grind
      simp [continueScalar, Scalar.followed, this]
    | cons b after =>
      simp only [List.cons_append, continueScalar]
      split
      · exact ih (.inr (by decide)) ..
      · simp [Scalar.followed]

theorem scalar_append {a : UInt8} (ha : a < 0x80) (b : UInt8) (rest tail : List UInt8) :
    scalar b (rest ++ a :: tail) = (scalar b rest).followed (a :: tail) := by
  simp only [scalar]
  cases h : lead? b with
  | none => simp [Scalar.followed]
  | some l => exact continueScalar_append ha tail (lead?_low h) ..

/-- The number of a character of several bytes lies between those that the first two bytes allow. -/
theorem continueScalar_char {need : Nat} {low high : UInt8} {bits taken : Nat}
    {rest after : List UInt8} {c : Char}
    (h : continueScalar (need + 1) low high bits taken rest = .char c after) :
    ∃ n, c = Char.ofNat n ∧ (bits * 64 + (low.toNat - 0x80)) * 64 ^ need ≤ n ∧
      n < (bits * 64 + (high.toNat - 0x80) + 1) * 64 ^ need := by
  induction need generalizing low high bits taken rest with
  | zero =>
    cases rest with
    | nil => simp [continueScalar] at h
    | cons b rest =>
      simp only [continueScalar, Bool.and_eq_true, decide_eq_true_eq] at h
      split at h
      · next between =>
        obtain ⟨rfl, -⟩ := Scalar.char.inj h
        have lower : low.toNat ≤ b.toNat := between.1
        have upper : b.toNat ≤ high.toNat := between.2
        exact ⟨_, rfl, by omega, by omega⟩
      · cases h
  | succ need ih =>
    cases rest with
    | nil => simp [continueScalar] at h
    | cons b rest =>
      rw [continueScalar] at h
      simp only [Bool.and_eq_true, decide_eq_true_eq] at h
      split at h
      · next between =>
        obtain ⟨n, hc, hlow, hhigh⟩ := ih h
        have lower : low.toNat ≤ b.toNat := between.1
        have upper : b.toNat ≤ high.toNat := between.2
        refine ⟨n, hc, Nat.le_trans ?_ hlow, Nat.lt_of_lt_of_le hhigh ?_⟩
        · rw [Nat.pow_succ', ← Nat.mul_assoc]
          exact Nat.mul_le_mul_right _ (by omega)
        · rw [Nat.pow_succ', ← Nat.mul_assoc]
          refine Nat.mul_le_mul_right _ ?_
          have : (0xBF : UInt8).toNat = 0xBF := rfl
          omega
      · cases h

/-- A first byte beyond ASCII announces characters beyond ASCII, and no number that is no character. -/
theorem lead?_range {b : UInt8} (hb : ¬ b < 0x80) {l : Lead} (h : lead? b = some l) :
    ∃ need, l.extra = need + 1 ∧
      ∀ n, (l.bits * 64 + (l.low.toNat - 0x80)) * 64 ^ need ≤ n →
        n < (l.bits * 64 + (l.high.toNat - 0x80) + 1) * 64 ^ need → 0x80 ≤ n ∧ n.isValidChar := by
  simp only [UInt8.lt_iff_toNat_lt, UInt8.reduceToNat] at hb
  simp only [lead?, UInt8.lt_iff_toNat_lt, UInt8.reduceToNat, beq_iff_eq, ← UInt8.toNat_inj] at h
  -- the rows of the table; in each the bounds are numbers
  split_ifs at h <;> obtain rfl := Option.some.inj h <;>
    exact ⟨_, rfl, fun n lower upper => by simp only [UInt8.reduceToNat] at lower upper; omega⟩

theorem toNat_ofNat_of_isValidChar {n : Nat} (h : n.isValidChar) : (Char.ofNat n).toNat = n := by
  rw [Char.ofNat, dif_pos h]
  rfl

/-- Nothing is read as an ASCII character but that character's byte. -/
theorem le_scalar_found {b : UInt8} (hb : ¬ b < 0x80) (rest : List UInt8) :
    0x80 ≤ (scalar b rest).found.toNat := by
  have stands : 0x80 ≤ replacement.toNat := by decide
  cases step : scalar b rest with
  | broken count left => exact stands
  | truncated count => exact stands
  | char c left =>
    rw [scalar] at step
    cases first : lead? b with
    | none => simp [first] at step
    | some l =>
      obtain ⟨need, hextra, range⟩ := lead?_range hb first
      simp only [first, hextra] at step
      obtain ⟨n, rfl, lower, upper⟩ := continueScalar_char step
      obtain ⟨large, valid⟩ := range n lower upper
      rwa [Scalar.found, toNat_ofNat_of_isValidChar valid]

/-! ## A text -/

/-- The characters that are read in a text. -/
def lossyChars (input : List UInt8) : List Char := lossyFrom input.length [] input

theorem toList_lossy (s : ByteArray) : (lossy s).toList = lossyChars s.toList := by
  rw [lossy, String.toList_ofList, lossyChars, toList_eq_data]
  rfl

/-- A turn takes a character from the text. -/
theorem lossyFrom_cons (fuel : Nat) (got : List Char) (b : UInt8) (rest : List UInt8) :
    lossyFrom (fuel + 1) got (b :: rest) =
      lossyFrom fuel ((scalar b rest).found :: got) (scalar b rest).left := by
  rw [lossyFrom]
  cases scalar b rest with
  | char c after => rfl
  | broken count after => rfl
  | truncated count => cases fuel <;> rfl

/-- Enough turns read the whole text. -/
theorem lossyFrom_eq {fuel : Nat} {input : List UInt8} (enough : input.length ≤ fuel) (got : List Char) :
    lossyFrom fuel got input = got.reverse ++ lossyChars input := by
  rw [lossyChars]
  induction fuel using Nat.strongRecOn generalizing input got with
  | ind fuel ih =>
    cases input with
    | nil => cases fuel <;> simp [lossyFrom]
    | cons b rest =>
      cases fuel with
      | zero => exact absurd enough (Nat.not_succ_le_zero _)
      | succ fuel =>
        have room : rest.length ≤ fuel := Nat.le_of_succ_le_succ enough
        have shorter := (scalar_left_suffix b rest).length_le
        rw [lossyFrom_cons, List.length_cons, lossyFrom_cons, ih fuel (by omega) (by omega),
          ih rest.length (by omega) shorter]
        simp

@[simp] theorem lossyChars_nil : lossyChars [] = [] := rfl

theorem lossyChars_cons (b : UInt8) (rest : List UInt8) :
    lossyChars (b :: rest) = (scalar b rest).found :: lossyChars (scalar b rest).left := by
  rw [lossyChars, List.length_cons, lossyFrom_cons,
    lossyFrom_eq (scalar_left_suffix b rest).length_le]
  rfl

theorem lossyChars_cons_of_ascii {b : UInt8} (h : b < 0x80) (rest : List UInt8) :
    lossyChars (b :: rest) = Char.ofNat b.toNat :: lossyChars rest := by
  rw [lossyChars_cons, scalar_of_ascii h]
  rfl

/-- A text is read part by part if the second part begins with an ASCII byte. -/
theorem lossyChars_append {a : UInt8} (ha : a < 0x80) (xs tail : List UInt8) :
    lossyChars (xs ++ a :: tail) = lossyChars xs ++ lossyChars (a :: tail) := by
  induction h : xs.length using Nat.strongRecOn generalizing xs with
  | ind n ih =>
    cases xs with
    | nil => simp
    | cons b rest =>
      have shorter : (scalar b rest).left.length < n := by
        have := (scalar_left_suffix b rest).length_le
        rw [← h, List.length_cons]
        omega
      rw [List.cons_append, lossyChars_cons, scalar_append ha, Scalar.followed_found,
        Scalar.followed_left, ih _ shorter _ rfl, lossyChars_cons b rest, List.cons_append]

/-- ASCII in front of a text is read as it stands. -/
theorem lossyChars_ascii_append {cs : List Char} (h : ∀ c ∈ cs, c.toNat < 0x80) (rest : List UInt8) :
    lossyChars (ascii cs ++ rest) = cs ++ lossyChars rest := by
  induction cs with
  | nil => rfl
  | cons c cs ih =>
    have small : c.toNat < 0x80 := h c List.mem_cons_self
    have byte : (UInt8.ofNat c.toNat).toNat = c.toNat := by
      rw [UInt8.toNat_ofNat']
      omega
    have head : UInt8.ofNat c.toNat < 0x80 := by
      rw [UInt8.lt_iff_toNat_lt, byte]
      exact small
    have tail := ih fun d hd => h d (List.mem_cons_of_mem _ hd)
    simp only [ascii, List.map_cons, List.cons_append] at tail ⊢
    rw [lossyChars_cons_of_ascii head, byte, Char.ofNat_toNat, tail]

/-- ASCII in the middle of a text is read as it stands. -/
theorem lossyChars_ascii_mid {c : Char} {cs : List Char} (h : ∀ d ∈ c :: cs, d.toNat < 0x80)
    (xs rest : List UInt8) :
    lossyChars (xs ++ (ascii (c :: cs) ++ rest)) = lossyChars xs ++ (c :: cs ++ lossyChars rest) := by
  have small : c.toNat < 0x80 := h c List.mem_cons_self
  have head : UInt8.ofNat c.toNat < 0x80 := by
    rw [UInt8.lt_iff_toNat_lt, UInt8.toNat_ofNat']
    exact Nat.lt_of_le_of_lt (Nat.mod_le _ _) small
  rw [← lossyChars_ascii_append h]
  exact lossyChars_append head xs (ascii cs ++ rest)

/-! ## ASCII characters that were read -/

/-- An ASCII character that is read first is the first byte. -/
theorem lossyChars_eq_cons {a : Char} (ha : a.toNat < 0x80) {bs : List UInt8} {cs : List Char}
    (h : lossyChars bs = a :: cs) : ∃ rest, bs = UInt8.ofNat a.toNat :: rest ∧ lossyChars rest = cs := by
  cases bs with
  | nil => cases h
  | cons b rest =>
    by_cases small : b < 0x80
    · rw [lossyChars_cons_of_ascii small] at h
      obtain ⟨rfl, hrest⟩ := List.cons.inj h
      have valid : b.toNat.isValidChar := .inl (by have := b.toNat_lt; omega)
      rw [toNat_ofNat_of_isValidChar valid, UInt8.ofNat_toNat]
      exact ⟨rest, rfl, hrest⟩
    · rw [lossyChars_cons] at h
      have large := le_scalar_found small rest
      rw [(List.cons.inj h).1] at large
      omega

/-- Two ASCII characters that were read in a row are bytes in a row. -/
theorem infix_of_lossyChars {a b : Char} (ha : a.toNat < 0x80) (hb : b.toNat < 0x80) {bs : List UInt8}
    (h : [a, b] <:+: lossyChars bs) : [UInt8.ofNat a.toNat, UInt8.ofNat b.toNat] <:+: bs := by
  induction n : bs.length using Nat.strongRecOn generalizing bs with
  | ind n ih =>
    cases bs with
    | nil => simp at h
    | cons x rest =>
      have parts := h
      rw [lossyChars_cons, List.infix_cons_iff] at parts
      rcases parts with ⟨cs, front⟩ | behind
      · -- both stand in front
        rw [← lossyChars_cons] at front
        obtain ⟨rest₁, hbs, hrest₁⟩ := lossyChars_eq_cons ha front.symm
        obtain ⟨rest₂, rfl, -⟩ := lossyChars_eq_cons hb hrest₁
        rw [hbs]
        exact ⟨[], rest₂, rfl⟩
      · have left := scalar_left_suffix x rest
        have shorter := left.length_le
        have found := ih _ (by rw [← n, List.length_cons]; omega) behind rfl
        exact found.trans (left.isInfix.trans (List.suffix_cons x rest).isInfix)

/-- What is read as ASCII is ASCII. -/
theorem eq_ascii_of_lossyChars {cs : List Char} (h : ∀ c ∈ cs, c.toNat < 0x80) {bs : List UInt8}
    (read : lossyChars bs = cs) : bs = ascii cs := by
  induction cs generalizing bs with
  | nil =>
    cases bs with
    | nil => rfl
    | cons b rest => rw [lossyChars_cons] at read; cases read
  | cons c cs ih =>
    obtain ⟨rest, rfl, hrest⟩ := lossyChars_eq_cons (h c List.mem_cons_self) read
    rw [ih (fun d hd => h d (List.mem_cons_of_mem _ hd)) hrest]
    rfl

/-- ASCII is read from its own bytes only. -/
theorem lossy_eq_iff {name : String} (h : ∀ c ∈ name.toList, c.toNat < 0x80) (s : ByteArray) :
    lossy s = name ↔ s = bytes name := by
  have written : (bytes name).toList = ascii name.toList := (toList_toUTF8 name).trans (utf8_of_ascii h)
  constructor
  · intro read
    have same : s.toList = (bytes name).toList := by
      rw [written]
      exact eq_ascii_of_lossyChars h ((toList_lossy s).symm.trans (congrArg String.toList read))
    rw [← ofByteList_toList s, same, ofByteList_toList]
  · rintro rfl
    have whole : lossyChars (ascii name.toList ++ []) = name.toList ++ lossyChars [] :=
      lossyChars_ascii_append h []
    refine String.toList_injective ?_
    rw [toList_lossy, written]
    simpa using whole

end ScriptWarden.Text
