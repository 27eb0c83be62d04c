import ScriptWarden.Json.Reader
import ScriptWarden.Json.Writer
import ScriptWarden.Proofs.Text.Utf8
set_option autoImplicit false

/-!
# Numbers and strings read back

What the writer puts down for an integer or a string is what the reader takes for it, whatever
follows.  A number needs to know where it ends (`Stops`); a string ends at its quote.

Both readers count their turns.  A string's turns are at most the bytes it takes: an escape is one
turn and several bytes, any other byte a turn of its own.  So the lemmas about strings say "with this
much fuel more than some number below the length", and only the last one fixes the fuel.
-/

namespace ScriptWarden.Json

open Reader (Input digit? digits ofDigits exponent number stringBody simpleEscape? hexQuad hexDigit?
  encodeScalar isBlank skipBlanks)
open Text (utf8 ascii ofByteList)

/-! ## Blanks -/

theorem utf8_lineBreak (level : Nat) :
    utf8 (Value.lineBreak level).toList = 0x0A :: List.replicate (2 * level) 0x20 := by
  have chars : (Value.lineBreak level).toList = '\n' :: List.replicate (2 * level) ' ' := by
    simp [Value.lineBreak]
  rw [chars, Text.utf8_of_ascii]
  · simp [ascii]
  · intro c hc
    rcases List.mem_cons.mp hc with rfl | hc
    · decide
    · rw [List.eq_of_mem_replicate hc]
      decide

theorem skipBlanks_lineBreak (level : Nat) (input : Input) :
    skipBlanks (utf8 (Value.lineBreak level).toList ++ input) = skipBlanks input := by
  refine List.dropWhile_append_of_pos fun b hb => ?_
  rw [utf8_lineBreak] at hb
  rcases List.mem_cons.mp hb with rfl | hb
  · decide
  · rw [List.eq_of_mem_replicate hb]
    decide

theorem skipBlanks_cons {b : UInt8} (h : isBlank b = false) (input : Input) :
    skipBlanks (b :: input) = b :: input := by
  simp [skipBlanks, h]

/-! ## Numbers -/

/-- A number that ends here is not continued by what follows. -/
def Stops (rest : Input) : Prop :=
  ∀ b ∈ rest.head?, digit? b = none ∧ b ≠ 0x2E ∧ b ≠ 0x65 ∧ b ≠ 0x45

theorem stops_nil : Stops [] := fun _ hb => absurd hb (by simp)

theorem stops_comma (rest : Input) : Stops (0x2C :: rest) := by
  rintro b hb
  obtain rfl : (0x2C : UInt8) = b := by simpa using hb
  decide

theorem stops_lineBreak (level : Nat) (rest : Input) :
    Stops (utf8 (Value.lineBreak level).toList ++ rest) := by
  rw [utf8_lineBreak]
  rintro b hb
  obtain rfl : (0x0A : UInt8) = b := by simpa using hb
  decide

/-- The digit that a character is. -/
def digitOf (c : Char) : Nat := c.toNat - '0'.toNat

theorem digit?_of_isDigit {c : Char} (h : c.isDigit = true) :
    digit? (UInt8.ofNat c.toNat) = some (digitOf c) := by
  simp only [Char.isDigit, Bool.and_eq_true, decide_eq_true_eq, ge_iff_le, UInt32.le_iff_toNat_le] at h
  have lo : 48 ≤ c.toNat := h.1
  have hi : c.toNat ≤ 57 := h.2
  have low : (0x30 : UInt8) ≤ UInt8.ofNat c.toNat := by
    rw [UInt8.le_iff_toNat_le, UInt8.toNat_ofNat']
    simp only [UInt8.reduceToNat]
    omega
  have high : UInt8.ofNat c.toNat ≤ (0x39 : UInt8) := by
    rw [UInt8.le_iff_toNat_le, UInt8.toNat_ofNat']
    simp only [UInt8.reduceToNat]
    omega
  have value : (UInt8.ofNat c.toNat).toNat = c.toNat := by
    rw [UInt8.toNat_ofNat']
    omega
  simp only [digit?, low, high, decide_true, Bool.and_self, if_true, value, digitOf]
  rfl

theorem digits_of_stops {rest : Input} (h : Stops rest) : digits rest = ([], rest) := by
  cases rest with
  | nil => rfl
  | cons b rest => simp [digits, (h b rfl).1]

theorem digits_ascii {cs : List Char} (hcs : ∀ c ∈ cs, c.isDigit = true) {rest : Input}
    (h : Stops rest) : digits (ascii cs ++ rest) = (cs.map digitOf, rest) := by
  induction cs with
  | nil => exact digits_of_stops h
  | cons c cs ih =>
    have tail := ih fun d hd => hcs d (List.mem_cons_of_mem _ hd)
    have head := digit?_of_isDigit (hcs c List.mem_cons_self)
    simp only [ascii, List.map_cons, List.cons_append, digits, head] at tail ⊢
    rw [tail]

/-- The digits of a number. -/
def decimal (m : Nat) : List Nat := (Nat.toDigits 10 m).map digitOf

theorem ofDigits_decimal (m : Nat) : ofDigits (decimal m) = m := by
  have same : ofDigits (decimal m) = Nat.ofDigitChars 10 (Nat.toDigits 10 m) 0 := by
    rw [Nat.ofDigitChars_eq_foldl, ofDigits, decimal, List.foldl_map]
    simp only [Nat.mul_comm, digitOf]
  rw [same, Nat.ofDigitChars_ten_toDigits]

theorem decimal_of_lt {m : Nat} (h : m < 10) : decimal m = [m] := by
  rw [decimal, Nat.toDigits_of_lt_base h]
  have : ∀ d < 10, digitOf (Nat.digitChar d) = d := by decide
  simp [this m h]

/-- No digit follows a leading zero. -/
theorem decimal_head (m : Nat) : ∃ d ds, decimal m = d :: ds ∧ (ds = [] ∨ d ≠ 0) := by
  induction m using Nat.strongRecOn with
  | ind m ih =>
    by_cases small : m < 10
    · exact ⟨m, [], decimal_of_lt small, .inl rfl⟩
    · -- the first digit is that of the number without its last digit, which is not zero
      obtain ⟨d, ds, hd, hhead⟩ := ih (m / 10) (by omega)
      have split : decimal m = decimal (m / 10) ++ decimal (m % 10) := by
        have last : Nat.toDigits 10 (m % 10) = [(m % 10).digitChar] :=
          Nat.toDigits_of_lt_base (Nat.mod_lt m (by decide))
        rw [decimal, Nat.toDigits_of_base_le (by decide) (by omega), List.map_append, decimal,
          decimal, last]
      refine ⟨d, ds ++ decimal (m % 10), by rw [split, hd, List.cons_append], .inr ?_⟩
      rcases hhead with rfl | hne
      · intro zero
        have value : ofDigits (decimal (m / 10)) = 0 := by
          rw [hd, zero]
          rfl
        rw [ofDigits_decimal] at value
        omega
      · exact hne

theorem utf8_toString (m : Nat) : utf8 (toString m).toList = ascii (Nat.toDigits 10 m) := by
  rw [Nat.toString_eq_ofList_toDigits, String.toList_ofList]
  refine Text.utf8_of_ascii fun c hc => ?_
  have digit := Nat.isDigit_of_mem_toDigits (by decide) (by decide) hc
  simp only [Char.isDigit, Bool.and_eq_true, decide_eq_true_eq, UInt32.le_iff_toNat_le] at digit
  have : c.toNat ≤ 57 := digit.2
  omega

theorem exponent_of_stops {rest : Input} (h : Stops rest) : exponent rest = some (none, rest) := by
  cases rest with
  | nil => rfl
  | cons b rest =>
    obtain ⟨-, -, he, hE⟩ := h b rfl
    have he' : (b == Reader.byte 'e') = false := beq_false_of_ne he
    have hE' : (b == Reader.byte 'E') = false := beq_false_of_ne hE
    simp [exponent, he', hE']

/-- The digits of a number are read as that number; a sign in front of zero would make it another. -/
theorem number_decimal {negative : Bool} {m : Nat} (sign : negative = true → m ≠ 0) {rest : Input}
    (h : Stops rest) :
    number negative (utf8 (toString m).toList ++ rest) =
      some (.int (if negative then -(m : Int) else m), rest) := by
  obtain ⟨d, ds, hd, hhead⟩ := decimal_head m
  have whole : digits (utf8 (toString m).toList ++ rest) = (d :: ds, rest) := by
    rw [utf8_toString, digits_ascii _ h, ← hd, decimal]
    exact fun c hc => Nat.isDigit_of_mem_toDigits (by decide) (by decide) hc
  have value : ofDigits (d :: ds) = m := by rw [← hd, ofDigits_decimal]
  have no_point : ∀ r, rest ≠ 0x2E :: r := fun r e => (h 0x2E (by simp [e])).2.1 rfl
  have no_sign : (negative && m == 0) = false := by
    cases negative with
    | false => rfl
    | true => simp [sign rfl]
  rw [number, whole]
  dsimp only
  split
  · next none => cases none
  · -- a leading zero would be followed by a digit
    next zero =>
    obtain ⟨rfl, rfl⟩ := List.cons_eq_cons.mp zero
    exact absurd rfl (hhead.resolve_left (List.cons_ne_nil _ _))
  · split
    · next after => exact absurd rfl (no_point after)
    · simp [exponent_of_stops h, value, no_sign]

theorem toList_toString_int (n : Int) :
    (toString n).toList = (if n < 0 then ['-'] else []) ++ (toString n.natAbs).toList := by
  cases n with
  | ofNat m =>
    have : ¬ Int.ofNat m < 0 := by
      have := Int.natCast_nonneg m
      simp
    rw [if_neg this]
    rfl
  | negSucc m =>
    rw [if_pos (Int.negSucc_lt_zero m)]
    have : toString (Int.negSucc m) = "-" ++ toString (m + 1) := rfl
    rw [this, String.toList_append]
    rfl

/-! ## Strings -/

/-- Reading `bs` inside a string adds the bytes `cs` to it, in at most as many turns as it has
bytes. -/
def Adds (bs cs : List UInt8) : Prop :=
  ∃ turns ≤ bs.length, ∀ fuel got rest,
    stringBody (fuel + turns) (some got) (bs ++ rest) =
      stringBody fuel (some (cs.reverse ++ got)) rest

theorem Adds.nil : Adds [] [] := ⟨0, Nat.le_refl 0, fun _ _ _ => rfl⟩

theorem Adds.append {bs bs' cs cs' : List UInt8} (h : Adds bs cs) (h' : Adds bs' cs') :
    Adds (bs ++ bs') (cs ++ cs') := by
  obtain ⟨turns, hle, hread⟩ := h
  obtain ⟨turns', hle', hread'⟩ := h'
  refine ⟨turns' + turns, by rw [List.length_append]; omega, fun fuel got rest => ?_⟩
  rw [← Nat.add_assoc, List.append_assoc, hread, hread', List.reverse_append, List.append_assoc]

theorem adds_byte {b : UInt8} (control : ¬ b < 0x20) (quote : b ≠ 0x22) (slash : b ≠ 0x5C) :
    Adds [b] [b] := by
  refine ⟨1, Nat.le_refl 1, fun fuel got rest => ?_⟩
  rw [List.singleton_append, stringBody]
  · have slash' : (b == 0x5C) = false := beq_false_of_ne slash
    simp [control, slash', Reader.Gathered.add]
  · exact quote
  · exact fun _ e => absurd e slash
  · exact fun _ _ e => absurd e slash

theorem adds_escape {e b : UInt8} (h : simpleEscape? e = some b) : Adds [0x5C, e] [b] := by
  have not_unicode : e ≠ 0x75 := by
    rintro rfl
    have : simpleEscape? 0x75 = none := by decide
    rw [this] at h
    cases h
  refine ⟨1, by simp, fun fuel got rest => ?_⟩
  rw [List.cons_append, List.singleton_append, stringBody, h]
  · rfl
  · exact not_unicode

theorem adds_unicode {x y z w : UInt8} {n : Nat}
    (h : ∀ rest, hexQuad (x :: y :: z :: w :: rest) = some (n, rest)) (low : n < 0xD800) :
    Adds [0x5C, 0x75, x, y, z, w] (encodeScalar n) := by
  refine ⟨1, by simp, fun fuel got rest => ?_⟩
  have not_high : ¬ (0xD800 ≤ n ∧ n ≤ 0xDBFF) := by omega
  have not_low : ¬ (0xDC00 ≤ n ∧ n ≤ 0xDFFF) := by omega
  simp [stringBody, h rest, not_high, not_low, Reader.Gathered.add]

theorem adds_plain {bs : List UInt8}
    (h : ∀ b ∈ bs, ¬ b < 0x20 ∧ b ≠ 0x22 ∧ b ≠ 0x5C) : Adds bs bs := by
  induction bs with
  | nil => exact Adds.nil
  | cons b bs ih =>
    obtain ⟨control, quote, slash⟩ := h b List.mem_cons_self
    exact (adds_byte control quote slash).append (ih fun b' hb => h b' (List.mem_cons_of_mem _ hb))

theorem encodeScalar_eq (n : Nat) : encodeScalar n = utf8 [Char.ofNat n] := by
  rw [encodeScalar, Text.toList_toUTF8, String.toList_singleton]

theorem hexDigit?_hexChar (n : Nat) :
    hexDigit? (UInt8.ofNat (hexChar n).toNat) = some (n % 16) := by
  have digits : ∀ d < 16, hexDigit? (UInt8.ofNat (Nat.digitChar d).toNat) = some d := by decide
  exact digits (n % 16) (Nat.mod_lt n (by decide))

/-- The escape of a control character. -/
theorem adds_control {c : Char} (h : c.toNat < 0x20) :
    Adds (utf8 ['\\', 'u', '0', '0', hexChar (c.toNat / 16), hexChar c.toNat]) (utf8 [c]) := by
  have hexAscii : ∀ n, (hexChar n).toNat < 0x80 := by
    have digits : ∀ d < 16, (Nat.digitChar d).toNat < 0x80 := by decide
    exact fun n => digits (n % 16) (Nat.mod_lt n (by decide))
  have bytes : utf8 ['\\', 'u', '0', '0', hexChar (c.toNat / 16), hexChar c.toNat] =
      [0x5C, 0x75, 0x30, 0x30, UInt8.ofNat (hexChar (c.toNat / 16)).toNat,
        UInt8.ofNat (hexChar c.toNat).toNat] := by
    rw [Text.utf8_of_ascii]
    · rfl
    · simp only [List.mem_cons, List.not_mem_nil, or_false]
      rintro d (rfl | rfl | rfl | rfl | rfl | rfl)
      all_goals first
        | exact hexAscii _
        | decide
  have quad : ∀ rest, hexQuad (0x30 :: 0x30 :: UInt8.ofNat (hexChar (c.toNat / 16)).toNat ::
      UInt8.ofNat (hexChar c.toNat).toNat :: rest) = some (c.toNat, rest) := by
    intro rest
    have zero : hexDigit? 0x30 = some 0 := by decide
    have value : (c.toNat / 16 % 16) * 16 + c.toNat % 16 = c.toNat := by omega
    simp [hexQuad, zero, hexDigit?_hexChar, value]
  rw [bytes, ← Char.ofNat_toNat c, ← encodeScalar_eq, Char.ofNat_toNat]
  exact adds_unicode quad (by omega)

/-- A short escape. -/
theorem adds_short {e c : Char} (he : e.toNat < 0x80) (hc : c.toNat < 0x80)
    (h : simpleEscape? (UInt8.ofNat e.toNat) = some (UInt8.ofNat c.toNat)) :
    Adds (utf8 ['\\', e]) (utf8 [c]) := by
  have escape : utf8 ['\\', e] = [0x5C, UInt8.ofNat e.toNat] := by
    rw [Text.utf8_cons, Text.utf8_cons, Text.encodeChar_of_ascii he]
    rfl
  have char : utf8 [c] = [UInt8.ofNat c.toNat] := by
    rw [Text.utf8_cons, Text.encodeChar_of_ascii hc]
    rfl
  rw [escape, char]
  exact adds_escape h

/-- A character that needs no escape. -/
theorem adds_char {c : Char} (control : ¬ c.toNat < 0x20) (quote : c ≠ '"') (slash : c ≠ '\\') :
    Adds (utf8 [c]) (utf8 [c]) := by
  refine adds_plain fun b hb => ?_
  by_cases small : c.toNat < 0x80
  · rw [Text.utf8_cons, Text.encodeChar_of_ascii small, Text.utf8_nil, List.append_nil,
      List.mem_singleton] at hb
    have value : b.toNat = c.toNat := by
      rw [hb, UInt8.toNat_ofNat']
      omega
    have apart : ∀ d : Char, d.toNat < 0x80 → c ≠ d → b ≠ UInt8.ofNat d.toNat := by
      intro d hd hne e
      refine hne (Char.toNat_inj.mp ?_)
      rw [← value, e, UInt8.toNat_ofNat']
      omega
    refine ⟨?_, apart '"' (by decide) quote, apart '\\' (by decide) slash⟩
    rw [UInt8.lt_iff_toNat_lt, value]
    exact control
  · have large : 0x80 ≤ b.toNat := by
      refine Text.le_of_mem_encodeChar (Nat.le_of_not_lt small) ?_
      simpa using hb
    refine ⟨?_, ?_, ?_⟩
    · rw [UInt8.lt_iff_toNat_lt]
      simp only [UInt8.reduceToNat]
      omega
    · rintro rfl
      exact absurd large (by decide)
    · rintro rfl
      exact absurd large (by decide)

/-- A character, escaped or not, is read back. -/
theorem adds_escapeChar (c : Char) : Adds (utf8 (escapeChar c)) (utf8 [c]) := by
  unfold escapeChar
  split
  · next h =>
    subst h
    exact adds_short (by decide) (by decide) (by decide)
  next quote =>
  split
  · next h =>
    subst h
    exact adds_short (by decide) (by decide) (by decide)
  next slash =>
  split
  · next h =>
    subst h
    exact adds_short (by decide) (by decide) (by decide)
  split
  · next h =>
    subst h
    exact adds_short (by decide) (by decide) (by decide)
  split
  · next h =>
    subst h
    exact adds_short (by decide) (by decide) (by decide)
  split
  · next h =>
    subst h
    exact adds_short (by decide) (by decide) (by decide)
  split
  · next h =>
    subst h
    exact adds_short (by decide) (by decide) (by decide)
  split
  · next h => exact adds_control h
  · next control => exact adds_char control quote slash

theorem adds_escapeChars (cs : List Char) : Adds (utf8 (cs.flatMap escapeChar)) (utf8 cs) := by
  induction cs with
  | nil => exact Adds.nil
  | cons c cs ih =>
    have head : utf8 (c :: cs) = utf8 [c] ++ utf8 cs := by simp
    rw [List.flatMap_cons, Text.utf8_append, head]
    exact (adds_escapeChar c).append ih

theorem toList_quote (s : String) :
    (quote s).toList = '"' :: s.toList.flatMap escapeChar ++ ['"'] := by
  have push : ∀ (cs : List Char) (acc : String),
      (cs.foldl String.push acc).toList = acc.toList ++ cs := by
    intro cs
    induction cs with
    | nil => simp
    | cons c cs ih => simp [ih]
  have body : ∀ (cs : List Char) (acc : String),
      (cs.foldl (fun acc c => (escapeChar c).foldl String.push acc) acc).toList =
        acc.toList ++ cs.flatMap escapeChar := by
    intro cs
    induction cs with
    | nil => simp
    | cons c cs ih => simp [ih, push]
  rw [quote, String.toList_append, String.foldl_eq_foldl_toList, body]
  rfl

theorem utf8_quote (s : String) :
    utf8 (quote s).toList = 0x22 :: (utf8 (s.toList.flatMap escapeChar) ++ [0x22]) := by
  rw [toList_quote, Text.utf8_append, Text.utf8_cons]
  rfl

/-- The bytes of a quoted string behind its opening quote are read as the string. -/
theorem stringBody_quote (s : String) (rest : Input) {fuel : Nat}
    (h : (utf8 (s.toList.flatMap escapeChar)).length < fuel) :
    stringBody fuel (some []) (utf8 (s.toList.flatMap escapeChar) ++ 0x22 :: rest) =
      some (some s, rest) := by
  obtain ⟨turns, hle, hread⟩ := adds_escapeChars s.toList
  obtain ⟨spare, rfl⟩ : ∃ spare, fuel = (spare + 1) + turns := ⟨fuel - 1 - turns, by omega⟩
  have text : String.fromUTF8? ⟨(utf8 s.toList).toArray⟩ = some s := by
    have := Text.fromUTF8?_utf8 s.toList
    rwa [String.ofList_toList] at this
  rw [hread, stringBody]
  simp [text]

end ScriptWarden.Json
