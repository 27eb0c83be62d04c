import ScriptWarden.Text.Bytes
set_option autoImplicit false

/-!
# UTF-8 as lists of bytes

Readers work on lists of bytes and writers on strings.  `utf8` is the list of bytes of some characters
and stands between the two: a text's bytes are `utf8` of its characters, and reading them as a text
gives the same characters back.

The second half is about ASCII.  Below `0x80` a character is its own byte, and no byte of any other
character lies there; so whatever is looked for among the bytes and is ASCII has been looked for among
the characters.  At the end stands the order: texts compare as their bytes do.
-/

namespace ScriptWarden.Text

/-! ## Bytes of an array -/

private theorem toList_loop (b : ByteArray) (i : Nat) (got : List UInt8) :
    ByteArray.toList.loop b i got = got.reverse ++ b.data.toList.drop i := by
  -- the loop gathers in reverse what it has passed, and `drop i` is what it has still to pass
  fun_induction ByteArray.toList.loop b i got with
  | case1 i got hi ih =>
    have hlen : i < b.data.toList.length := by simpa using hi
    have hget : b.get! i = b.data.toList[i] := by
      cases b
      exact getElem!_pos _ i hi
    rw [ih, List.drop_eq_getElem_cons hlen, hget]
    simp
  | case2 i got hi =>
    rw [List.drop_eq_nil_of_le (by simpa using Nat.le_of_not_lt hi)]
    simp

theorem toList_eq_data (b : ByteArray) : b.toList = b.data.toList := by
  rw [ByteArray.toList, toList_loop]
  simp

@[simp] theorem toList_append (a b : ByteArray) : (a ++ b).toList = a.toList ++ b.toList := by
  simp [toList_eq_data]

theorem toList_ofByteList (bs : List UInt8) : (ofByteList bs).toList = bs := by
  simp [toList_eq_data, ofByteList]

theorem ofByteList_toList (b : ByteArray) : ofByteList b.toList = b := by
  simp [toList_eq_data, ofByteList]

/-! ## Characters and their bytes -/

/-- The bytes of some characters. -/
def utf8 (cs : List Char) : List UInt8 := cs.flatMap String.utf8EncodeChar

@[simp] theorem utf8_nil : utf8 [] = [] := rfl

@[simp] theorem utf8_cons (c : Char) (cs : List Char) :
    utf8 (c :: cs) = String.utf8EncodeChar c ++ utf8 cs := rfl

@[simp] theorem utf8_append (cs ds : List Char) : utf8 (cs ++ ds) = utf8 cs ++ utf8 ds :=
  List.flatMap_append

theorem toList_utf8Encode (cs : List Char) : cs.utf8Encode.toList = utf8 cs := by
  rw [toList_eq_data, List.utf8Encode, List.toList_data_toByteArray, utf8]

theorem toList_toUTF8 (s : String) : s.toUTF8.toList = utf8 s.toList := by
  rw [String.toUTF8_eq_toByteArray, ← String.utf8Encode_toList, toList_utf8Encode]

theorem ofByteList_utf8 (cs : List Char) : ofByteList (utf8 cs) = cs.utf8Encode := by
  rw [← toList_utf8Encode, ofByteList_toList]

/-- Reading the bytes of some characters gives the characters back. -/
theorem fromUTF8?_utf8 (cs : List Char) :
    String.fromUTF8? (ofByteList (utf8 cs)) = some (String.ofList cs) := by
  have valid : (ofByteList (utf8 cs)).IsValidUTF8 := by
    rw [ofByteList_utf8]
    exact ByteArray.isValidUTF8_utf8Encode
  have same : String.fromUTF8 (ofByteList (utf8 cs)) valid = String.ofList cs := by
    rw [← String.toByteArray_inj, String.toByteArray_ofList, ← ofByteList_utf8]
    rfl
  rw [String.fromUTF8?, dif_pos valid, same]

/-- Bytes that are read as a text are the bytes of that text. -/
theorem utf8_of_fromUTF8? {bs : List UInt8} {s : String}
    (h : String.fromUTF8? (ofByteList bs) = some s) : bs = utf8 s.toList := by
  unfold String.fromUTF8? at h
  split at h
  · have same : s.toByteArray = ofByteList bs := by
      rw [← Option.some.inj h]
      rfl
    rw [← toList_toUTF8, String.toUTF8_eq_toByteArray, same, toList_ofByteList]
  · cases h

/-! ## ASCII -/

/-- Bytes of ASCII characters, one each. -/
def ascii (cs : List Char) : List UInt8 := cs.map fun c => UInt8.ofNat c.toNat

theorem encodeChar_of_ascii {c : Char} (h : c.toNat < 0x80) :
    String.utf8EncodeChar c = [UInt8.ofNat c.toNat] := by
  have h' : c.val.toNat ≤ 0x7F := by
    have : c.toNat = c.val.toNat := rfl
    omega
  simp only [String.utf8EncodeChar, if_pos h']
  rfl

/-- A character beyond ASCII has no byte below `0x80`. -/
theorem le_of_mem_encodeChar {c : Char} (h : 0x80 ≤ c.toNat) {b : UInt8}
    (hb : b ∈ String.utf8EncodeChar c) : 0x80 ≤ b.toNat := by
  have hv : ¬ c.val.toNat ≤ 0x7F := by
    have : c.toNat = c.val.toNat := rfl
    omega
  simp only [String.utf8EncodeChar, if_neg hv] at hb
  split at hb
  · simp only [List.mem_cons, List.not_mem_nil, or_false] at hb
    rcases hb with rfl | rfl <;> simp only [UInt8.toNat_ofNat'] <;> omega
  · split at hb
    · simp only [List.mem_cons, List.not_mem_nil, or_false] at hb
      rcases hb with rfl | rfl | rfl <;> simp only [UInt8.toNat_ofNat'] <;> omega
    · have hmax : c.val.toNat < 0x110000 := by
        have := c.valid
        simp only [UInt32.isValidChar, Nat.isValidChar] at this
        omega
      simp only [List.mem_cons, List.not_mem_nil, or_false] at hb
      rcases hb with rfl | rfl | rfl | rfl <;> simp only [UInt8.toNat_ofNat'] <;> omega

theorem ascii_of_all {cs : List Char} (h : cs.all (fun c => c.toNat < 0x80) = true) :
    ∀ c ∈ cs, c.toNat < 0x80 := by
  simpa using h

theorem utf8_of_ascii {cs : List Char} (h : ∀ c ∈ cs, c.toNat < 0x80) : utf8 cs = ascii cs := by
  induction cs with
  | nil => rfl
  | cons c cs ih =>
    have tail : utf8 cs = ascii cs := ih fun d hd => h d (List.mem_cons_of_mem _ hd)
    rw [utf8_cons, encodeChar_of_ascii (h c List.mem_cons_self), tail]
    rfl

/-- An ASCII byte among the bytes of some characters is one of the characters. -/
theorem mem_of_mem_utf8 {a : Char} (ha : a.toNat < 0x80) {cs : List Char}
    (h : UInt8.ofNat a.toNat ∈ utf8 cs) : a ∈ cs := by
  obtain ⟨c, hc, hb⟩ := List.mem_flatMap.mp h
  by_cases small : c.toNat < 0x80
  · rw [encodeChar_of_ascii small, List.mem_singleton] at hb
    have : (UInt8.ofNat a.toNat).toNat = (UInt8.ofNat c.toNat).toNat := by rw [hb]
    simp only [UInt8.toNat_ofNat'] at this
    have : a = c := Char.toNat_inj.mp (by omega)
    rwa [this]
  · have := le_of_mem_encodeChar (by omega) hb
    simp only [UInt8.toNat_ofNat'] at this
    omega

/-- Bytes of some characters that are cut at an ASCII byte have been cut at its character. -/
theorem utf8_split {a : Char} (ha : a.toNat < 0x80) {cs : List Char} {xs ys : List UInt8}
    (h : utf8 cs = xs ++ UInt8.ofNat a.toNat :: ys) :
    ∃ ds es, cs = ds ++ a :: es ∧ utf8 ds = xs ∧ utf8 es = ys := by
  induction cs generalizing xs with
  | nil => simp at h
  | cons c cs ih =>
    rw [utf8_cons] at h
    rcases List.append_eq_append_iff.mp h with ⟨z, hxs, hrest⟩ | ⟨z, hc, hrest⟩
    · -- the cut is behind the first character
      obtain ⟨ds, es, hcs, hds, hes⟩ := ih hrest
      exact ⟨c :: ds, es, by rw [hcs, List.cons_append], by rw [utf8_cons, hds, hxs], hes⟩
    · cases z with
      | nil =>
        have hcut : utf8 cs = [] ++ UInt8.ofNat a.toNat :: ys := hrest.symm
        obtain ⟨ds, es, hcs, hds, hes⟩ := ih hcut
        refine ⟨c :: ds, es, by rw [hcs, List.cons_append], ?_, hes⟩
        rw [utf8_cons, hds, List.append_nil, hc, List.append_nil]
      | cons b z =>
        -- the byte is one of the first character's, which is ASCII then
        obtain ⟨rfl, hys⟩ := List.cons_eq_cons.mp hrest
        have small : c.toNat < 0x80 := by
          refine Nat.lt_of_not_le fun large => ?_
          have mem : UInt8.ofNat a.toNat ∈ String.utf8EncodeChar c := by simp [hc]
          have := le_of_mem_encodeChar large mem
          simp only [UInt8.toNat_ofNat'] at this
          omega
        have mem : UInt8.ofNat a.toNat ∈ utf8 [c] := by simp [hc]
        have same : c = a := (List.mem_singleton.mp (mem_of_mem_utf8 ha mem)).symm
        rw [encodeChar_of_ascii small, List.singleton_eq_append_iff] at hc
        rcases hc with ⟨rfl, hz⟩ | ⟨-, hz⟩
        · obtain ⟨-, rfl⟩ := List.cons_eq_cons.mp hz
          exact ⟨[], cs, by rw [same, List.nil_append], rfl, hys.symm⟩
        · cases hz

theorem utf8_injective {cs ds : List Char} (h : utf8 cs = utf8 ds) : cs = ds := by
  have same : some (String.ofList cs) = some (String.ofList ds) := by
    rw [← fromUTF8?_utf8, ← fromUTF8?_utf8, h]
  exact String.ofList_injective (Option.some.inj same)

/-- An ASCII byte in front is that of the first character. -/
theorem utf8_eq_cons {a : Char} (ha : a.toNat < 0x80) {cs : List Char} {ys : List UInt8}
    (h : utf8 cs = UInt8.ofNat a.toNat :: ys) : ∃ ds, cs = a :: ds ∧ utf8 ds = ys := by
  have cut : utf8 cs = [] ++ UInt8.ofNat a.toNat :: ys := h
  obtain ⟨before, ds, rfl, hbefore, hds⟩ := utf8_split ha cut
  have : before = [] := utf8_injective hbefore
  exact ⟨ds, by rw [this, List.nil_append], hds⟩

/-- Two ASCII bytes in a row are two characters in a row. -/
theorem infix_of_utf8 {a b : Char} (ha : a.toNat < 0x80) (hb : b.toNat < 0x80) {cs : List Char}
    (h : [UInt8.ofNat a.toNat, UInt8.ofNat b.toNat] <:+: utf8 cs) : [a, b] <:+: cs := by
  obtain ⟨before, after, cut⟩ := h
  rw [List.append_assoc, List.cons_append] at cut
  obtain ⟨front, ds, rfl, -, hds⟩ := utf8_split ha cut.symm
  obtain ⟨es, rfl, -⟩ := utf8_eq_cons hb hds
  exact ⟨front, es, by simp⟩

/-! ## Order -/

/-- A character that comes first has the lesser bytes, whatever follows either. -/
theorem encodeChar_append_lt {c d : Char} (h : c < d) (xs ys : List UInt8) :
    String.utf8EncodeChar c ++ xs < String.utf8EncodeChar d ++ ys := by
  have less : c.val.toNat < d.val.toNat := h
  have bound : d.val.toNat < 0x110000 := by
    have := d.valid
    simp only [UInt32.isValidChar, Nat.isValidChar] at this
    omega
  -- a longer encoding begins with a greater byte, so the cases are the lengths of the two
  unfold String.utf8EncodeChar
  dsimp only
  repeat' split
  all_goals
    simp only [List.cons_append, List.nil_append, List.cons_lt_cons_iff, UInt8.lt_iff_toNat_lt,
      ← UInt8.toNat_inj, UInt8.toNat_ofNat']
    simp (disch := omega) only [Nat.mod_eq_of_lt]
    omega

theorem utf8_lt_utf8 {cs ds : List Char} (h : cs < ds) : utf8 cs < utf8 ds := by
  induction h with
  | @nil d ds =>
    rcases hd : String.utf8EncodeChar d with _ | ⟨b, bs⟩
    · exact absurd hd String.utf8EncodeChar_ne_nil
    · rw [utf8_cons, hd]
      exact .nil
  | cons _ ih => exact List.append_left_lt ih
  | rel h => exact encodeChar_append_lt h _ _

/-- Of two texts the lesser one has the lesser bytes. -/
theorem toUTF8_lt_toUTF8 {s t : String} (h : s < t) : s.toUTF8.toList < t.toUTF8.toList := by
  rw [toList_toUTF8, toList_toUTF8]
  exact utf8_lt_utf8 h

end ScriptWarden.Text
