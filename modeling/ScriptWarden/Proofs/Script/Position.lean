import Mathlib.Data.List.Infix
import ScriptWarden.Lua.Token
import ScriptWarden.Package.Instance
import ScriptWarden.Proofs.Text.Lossy
import ScriptWarden.Proofs.Text.Unsigned
set_option autoImplicit false

/-!
# The line of an error

An error text begins with its kind and its position: the id of the chunk, a colon, the line and a colon.
The line is found again behind the first `]:` of the text, which is the end of the id unless the id holds
one itself.  In that case the number is read off the id, and the line of the error has no part in it.
-/

namespace ScriptWarden.Script

open Lua (chunkId withPosition)

/-! ## The mark behind the id -/

/-- Do the characters hold what ends an id? -/
def Marked (cs : List Char) : Prop := [']', ':'] <:+: cs

instance (cs : List Char) : Decidable (Marked cs) := inferInstanceAs (Decidable ([']', ':'] <:+: cs))

theorem afterBracket?_eq_none {cs : List Char} : afterBracket? cs = none ↔ ¬ Marked cs := by
  simp only [Marked]
  fun_induction afterBracket? cs with
  | case1 => simp
  | case2 rest => simpa using ⟨[], rest, rfl⟩
  | case3 c rest other ih =>
    rw [ih, List.infix_cons_iff]
    refine not_congr (or_iff_right ?_).symm
    rintro ⟨tail, front⟩
    obtain ⟨rfl, hrest⟩ := List.cons.inj front
    exact other tail rfl hrest.symm

/-- A mark that is found stays the first whatever follows. -/
theorem afterBracket?_append {xs rest : List Char} (h : afterBracket? xs = some rest) (ys : List Char) :
    afterBracket? (xs ++ ys) = some (rest ++ ys) := by
  fun_induction afterBracket? xs with
  | case1 => cases h
  | case2 rest' =>
    cases h
    rfl
  | case3 c tail other ih =>
    rw [List.cons_append, afterBracket?, ih h]
    intro rest' hc htail
    cases tail with
    | nil => cases h
    | cons d tail => exact other tail hc (by rw [(List.cons.inj htail).1])

/-- Without a bracket there is no mark, and none begins there. -/
theorem afterBracket?_append_of_not_mem {xs : List Char} (h : ']' ∉ xs) (ys : List Char) :
    afterBracket? (xs ++ ys) = afterBracket? ys := by
  induction xs with
  | nil => rfl
  | cons c xs ih =>
    obtain ⟨other, rest⟩ := not_or.1 (mt List.mem_cons.2 h)
    rw [List.cons_append, afterBracket?, ih rest]
    exact fun _ hc _ => other hc.symm

/-- Without a mark none is found before a character that cannot end one. -/
theorem afterBracket?_append_of_none {xs : List Char} (h : afterBracket? xs = none) {c : Char}
    (hc : c ≠ ':') (ys : List Char) : afterBracket? (xs ++ c :: ys) = afterBracket? (c :: ys) := by
  fun_induction afterBracket? xs with
  | case1 => rfl
  | case2 rest => cases h
  | case3 d tail other ih =>
    rw [List.cons_append, afterBracket?, ih h]
    intro rest hd htail
    cases tail with
    | nil => exact hc (List.cons.inj htail).1
    | cons e tail => exact other tail hd (by rw [(List.cons.inj htail).1])

/-! ## The number behind the mark -/

/-- The number before the first colon. -/
def beforeColon? (cs : List Char) : Option Nat :=
  if cs.contains ':' then Text.unsigned? 32 (Text.trimChars (cs.takeWhile (· ≠ ':'))) else none

theorem errorLine?_eq (message : String) :
    errorLine? message = (afterBracket? message.toList).bind beforeColon? := rfl

theorem beforeColon?_of_not_mem {cs : List Char} (h : ':' ∉ cs) : beforeColon? cs = none := by
  simp [beforeColon?, h]

/-- What stands before the first colon. -/
theorem beforeColon?_colon {cs : List Char} (h : ':' ∉ cs) (ys : List Char) :
    beforeColon? (cs ++ ':' :: ys) = Text.unsigned? 32 (Text.trimChars cs) := by
  have front : (cs ++ ':' :: ys).takeWhile (· ≠ ':') = cs := by
    rw [List.takeWhile_append_of_pos fun c hc => decide_eq_true (ne_of_mem_of_not_mem hc h)]
    simp
  rw [beforeColon?, front]
  simp

theorem beforeColon?_append {cs : List Char} (h : ':' ∈ cs) (ys : List Char) :
    beforeColon? (cs ++ ys) = beforeColon? cs := by
  obtain ⟨before, after, rfl, first⟩ := List.eq_append_cons_of_mem h
  rw [List.append_assoc, List.cons_append, beforeColon?_colon first, beforeColon?_colon first]

theorem mem_dropWhile {p : Char → Bool} {c : Char} (hc : p c = false) {cs : List Char} (h : c ∈ cs) :
    c ∈ cs.dropWhile p := by
  induction cs with
  | nil => exact h
  | cons d cs ih =>
    rw [List.dropWhile_cons]
    split
    · next passed =>
      refine ih ((List.mem_cons.1 h).resolve_left ?_)
      rintro rfl
      exact absurd passed (by simp [hc])
    · exact h

/-- What is no blank is not trimmed. -/
theorem mem_trimChars {c : Char} (hc : Text.isBlank c = false) {cs : List Char} (h : c ∈ cs) :
    c ∈ Text.trimChars cs := by
  have behind : c ∈ (cs.dropWhile Text.isBlank).reverse := List.mem_reverse.2 (mem_dropWhile hc h)
  exact List.mem_reverse.2 (mem_dropWhile hc behind)

theorem trimChars_of_plain {cs : List Char} (h : ∀ c ∈ cs, Text.isBlank c = false) :
    Text.trimChars cs = cs := by
  have keep : ∀ ds : List Char, (∀ c ∈ ds, Text.isBlank c = false) → ds.dropWhile Text.isBlank = ds := by
    intro ds hds
    cases ds with
    | nil => rfl
    | cons d ds => rw [List.dropWhile_cons_of_neg (by simp [hds d List.mem_cons_self])]
  rw [Text.trimChars, keep cs h, keep _ (by simpa using h), List.reverse_reverse]

theorem isBlank_of_isDigit {c : Char} (h : c.isDigit = true) : Text.isBlank c = false := by
  simp only [Char.isDigit, Bool.and_eq_true, decide_eq_true_eq, UInt32.le_iff_toNat_le] at h
  have lower : 48 ≤ c.toNat := h.1
  have upper : c.toNat ≤ 57 := h.2
  simp [Text.isBlank]
  omega

/-- A number before a colon is found. -/
theorem beforeColon?_number {n : Nat} (fits : n < 2 ^ 32) (ys : List Char) :
    beforeColon? ((toString n).toList ++ ':' :: ys) = some n := by
  have digit : ∀ c ∈ (toString n).toList, c.isDigit = true := fun _ hc =>
    Text.isDigit_of_mem_toString hc
  have no_colon : ':' ∉ (toString n).toList := fun hc => absurd (digit ':' hc) (by decide)
  rw [beforeColon?_colon no_colon, trimChars_of_plain fun c hc => isBlank_of_isDigit (digit c hc),
    Text.unsigned?_toString fits]

/-! ## The line of a position -/

/-- The end of an id of a chunk, with everything before it and the number of a line behind it. -/
theorem errorLine?_quoted {front body : List Char} (h : ']' ∉ front) {n : Nat} (fits : n < 2 ^ 32)
    (ys : List Char) :
    (afterBracket? (front ++ body ++ '"' :: ']' :: ':' :: ((toString n).toList ++ ':' :: ys))).bind
        beforeColon? =
      match afterBracket? body with
      | none => some n
      | some rest => beforeColon? rest := by
  rw [List.append_assoc, afterBracket?_append_of_not_mem h]
  cases found : afterBracket? body with
  | none =>
    rw [afterBracket?_append_of_none found (by decide)]
    exact beforeColon?_number fits ys
  | some rest =>
    rw [afterBracket?_append found]
    change beforeColon? _ = beforeColon? rest
    by_cases colon : ':' ∈ rest
    · rw [beforeColon?_append colon]
    · -- the next colon is the one behind the id, and a quotation mark stands before it
      have until_colon : rest ++ '"' :: ']' :: ':' :: ((toString n).toList ++ ':' :: ys) =
          (rest ++ ['"', ']']) ++ ':' :: ((toString n).toList ++ ':' :: ys) := by simp
      have quote : '"' ∈ Text.trimChars (rest ++ ['"', ']']) := mem_trimChars (by decide) (by simp)
      rw [beforeColon?_of_not_mem colon, until_colon, beforeColon?_colon (by simp [colon]),
        Text.unsigned?_eq_none (by decide) (by decide) quote]

/-! ## Ids of chunks -/

/-- A name that is shown in quotes. -/
def Quotable (name : String) : Prop := ∀ c ∈ name.toList.head?, c ≠ '=' ∧ c ≠ '@'

instance (name : String) : Decidable (Quotable name) :=
  decidable_of_iff (name.toList.head?.all (fun c => c ≠ '=' ∧ c ≠ '@') = true)
    (by simp only [Quotable]; cases name.toList.head? <;> simp)

/-- What stands before a name in an id. -/
def opening : List Char := "[string \"".toList

theorem getElem?_zero (b : ByteArray) : (b[0]? : Option UInt8) = b.toList.head? := by
  have same : (b[0]? : Option UInt8) = b.data[0]? := by
    by_cases h : 0 < b.size
    · rw [getElem?_pos b 0 h, getElem?_pos b.data 0 h]
      rfl
    · rw [getElem?_neg b 0 h, getElem?_neg b.data 0 h]
  rw [same, Text.toList_eq_data, List.head?_eq_getElem?, Array.getElem?_toList]

theorem toList_bytes_of_ascii {s : String} (h : ∀ c ∈ s.toList, c.toNat < 0x80) :
    (Text.bytes s).toList = Text.ascii s.toList := by
  rw [Text.bytes, Text.toList_toUTF8, Text.utf8_of_ascii h]

/-- The first byte of a name is that of its first character as far as this is ASCII. -/
theorem head?_of_bytes {name : String} {a : Char} (ha : a.toNat < 0x80)
    (h : ((Text.bytes name)[0]? : Option UInt8) = some (UInt8.ofNat a.toNat)) :
    name.toList.head? = some a := by
  rw [getElem?_zero, Text.bytes, Text.toList_toUTF8] at h
  obtain ⟨ys, hys⟩ := List.head?_eq_some_iff.1 h
  obtain ⟨cs, hname, -⟩ := Text.utf8_eq_cons ha hys
  rw [hname, List.head?_cons]

theorem toList_extract (b : ByteArray) (n : Nat) : (b.extract 0 n).toList = b.toList.take n := by
  simp [Text.toList_eq_data]

/-- The beginning of a name with dots behind it has no mark that the name does not have. -/
theorem infix_of_dotted {line name : List UInt8} (h : line <+: name)
    (found : [0x5D, 0x3A] <:+: line ++ [0x2E, 0x2E, 0x2E]) : [0x5D, 0x3A] <:+: name := by
  have undotted : ∀ xs : List UInt8, [0x5D, 0x3A] <:+: xs ++ [0x2E] → [0x5D, 0x3A] <:+: xs := by
    intro xs hxs
    refine (List.infix_concat_iff.1 hxs).resolve_left ?_
    rintro ⟨before, last⟩
    have := congrArg List.getLast? last
    simp at this
  refine (undotted _ (undotted _ (undotted _ ?_))).trans h.isInfix
  simpa using found

/-- The id of a chunk is what is shown of its name in quotes, and every mark in it is one of the name. -/
theorem chunkId_quotable {name : String} (h : Quotable name) :
    ∃ body : List UInt8, (chunkId (Text.bytes name)).toList =
        Text.ascii opening ++ body ++ Text.ascii ['"', ']'] ∧
      ([0x5D, 0x3A] <:+: body → [0x5D, 0x3A] <:+: (Text.bytes name).toList) := by
  have no_equals : ((Text.bytes name)[0]? : Option UInt8) ≠ some 0x3D := fun first =>
    (h '=' (head?_of_bytes (by decide) first)).1 rfl
  have no_at : ((Text.bytes name)[0]? : Option UInt8) ≠ some 0x40 := fun first =>
    (h '@' (head?_of_bytes (by decide) first)).2 rfl
  have hopening : (Text.bytes "[string \"").toList = Text.ascii opening :=
    toList_bytes_of_ascii (Text.ascii_of_all rfl)
  have hclosing : (Text.bytes "\"]").toList = Text.ascii ['"', ']'] := toList_bytes_of_ascii (Text.ascii_of_all rfl)
  have hdots : (Text.bytes "...").toList = [0x2E, 0x2E, 0x2E] := toList_bytes_of_ascii (Text.ascii_of_all rfl)
  rw [chunkId]
  split
  · next first => exact absurd first no_equals
  · next first => exact absurd first no_at
  · extract_lets front back room
    split
    next line more cut =>
    have hline : line.toList <+: (Text.bytes name).toList := by
      rw [← (Prod.mk.inj cut).1, Text.toList_ofByteList]
      exact List.takeWhile_prefix _
    split
    · refine ⟨(Text.bytes name).toList, ?_, id⟩
      rw [Text.toList_append, Text.toList_append, hopening, hclosing]
    · extract_lets shown
      have hshown : shown.toList <+: line.toList := by
        simp only [shown]
        split
        · rw [toList_extract]
          exact List.take_prefix _ _
        · exact List.prefix_rfl
      refine ⟨shown.toList ++ [0x2E, 0x2E, 0x2E], ?_, infix_of_dotted (hshown.trans hline)⟩
      simp only [Text.toList_append, front, back, hopening, hclosing, hdots, List.append_assoc]

theorem ascii_of_digit {c : Char} (h : c.isDigit = true) : c.toNat < 0x80 := by
  simp only [Char.isDigit, Bool.and_eq_true, decide_eq_true_eq, UInt32.le_iff_toNat_le] at h
  have upper : c.toNat ≤ 57 := h.2
  omega

/-- A position is read part by part. -/
theorem toList_position (chunk text : Lua.Bytes) (n : Nat) :
    (Text.lossy (withPosition chunk n text)).toList =
      (Text.lossy chunk).toList ++
        (':' :: ((toString n).toList ++ [':', ' ']) ++ Text.lossyChars text.toList) := by
  have place : (":" ++ toString n ++ ": ").toList = ':' :: ((toString n).toList ++ [':', ' ']) := by
    simp
  have small : ∀ c ∈ ':' :: ((toString n).toList ++ [':', ' ']), c.toNat < 0x80 := by
    intro c hc
    simp only [List.mem_cons, List.mem_append, List.not_mem_nil, or_false] at hc
    rcases hc with rfl | hc | rfl | rfl
    · decide
    · exact ascii_of_digit (Text.isDigit_of_mem_toString hc)
    · decide
    · decide
  have bytes : (Text.bytes (":" ++ toString n ++ ": ")).toList =
      Text.ascii (':' :: ((toString n).toList ++ [':', ' '])) :=
    place ▸ toList_bytes_of_ascii (place ▸ small)
  rw [Text.toList_lossy, Text.toList_lossy, withPosition, Text.toList_append, Text.toList_append, bytes,
    List.append_assoc, Text.lossyChars_ascii_mid small]

/-- An id is read as a text in quotes, and every mark in the text is one of the name. -/
theorem toList_id {name : String} (h : Quotable name) :
    ∃ body, (Text.lossy (chunkId (Text.bytes name))).toList = opening ++ body ++ ['"', ']'] ∧
      (Marked body → Marked name.toList) := by
  obtain ⟨bytes, hid, marks⟩ := chunkId_quotable h
  refine ⟨Text.lossyChars bytes, ?_, fun found => ?_⟩
  · have quoted : Text.lossyChars (bytes ++ (Text.ascii ['"', ']'] ++ [])) =
        Text.lossyChars bytes ++ (['"', ']'] ++ Text.lossyChars []) :=
      Text.lossyChars_ascii_mid (Text.ascii_of_all rfl) bytes []
    rw [Text.toList_lossy, hid, List.append_assoc, Text.lossyChars_ascii_append (Text.ascii_of_all rfl)]
    simpa using quoted
  · have inside : [0x5D, 0x3A] <:+: Text.utf8 name.toList := by
      rw [← Text.toList_toUTF8]
      exact marks (Text.infix_of_lossyChars (by decide) (by decide) found)
    exact Text.infix_of_utf8 (by decide) (by decide) inside

/-- A mark in an id is one in what is quoted. -/
theorem afterBracket?_id (body : List Char) :
    afterBracket? (opening ++ body ++ ['"', ']']) = (afterBracket? body).map (· ++ ['"', ']']) := by
  rw [List.append_assoc, afterBracket?_append_of_not_mem (by decide)]
  cases found : afterBracket? body with
  | none =>
    rw [afterBracket?_append_of_none found (by decide)]
    rfl
  | some rest => exact afterBracket?_append found _

theorem marked_id {body : List Char} : Marked (opening ++ body ++ ['"', ']']) ↔ Marked body := by
  rw [← not_iff_not, ← afterBracket?_eq_none, ← afterBracket?_eq_none, afterBracket?_id, Option.map_eq_none_iff]

/-- The end of an id has no part in a number before it. -/
theorem beforeColon?_closed (rest : List Char) : beforeColon? (rest ++ ['"', ']']) = beforeColon? rest := by
  by_cases colon : ':' ∈ rest
  · exact beforeColon?_append colon _
  · rw [beforeColon?_of_not_mem colon, beforeColon?_of_not_mem (by simp [colon])]

/-! ## What the host reports -/

/-- What is read as the line behind an id is the line, unless the id holds a mark: then it is what can be
read off the id alone. -/
theorem errorLine?_position {kind name : String} (hkind : ']' ∉ kind.toList) (h : Quotable name) {n : Nat}
    (fits : n < 2 ^ 32) (text : Lua.Bytes) (rest : String) :
    errorLine? (kind ++ Text.lossy (withPosition (chunkId (Text.bytes name)) n text) ++ rest) =
      if Marked (Text.lossy (chunkId (Text.bytes name))).toList then
        errorLine? (Text.lossy (chunkId (Text.bytes name)))
      else some n := by
  obtain ⟨body, hid, -⟩ := toList_id h
  have message : (kind ++ Text.lossy (withPosition (chunkId (Text.bytes name)) n text) ++ rest).toList =
      (kind.toList ++ opening) ++ body ++ '"' :: ']' :: ':' ::
        ((toString n).toList ++ ':' :: (' ' :: (Text.lossyChars text.toList ++ rest.toList))) := by
    rw [String.toList_append, String.toList_append, toList_position, hid]
    simp
  have no_bracket : ']' ∉ kind.toList ++ opening := by
    simp only [List.mem_append, hkind, false_or]
    decide
  rw [errorLine?_eq, message, errorLine?_quoted no_bracket fits, errorLine?_eq, hid, afterBracket?_id]
  simp only [marked_id]
  cases found : afterBracket? body with
  | none => rw [if_neg (afterBracket?_eq_none.1 found)]
  | some rest =>
    have marked : Marked body := by
      by_contra plain
      rw [afterBracket?_eq_none.2 plain] at found
      cases found
    rw [if_pos marked, Option.map_some, Option.bind_some, beforeColon?_closed]

/-! ## Where positions come from -/

theorem bytes_append (s u : String) : Text.bytes (s ++ u) = Text.bytes s ++ Text.bytes u := by
  simp [Text.bytes]

/-- What a script raises begins with the position of the instruction that runs. -/
theorem lead_append {σ : Type} (f : Lua.Frame) (message : Lua.Bytes) :
    Lua.Machine.lead (some (.script f : Lua.Activation σ)) ++ message =
      withPosition f.closure.image.shownName f.line message := by
  simp only [Lua.Machine.lead, Lua.Frame.place, withPosition, bytes_append, ByteArray.append_assoc]

/-- A chunk that is no program is refused with the position of what is wrong with it. -/
theorem chunk_malformed {κ : Type} (s : Setting κ) {name source : Lua.Bytes}
    (hname : Bridge.nameFault? name = none) (text : Lua.Library.isBinary source = false)
    {e : Lua.SyntaxFault} (he : Lua.Parser.parse name source = .error e) (w : Vm κ) :
    (chunk s name source w).1 =
      .error (.malformed (Text.lossy (withPosition (chunkId name) e.line e.message))) := by
  simp [chunk, hname, Lua.Library.loadSource, text, he]

/-- The kinds of errors that have a position. -/
inductive Kind : String → Prop where
  | raised : Kind "runtime error: "
  | malformed : Kind "syntax error: "

/-- The line that is reported of an error is the line it was raised at, whatever the text behind the
position.  Only an id that holds a mark misleads, and then whatever the line; a name without a mark has no
such id. -/
theorem fault_carries_line (s : Setting Api.Thing) (i : Package.Instance) (e : Error)
    {kind name : String} (hkind : Kind kind)
    (h : Quotable name) {n : Nat} (fits : n < 2 ^ 32) (text : Lua.Bytes) (rest : String)
    (he : e.message = kind ++ Text.lossy (withPosition (chunkId (Text.bytes name)) n text) ++ rest) :
    (¬ Marked name.toList → ¬ Marked (Text.lossy (chunkId (Text.bytes name))).toList) ∧
    (i.fault s e).1 = .error (.script i.name e.message
      (if Marked (Text.lossy (chunkId (Text.bytes name))).toList then
        errorLine? (Text.lossy (chunkId (Text.bytes name)))
      else some n)) := by
  obtain ⟨body, hid, marks⟩ := toList_id h
  have no_bracket : ']' ∉ kind.toList := by cases hkind <;> decide
  refine ⟨fun plain marked => plain (marks (marked_id.1 (hid ▸ marked))), ?_⟩
  rw [← errorLine?_position no_bracket h fits text rest, ← he]
  rfl

/-- A package without modules, to be blamed. -/
def blamed : Package.Instance :=
  .new (.ofConfig {}) (.new Trust.Defaults.builtin) 0
    { name := "pkg", principal := "owner", modules := ∅, entry := "main" }

/-- What it runs under. -/
def settled : Setting Api.Thing := (Package.Terms.ofConfig {}).setting (.new Trust.Defaults.builtin)

/-- What reaches the host of an error in the third line of a module. -/
def third (name : String) : Error :=
  .raised (Text.lossy (withPosition (chunkId (Text.bytes name)) 3 (Text.bytes "boom")))

theorem fault_carries_line_third :
    Kind "runtime error: " ∧ Quotable "lib/lamp" ∧ 3 < 2 ^ 32 ∧ ¬ Marked "lib/lamp".toList ∧
      (blamed.fault settled (third "lib/lamp")).1 = .error (.script "pkg" (third "lib/lamp").message (some 3)) := by
  have plain : ¬ Marked "lib/lamp".toList := by decide
  obtain ⟨unmarked, line⟩ := fault_carries_line settled blamed (third "lib/lamp") .raised
    (by decide : Quotable "lib/lamp") (by decide : 3 < 2 ^ 32) (Text.bytes "boom") (trace "[C]") rfl
  rw [if_neg (unmarked plain)] at line
  exact ⟨.raised, by decide, by decide, plain, line⟩

/-- A name with a mark: its error in the third line is reported for the seventh. -/
theorem marked_name_misleads : Quotable "a]:7:b" ∧
    (blamed.fault settled (third "a]:7:b")).1 = .error (.script "pkg" (third "a]:7:b").message (some 7)) := by
  have read : errorLine? (third "a]:7:b").message = some 7 := by decide +kernel
  have reported : (blamed.fault settled (third "a]:7:b")).1 =
      .error (.script "pkg" (third "a]:7:b").message (errorLine? (third "a]:7:b").message)) := rfl
  exact ⟨by decide, by rw [reported, read]⟩

end ScriptWarden.Script
