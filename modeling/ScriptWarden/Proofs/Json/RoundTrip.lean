import ScriptWarden.Proofs.Json.Scalars
set_option autoImplicit false

/-!
# Reading undoes indented writing

`ofBytes?_pretty`: the indented text of a value is read as that value.  It holds of *plain* values,
whose strings and keys are well formed and whose numbers are integers; a broken string has no text of
its own, and a number with a fraction may be written in several ways.

Writer and reader follow the same cases, so the induction is on the value, with one statement each for
a value, the rest of a list and the rest of an object.  Two things are said about what surrounds the
text.  Behind it stands something that does not continue a number (`Stops`), which a comma, a line end
and the end of the text do not.  And the fuel is at least the number of bytes of the text: a list or
object takes one unit for itself and one for every member, and has more bytes than that.
-/

namespace ScriptWarden.Json

open Reader (Input value items members expect skipBlanks isBlank digit? byte)
open Text (utf8)

namespace Value

mutual

/-- Every string and key is well formed, and every number is an integer. -/
def isPlain : Value → Bool
  | .real _ => false
  | .string s => s.isSome
  | .array items => plainItems items
  | .object fields => plainFields fields
  | _ => true

/-- Every item is plain. -/
def plainItems : List Value → Bool
  | [] => true
  | v :: rest => v.isPlain && plainItems rest

/-- Every member is plain and has a key. -/
def plainFields : List (Option String × Value) → Bool
  | [] => true
  | (k, v) :: rest => k.isSome && v.isPlain && plainFields rest

end

end Value

/-! ## Scalars as values -/

theorem value_lineBreak (fuel level : Nat) (input : Input) :
    value fuel (utf8 (Value.lineBreak level).toList ++ input) = value fuel input := by
  cases fuel with
  | zero => rfl
  | succ fuel => rw [value, value, skipBlanks_lineBreak]

theorem value_space (fuel : Nat) (input : Input) : value fuel (0x20 :: input) = value fuel input := by
  cases fuel with
  | zero => rfl
  | succ fuel =>
    have blank : skipBlanks (0x20 :: input) = skipBlanks input := rfl
    rw [value, value, blank]

theorem ne_of_digit {b c : UInt8} {d : Nat} (h : digit? b = some d) (hc : digit? c = none) :
    b ≠ c := by
  rintro rfl
  rw [h] at hc
  cases hc

theorem isBlank_of_digit {b : UInt8} {d : Nat} (h : digit? b = some d) : isBlank b = false := by
  have other : ∀ c : UInt8, digit? c = none → (b == c) = false := fun c hc =>
    beq_false_of_ne (ne_of_digit h hc)
  simp only [isBlank, other 0x20 (by decide), other 0x09 (by decide), other 0x0A (by decide),
    other 0x0D (by decide), Bool.or_self]

/-- A digit in front makes a number. -/
theorem value_digit {b : UInt8} {d : Nat} (h : digit? b = some d) (fuel : Nat) (rest : Input) :
    value (fuel + 1) (b :: rest) = Reader.number false (b :: rest) := by
  have other : ∀ c : UInt8, digit? c = none → (b == c) = false := fun c hc =>
    beq_false_of_ne (ne_of_digit h hc)
  simp only [value, skipBlanks_cons (isBlank_of_digit h),
    other _ (by decide : digit? (byte 'n') = none), other _ (by decide : digit? (byte 't') = none),
    other _ (by decide : digit? (byte 'f') = none), other _ (by decide : digit? 0x22 = none),
    other _ (by decide : digit? (byte '-') = none), other _ (by decide : digit? (byte '[') = none),
    other _ (by decide : digit? 0x7B = none), Bool.false_eq_true, if_false]

/-- The text of a number begins with a digit. -/
theorem first_digit (n : Nat) :
    ∃ b d bs, utf8 (toString n).toList = b :: bs ∧ digit? b = some d := by
  obtain ⟨c, cs, hcs⟩ := List.exists_cons_of_ne_nil (Nat.toDigits_ne_nil (n := n) (b := 10))
  have digit : c.isDigit = true := by
    refine Nat.isDigit_of_mem_toDigits (b := 10) (n := n) (by decide) (by decide) ?_
    rw [hcs]
    exact List.mem_cons_self
  refine ⟨UInt8.ofNat c.toNat, digitOf c, Text.ascii cs, ?_, digit?_of_isDigit digit⟩
  rw [utf8_toString, hcs]
  rfl

theorem utf8_toString_int (n : Int) :
    utf8 (toString n).toList = (if n < 0 then [0x2D] else []) ++ utf8 (toString n.natAbs).toList := by
  have minus : utf8 ['-'] = [0x2D] := by decide
  rw [toList_toString_int, Text.utf8_append]
  split
  · rw [minus]
  · rfl

theorem value_int (n : Int) (fuel : Nat) {rest : Input} (stop : Stops rest) :
    value (fuel + 1) (utf8 (toString n).toList ++ rest) = some (.int n, rest) := by
  rw [utf8_toString_int]
  by_cases negative : n < 0
  · have minus : ∀ digits : Input,
        value (fuel + 1) (0x2D :: digits) = Reader.number true digits := fun _ => rfl
    have sign : -(n.natAbs : Int) = n := by omega
    rw [if_pos negative, List.singleton_append, List.cons_append, minus,
      number_decimal (fun _ => by omega) stop, if_pos rfl, sign]
  · obtain ⟨b, d, bs, text, digit⟩ := first_digit n.natAbs
    have sign : (n.natAbs : Int) = n := by omega
    have read : Reader.number false (utf8 (toString n.natAbs).toList ++ rest) =
        some (.int n.natAbs, rest) := number_decimal (fun e => by cases e) stop
    rw [text, List.cons_append] at read
    rw [if_neg negative, List.nil_append, text, List.cons_append, value_digit digit, read, sign]

theorem value_string (s : String) (fuel : Nat) (rest : Input) :
    value (fuel + 1) (utf8 (quote s).toList ++ rest) = some (.string (some s), rest) := by
  have opening : ∀ inside : Input, value (fuel + 1) (0x22 :: inside) =
      (Reader.stringBody (inside.length + 1) (some []) inside).bind fun x =>
        some (.string x.1, x.2) := fun _ => rfl
  have enough : (utf8 (s.toList.flatMap escapeChar)).length <
      (utf8 (s.toList.flatMap escapeChar) ++ 0x22 :: rest).length + 1 := by
    rw [List.length_append]
    omega
  rw [utf8_quote, List.cons_append, List.append_assoc, List.singleton_append, opening,
    stringBody_quote s rest enough]
  rfl

/-! ## Texts in parts -/

theorem utf8_null : utf8 "null".toList = [0x6E, 0x75, 0x6C, 0x6C] := by decide

theorem utf8_true : utf8 "true".toList = [0x74, 0x72, 0x75, 0x65] := by decide

theorem utf8_false : utf8 "false".toList = [0x66, 0x61, 0x6C, 0x73, 0x65] := by decide

theorem utf8_noItems : utf8 "[]".toList = [0x5B, 0x5D] := by decide

theorem utf8_noMembers : utf8 "\x7b\x7d".toList = [0x7B, 0x7D] := by decide

theorem pretty_array (level : Nat) (v : Value) (vs : List Value) :
    utf8 (Value.prettyAt level (.array (v :: vs))).toList =
      0x5B :: (utf8 (Value.prettyItems (level + 1) (v :: vs)).toList ++
        (utf8 (Value.lineBreak level).toList ++ [0x5D])) := by
  simp only [Value.prettyAt, String.toList_append, Text.utf8_append, List.append_assoc]
  rfl

theorem pretty_object (level : Nat) (f : Option String × Value) (fs : List (Option String × Value)) :
    utf8 (Value.prettyAt level (.object (f :: fs))).toList =
      0x7B :: (utf8 (Value.prettyFields (level + 1) (f :: fs)).toList ++
        (utf8 (Value.lineBreak level).toList ++ [0x7D])) := by
  simp only [Value.prettyAt, String.toList_append, Text.utf8_append, List.append_assoc]
  rfl

/-- What follows an item or a member: nothing, or a comma and the others. -/
def continued (others : List UInt8) (last : Bool) : List UInt8 :=
  if last then [] else 0x2C :: others

theorem prettyItems_cons (level : Nat) (v : Value) (vs : List Value) :
    utf8 (Value.prettyItems level (v :: vs)).toList =
      utf8 (Value.lineBreak level).toList ++ (utf8 (v.prettyAt level).toList ++
        continued (utf8 (Value.prettyItems level vs).toList) vs.isEmpty) := by
  cases vs with
  | nil => simp [Value.prettyItems, continued]
  | cons v' vs =>
    simp only [Value.prettyItems, String.toList_append, Text.utf8_append, List.append_assoc]
    rfl

theorem prettyFields_cons (level : Nat) (k : String) (v : Value)
    (fs : List (Option String × Value)) :
    utf8 (Value.prettyFields level ((some k, v) :: fs)).toList =
      utf8 (Value.lineBreak level).toList ++ (utf8 (quote k).toList ++
        (0x3A :: 0x20 :: (utf8 (v.prettyAt level).toList ++
          continued (utf8 (Value.prettyFields level fs).toList) fs.isEmpty))) := by
  cases fs with
  | nil =>
    simp only [Value.prettyFields, String.toList_append, Text.utf8_append, List.append_assoc]
    simp [continued]
    rfl
  | cons f fs =>
    simp only [Value.prettyFields, String.toList_append, Text.utf8_append, List.append_assoc]
    rfl

/-- A text begins neither with a blank nor with the bracket that closes a list. -/
theorem pretty_head {v : Value} (plain : v.isPlain = true) (level : Nat) :
    ∃ b bs, utf8 (v.prettyAt level).toList = b :: bs ∧ isBlank b = false ∧ b ≠ 0x5D := by
  cases v with
  | null => exact ⟨0x6E, [0x75, 0x6C, 0x6C], utf8_null, by decide, by decide⟩
  | bool b =>
    cases b with
    | true => exact ⟨0x74, [0x72, 0x75, 0x65], utf8_true, by decide, by decide⟩
    | false => exact ⟨0x66, [0x61, 0x6C, 0x73, 0x65], utf8_false, by decide, by decide⟩
  | int n =>
    have text : utf8 (Value.prettyAt level (.int n)).toList = utf8 (toString n).toList := rfl
    rw [text, utf8_toString_int]
    split
    · exact ⟨0x2D, _, rfl, by decide, by decide⟩
    · obtain ⟨b, d, bs, hb, digit⟩ := first_digit n.natAbs
      exact ⟨b, bs, hb, isBlank_of_digit digit, ne_of_digit digit (by decide)⟩
  | real n => cases plain
  | string s => exact ⟨0x22, _, utf8_quote (s.getD ""), by decide, by decide⟩
  | array items =>
    cases items with
    | nil => exact ⟨0x5B, [0x5D], utf8_noItems, by decide, by decide⟩
    | cons v rest => exact ⟨0x5B, _, pretty_array level v rest, by decide, by decide⟩
  | object fields =>
    cases fields with
    | nil => exact ⟨0x7B, [0x7D], utf8_noMembers, by decide, by decide⟩
    | cons f rest => exact ⟨0x7B, _, pretty_object level f rest, by decide, by decide⟩

/-! ## Lists and objects step by step -/

theorem items_next {fuel : Nat} {input after : Input} {v : Value} (got : List Value)
    (read : value fuel input = some (v, 0x2C :: after)) :
    items (fuel + 1) got input = items fuel (v :: got) after := by
  simp only [items, read]
  rfl

theorem items_last {fuel level : Nat} {input rest : Input} {v : Value} (got : List Value)
    (read : value fuel input =
      some (v, utf8 (Value.lineBreak level).toList ++ 0x5D :: rest)) :
    items (fuel + 1) got input = some (.array (got.reverse ++ [v]), rest) := by
  have closing : skipBlanks (utf8 (Value.lineBreak level).toList ++ 0x5D :: rest) = 0x5D :: rest :=
    skipBlanks_lineBreak level _
  simp [items, read, closing]

theorem items_lineBreak (fuel level : Nat) (got : List Value) (input : Input) :
    items fuel got (utf8 (Value.lineBreak level).toList ++ input) = items fuel got input := by
  cases fuel with
  | zero => rfl
  | succ fuel => rw [items, items, value_lineBreak]

theorem value_bracket (fuel : Nat) (input : Input) : value (fuel + 1) (0x5B :: input) =
    match skipBlanks input with
    | 0x5D :: after => some (.array [], after)
    | inside => items fuel [] inside := rfl

theorem value_brace (fuel : Nat) (input : Input) : value (fuel + 1) (0x7B :: input) =
    match skipBlanks input with
    | 0x7D :: after => some (.object [], after)
    | inside => members fuel [] inside := rfl

/-- A list is read item by item. -/
theorem value_of_items {v : Value} (plain : v.isPlain = true) {level fuel : Nat} {vs : List Value}
    {rest : Input} {result : Option (Value × Input)}
    (read : items fuel [] (utf8 (Value.prettyItems (level + 1) (v :: vs)).toList ++
      (utf8 (Value.lineBreak level).toList ++ 0x5D :: rest)) = result) :
    value (fuel + 1) (utf8 (Value.prettyAt level (.array (v :: vs))).toList ++ rest) = result := by
  obtain ⟨b, bs, head, blank, inside⟩ := pretty_head plain (level + 1)
  rw [prettyItems_cons, head, List.append_assoc, items_lineBreak] at read
  rw [pretty_array, prettyItems_cons, head]
  simp only [List.append_assoc, List.cons_append, List.nil_append] at read ⊢
  rw [value_bracket, skipBlanks_lineBreak, skipBlanks_cons blank]
  split
  · -- the first item does not begin with the bracket that closes the list
    next after e => exact absurd (List.cons_eq_cons.mp e).1 inside
  · exact read

theorem members_lineBreak (fuel level : Nat) (got : List (Option String × Value)) (input : Input) :
    members fuel got (utf8 (Value.lineBreak level).toList ++ input) = members fuel got input := by
  cases fuel with
  | zero => rfl
  | succ fuel => rw [members, members, skipBlanks_lineBreak]

/-- A member's key is read, and then its value. -/
theorem members_of_value {k : String} {v : Value} {level fuel : Nat} (got : List (Option String × Value))
    {input rest : Input} (read : value fuel input = some (v, rest)) :
    members (fuel + 1) got (utf8 (Value.lineBreak level).toList ++
      (utf8 (quote k).toList ++ 0x3A :: 0x20 :: input)) =
        match skipBlanks rest with
        | 0x2C :: after => members fuel ((some k, v) :: got) after
        | 0x7D :: after => some (.object ((some k, v) :: got).reverse, after)
        | _ => none := by
  have enough : (utf8 (k.toList.flatMap escapeChar)).length <
      (utf8 (k.toList.flatMap escapeChar) ++ 0x22 :: 0x3A :: 0x20 :: input).length + 1 := by
    rw [List.length_append]
    omega
  have key := stringBody_quote k (0x3A :: 0x20 :: input) enough
  have colon : skipBlanks (0x3A :: 0x20 :: input) = 0x3A :: 0x20 :: input :=
    skipBlanks_cons (by decide) _
  have quoted : skipBlanks (utf8 (quote k).toList ++ 0x3A :: 0x20 :: input) =
      0x22 :: (utf8 (k.toList.flatMap escapeChar) ++ 0x22 :: 0x3A :: 0x20 :: input) := by
    rw [utf8_quote, List.cons_append, List.append_assoc, List.singleton_append]
    exact skipBlanks_cons (by decide) _
  rw [members, skipBlanks_lineBreak, quoted]
  generalize found : (match skipBlanks rest with
    | 0x2C :: after => members fuel ((some k, v) :: got) after
    | 0x7D :: after => some (.object ((some k, v) :: got).reverse, after)
    | _ => none) = result
  simp only [key, bind, Option.bind, colon, value_space, read]
  exact found

/-- An object is read member by member. -/
theorem value_of_members {k : String} {v : Value} {fs : List (Option String × Value)}
    {level fuel : Nat} {rest : Input} {result : Option (Value × Input)}
    (read : members fuel [] (utf8 (Value.prettyFields (level + 1) ((some k, v) :: fs)).toList ++
      (utf8 (Value.lineBreak level).toList ++ 0x7D :: rest)) = result) :
    value (fuel + 1) (utf8 (Value.prettyAt level (.object ((some k, v) :: fs))).toList ++ rest) =
      result := by
  rw [prettyFields_cons, utf8_quote, List.append_assoc, members_lineBreak] at read
  rw [pretty_object, prettyFields_cons, utf8_quote]
  simp only [List.append_assoc, List.cons_append, List.nil_append] at read ⊢
  rw [value_brace, skipBlanks_lineBreak, skipBlanks_cons (by decide)]
  exact read

/-! ## The round trip -/

/-- The text of a value is read as the value, wherever it stands. -/
def Reads (v : Value) : Prop :=
  ∀ (level : Nat) {fuel : Nat}, (utf8 (v.prettyAt level).toList).length ≤ fuel →
    ∀ {rest : Input}, Stops rest → value fuel (utf8 (v.prettyAt level).toList ++ rest) = some (v, rest)

/-- One unit of fuel is for the list, and the rest is enough for the first item and for the others. -/
theorem items_fuel {level fuel : Nat} {v : Value} {vs : List Value}
    (enough : (utf8 (Value.prettyItems level (v :: vs)).toList).length ≤ fuel) :
    ∃ n, fuel = n + 1 ∧ (utf8 (v.prettyAt level).toList).length ≤ n ∧
      (utf8 (Value.prettyItems level vs).toList).length ≤ n := by
  rw [prettyItems_cons, utf8_lineBreak, List.cons_append, List.length_cons] at enough
  simp only [List.length_append] at enough
  refine ⟨fuel - 1, by omega, by omega, ?_⟩
  cases vs with
  | nil => simp [Value.prettyItems]
  | cons v' vs =>
    simp only [continued, List.isEmpty_cons, Bool.false_eq_true, if_false, List.length_cons] at enough
    omega

/-- Items that are read one by one are read as the rest of a list. -/
theorem items_pretty (v : Value) (vs : List Value) (h : ∀ w ∈ v :: vs, Reads w)
    (level below : Nat) (got : List Value) {fuel : Nat}
    (enough : (utf8 (Value.prettyItems level (v :: vs)).toList).length ≤ fuel) (rest : Input) :
    items fuel got (utf8 (Value.prettyItems level (v :: vs)).toList ++
      (utf8 (Value.lineBreak below).toList ++ 0x5D :: rest)) =
        some (.array (got.reverse ++ v :: vs), rest) := by
  induction vs generalizing v got fuel with
  | nil =>
    obtain ⟨fuel, rfl, first, -⟩ := items_fuel enough
    rw [prettyItems_cons, List.append_assoc, List.append_assoc, items_lineBreak]
    exact items_last got (h v List.mem_cons_self level first (stops_lineBreak below _))
  | cons v' vs ih =>
    obtain ⟨fuel, rfl, first, others⟩ := items_fuel enough
    rw [prettyItems_cons, List.append_assoc, List.append_assoc, items_lineBreak]
    have read := h v List.mem_cons_self level first
      (stops_comma (utf8 (Value.prettyItems level (v' :: vs)).toList ++
        (utf8 (Value.lineBreak below).toList ++ 0x5D :: rest)))
    have more := ih v' (fun w hw => h w (List.mem_cons_of_mem _ hw)) (v :: got) others
    rw [List.reverse_cons, List.append_assoc] at more
    exact (items_next got read).trans more

/-- One unit of fuel is for the object, and the rest is enough for the first value and for the other
members. -/
theorem members_fuel {level fuel : Nat} {k : String} {v : Value} {fs : List (Option String × Value)}
    (enough : (utf8 (Value.prettyFields level ((some k, v) :: fs)).toList).length ≤ fuel) :
    ∃ n, fuel = n + 1 ∧ (utf8 (v.prettyAt level).toList).length ≤ n ∧
      (utf8 (Value.prettyFields level fs).toList).length ≤ n := by
  rw [prettyFields_cons, utf8_lineBreak, List.cons_append, List.length_cons] at enough
  simp only [List.length_append, List.length_cons] at enough
  refine ⟨fuel - 1, by omega, by omega, ?_⟩
  cases fs with
  | nil => simp [Value.prettyFields]
  | cons f fs =>
    simp only [continued, List.isEmpty_cons, Bool.false_eq_true, if_false, List.length_cons] at enough
    omega

/-- Members whose values are read one by one are read as the rest of an object. -/
theorem members_pretty (k : String) (v : Value) (fs : List (Option String × Value))
    (h : ∀ f ∈ (some k, v) :: fs, f.1.isSome = true ∧ Reads f.2) (level below : Nat)
    (got : List (Option String × Value)) {fuel : Nat}
    (enough : (utf8 (Value.prettyFields level ((some k, v) :: fs)).toList).length ≤ fuel)
    (rest : Input) :
    members fuel got (utf8 (Value.prettyFields level ((some k, v) :: fs)).toList ++
      (utf8 (Value.lineBreak below).toList ++ 0x7D :: rest)) =
        some (.object (got.reverse ++ (some k, v) :: fs), rest) := by
  have head : Reads v := (h _ List.mem_cons_self).2
  induction fs generalizing k v got fuel with
  | nil =>
    obtain ⟨fuel, rfl, first, -⟩ := members_fuel enough
    rw [prettyFields_cons]
    simp only [List.append_assoc, List.cons_append]
    have read := head level first (stops_lineBreak below (0x7D :: rest))
    refine (members_of_value got read).trans ?_
    rw [skipBlanks_lineBreak, skipBlanks_cons (by decide)]
    exact congrArg (fun fields => some (Value.object fields, rest)) List.reverse_cons
  | cons f fs ih =>
    obtain ⟨key, v'⟩ := f
    obtain ⟨k', rfl⟩ := Option.isSome_iff_exists.mp (h (key, v') (by simp)).1
    obtain ⟨fuel, rfl, first, others⟩ := members_fuel enough
    rw [prettyFields_cons]
    simp only [List.append_assoc, List.cons_append]
    have read := head level first
      (stops_comma (utf8 (Value.prettyFields level ((some k', v') :: fs)).toList ++
        (utf8 (Value.lineBreak below).toList ++ 0x7D :: rest)))
    have more := ih k' v' (fun g hg => h g (List.mem_cons_of_mem _ hg)) ((some k, v) :: got) others
      (h (some k', v') (by simp)).2
    rw [List.reverse_cons, List.append_assoc] at more
    refine (members_of_value got read).trans ?_
    rw [skipBlanks_cons (by decide)]
    exact more

theorem plain_of_mem {v : Value} {items : List Value} (h : Value.plainItems items = true)
    (hv : v ∈ items) : v.isPlain = true := by
  induction items with
  | nil => cases hv
  | cons w rest ih =>
    obtain ⟨hw, hrest⟩ := Bool.and_eq_true_iff.mp h
    rcases List.mem_cons.mp hv with rfl | hv
    · exact hw
    · exact ih hrest hv

theorem plain_of_mem_fields {f : Option String × Value} {fields : List (Option String × Value)}
    (h : Value.plainFields fields = true) (hf : f ∈ fields) :
    f.1.isSome = true ∧ f.2.isPlain = true := by
  induction fields with
  | nil => cases hf
  | cons g rest ih =>
    obtain ⟨hg, hrest⟩ := Bool.and_eq_true_iff.mp h
    rcases List.mem_cons.mp hf with rfl | hf
    · exact Bool.and_eq_true_iff.mp hg
    · exact ih hrest hf

theorem sizeOf_lt_of_mem_fields {f : Option String × Value} {fields : List (Option String × Value)}
    (hf : f ∈ fields) : sizeOf f.2 < sizeOf (Value.object fields) := by
  have member := List.sizeOf_lt_of_mem hf
  have parts : sizeOf f = 1 + sizeOf f.1 + sizeOf f.2 := rfl
  simp only [Value.object.sizeOf_spec]
  omega

/-- A text has a byte, so there is a unit of fuel for it. -/
theorem reads_of_succ {v : Value} (plain : v.isPlain = true)
    (h : ∀ (level fuel : Nat), (utf8 (v.prettyAt level).toList).length ≤ fuel + 1 →
      ∀ rest : Input, Stops rest →
        value (fuel + 1) (utf8 (v.prettyAt level).toList ++ rest) = some (v, rest)) : Reads v := by
  intro level fuel enough rest stop
  obtain ⟨b, bs, head, -, -⟩ := pretty_head plain level
  obtain ⟨fuel, rfl⟩ : ∃ n, fuel = n + 1 := by
    rw [head, List.length_cons] at enough
    exact ⟨fuel - 1, by omega⟩
  exact h level fuel enough rest stop

/-- A value that is written as one word. -/
theorem reads_word {v : Value} (plain : v.isPlain = true) {word : List UInt8}
    (text : ∀ level, utf8 (v.prettyAt level).toList = word)
    (read : ∀ fuel rest, value (fuel + 1) (word ++ rest) = some (v, rest)) : Reads v := by
  refine reads_of_succ plain fun level fuel _ rest _ => ?_
  rw [text, read]

/-- The induction over the value: lists and objects are read because their members are. -/
theorem reads_of_plain : ∀ v : Value, v.isPlain = true → Reads v
  | .null, plain => reads_word plain (fun _ => utf8_null) fun _ _ => rfl
  | .bool true, plain => reads_word plain (fun _ => utf8_true) fun _ _ => rfl
  | .bool false, plain => reads_word plain (fun _ => utf8_false) fun _ _ => rfl
  | .int n, plain => reads_of_succ plain fun _ fuel _ _ stop => value_int n fuel stop
  | .real _, plain => by cases plain
  | .string none, plain => by cases plain
  | .string (some s), plain => reads_of_succ plain fun _ fuel _ rest _ => value_string s fuel rest
  | .array [], plain => reads_word plain (fun _ => utf8_noItems) fun _ _ => rfl
  | .array (v :: vs), plain => by
    have each : ∀ w ∈ v :: vs, Reads w := fun w hw => reads_of_plain w (plain_of_mem plain hw)
    refine reads_of_succ plain fun level fuel enough rest _ => ?_
    rw [pretty_array, List.length_cons, List.length_append] at enough
    exact value_of_items (plain_of_mem plain List.mem_cons_self)
      (items_pretty v vs each (level + 1) level [] (by omega) rest)
  | .object [], plain => reads_word plain (fun _ => utf8_noMembers) fun _ _ => rfl
  | .object ((none, _) :: _), plain => by cases plain
  | .object ((some k, v) :: fs), plain => by
    have each : ∀ f ∈ (some k, v) :: fs, f.1.isSome = true ∧ Reads f.2 := fun f hf =>
      ⟨(plain_of_mem_fields plain hf).1, reads_of_plain f.2 (plain_of_mem_fields plain hf).2⟩
    refine reads_of_succ plain fun level fuel enough rest _ => ?_
    rw [pretty_object, List.length_cons, List.length_append] at enough
    exact value_of_members (members_pretty k v fs each (level + 1) level [] (by omega) rest)
termination_by v => sizeOf v
decreasing_by
  · have member := List.sizeOf_lt_of_mem hw
    simp only [Value.array.sizeOf_spec]
    omega
  · exact sizeOf_lt_of_mem_fields hf

/-- The indented text of a plain value holds that value. -/
theorem ofBytes?_pretty {v : Value} (plain : v.isPlain = true) :
    Value.ofBytes? v.pretty.toUTF8.toList = some v := by
  have enough : (utf8 (v.prettyAt 0).toList).length ≤ 2 * (utf8 v.pretty.toList).length + 1 := by
    unfold Value.pretty
    omega
  have read := reads_of_plain v plain 0 enough stops_nil
  rw [List.append_nil] at read
  rw [Text.toList_toUTF8, Value.ofBytes?, Value.pretty] at *
  simp [read, skipBlanks]

end ScriptWarden.Json
