set_option autoImplicit false

/-!
# Text: byte strings

Strings of scripts are sequences of bytes and need not be UTF-8.  `decode` reads UTF-8 and says where
and how a text stops being it; `lossy` puts U+FFFD in the place of every longest beginning of a
character that goes wrong.
-/

namespace ScriptWarden.Text

/-- The bytes of an ASCII or Unicode text. -/
def bytes (s : String) : ByteArray := s.toUTF8

/-- Order of two byte strings from an index on; `fuel` counts the bytes left to look at. -/
def compareFrom (a b : ByteArray) (fuel i : Nat) : Ordering :=
  match fuel with
  | 0 => compare a.size b.size
  | fuel + 1 =>
    match a[i]?, b[i]? with
    | some x, some y => if x < y then .lt else if y < x then .gt else compareFrom a b fuel (i + 1)
    | none, some _ => .lt
    | some _, none => .gt
    | none, none => .eq

/-- Lexicographic order by byte. -/
def compareBytes (a b : ByteArray) : Ordering := compareFrom a b (min a.size b.size) 0

/-- The bytes of a list. -/
def ofByteList (bs : List UInt8) : ByteArray := ⟨bs.toArray⟩

/-- A byte string written a number of times, by doubling. -/
def copies (s : ByteArray) (n : Nat) : ByteArray :=
  if n = 0 then ByteArray.empty
  else
    let half := copies s (n / 2)
    if n % 2 = 0 then half ++ half else half ++ half ++ s
termination_by n
decreasing_by omega

/-- A byte string written several times with separators between the copies. -/
def repeatBytes (s separator : ByteArray) : Nat → ByteArray
  | 0 => ByteArray.empty
  | n + 1 => copies (s ++ separator) n ++ s

/-! ## UTF-8 -/

/-- How many bytes follow a first byte, and the least and greatest value of the second. -/
structure Lead where
  extra : Nat
  low : UInt8
  high : UInt8
  bits : Nat

/-- What a first byte announces; `none` if no character starts with it. -/
def lead? (b : UInt8) : Option Lead :=
  if b < 0x80 then some ⟨0, 0, 0, b.toNat⟩
  else if b < 0xC2 then none
  else if b < 0xE0 then some ⟨1, 0x80, 0xBF, b.toNat - 0xC0⟩
  else if b == 0xE0 then some ⟨2, 0xA0, 0xBF, 0⟩
  else if b == 0xED then some ⟨2, 0x80, 0x9F, 0x0D⟩
  else if b < 0xF0 then some ⟨2, 0x80, 0xBF, b.toNat - 0xE0⟩
  else if b == 0xF0 then some ⟨3, 0x90, 0xBF, 0⟩
  else if b == 0xF4 then some ⟨3, 0x80, 0x8F, 4⟩
  else if b < 0xF4 then some ⟨3, 0x80, 0xBF, b.toNat - 0xF0⟩
  else none

/-- One step of decoding. -/
inductive Scalar where
  | char (c : Char) (rest : List UInt8)
  /-- `count` bytes begin a character that the next byte does not continue. -/
  | broken (count : Nat) (rest : List UInt8)
  /-- The text ends inside a character. -/
  | truncated (count : Nat)

/-- Bytes that continue a character: `need` more of them, the next between two bounds. -/
def continueScalar (need : Nat) (low high : UInt8) (bits taken : Nat) :
    List UInt8 → Scalar
  | rest =>
    match need with
    | 0 => .char (Char.ofNat bits) rest
    | need + 1 =>
      match rest with
      | [] => .truncated taken
      | b :: after =>
        if low ≤ b && b ≤ high then
          continueScalar need 0x80 0xBF (bits * 64 + (b.toNat - 0x80)) (taken + 1) after
        else .broken taken rest

/-- The character in front of a text that is not empty. -/
def scalar (b : UInt8) (rest : List UInt8) : Scalar :=
  match lead? b with
  | none => .broken 1 rest
  | some l => continueScalar l.extra l.low l.high l.bits 1 rest

/-- Why a text is no UTF-8: the length of its valid beginning, and the number of bytes that break it,
or nothing if it merely ends too early. -/
structure Malformed where
  validUpTo : Nat
  length : Option Nat
  deriving DecidableEq, Repr

/-- Decode; each turn takes a byte, which `fuel` counts. -/
def decodeFrom (fuel : Nat) (got : List Char) (at_ : Nat) (input : List UInt8) :
    Except Malformed (List Char) :=
  match fuel, input with
  | _, [] => .ok got.reverse
  | 0, _ => .ok got.reverse
  | fuel + 1, b :: rest =>
    match scalar b rest with
    | .char c after => decodeFrom fuel (c :: got) (at_ + c.utf8Size) after
    | .broken count _ => .error ⟨at_, some count⟩
    | .truncated _ => .error ⟨at_, none⟩

/-- The characters of a text that is UTF-8. -/
def decode (s : ByteArray) : Except Malformed String :=
  (decodeFrom s.size [] 0 s.toList).map String.ofList

/-- How a malformed text is reported. -/
def Malformed.message (m : Malformed) : String :=
  match m.length with
  | some n =>
    "invalid utf-8 sequence of " ++ toString n ++ " bytes from index " ++ toString m.validUpTo
  | none => "incomplete utf-8 byte sequence from index " ++ toString m.validUpTo

/-- The character that stands for bytes that are none. -/
def replacement : Char := Char.ofNat 0xFFFD

/-- Decode and replace; each turn takes a byte, which `fuel` counts. -/
def lossyFrom (fuel : Nat) (got : List Char) (input : List UInt8) : List Char :=
  match fuel, input with
  | _, [] => got.reverse
  | 0, _ => got.reverse
  | fuel + 1, b :: rest =>
    match scalar b rest with
    | .char c after => lossyFrom fuel (c :: got) after
    | .broken _ after => lossyFrom fuel (replacement :: got) after
    | .truncated _ => (replacement :: got).reverse

/-- The text, with U+FFFD where it is no UTF-8. -/
def lossy (s : ByteArray) : String := String.ofList (lossyFrom s.size [] s.toList)

end ScriptWarden.Text
