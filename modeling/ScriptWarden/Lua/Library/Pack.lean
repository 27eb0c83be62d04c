import ScriptWarden.Lua.Library.Arguments
set_option autoImplicit false

/-!
# Lua: values as bytes

A format is a list of options that say how wide each value is, in which order its bytes stand and where it
is aligned.
-/

namespace ScriptWarden.Lua.Library

open ScriptWarden.Lua.Native

variable {σ : Type}

/-! ## Options -/

/-- What an option stands for. -/
inductive Field where
  | int
  | word
  | float
  | number
  | double
  | fixed
  | counted
  | terminated
  | padding
  | alignment
  | nothing
  deriving DecidableEq, Repr, Inhabited

/-- Reading a format. -/
structure FormatState where
  rest : List UInt8
  little : Bool := true
  maxAlign : Nat := 1
  deriving Inhabited

/-- A number in a format. -/
def takeNumber (input : List UInt8) (value : Nat) : Nat × List UInt8 :=
  match input with
  | b :: rest =>
    if 0x30 ≤ b ∧ b ≤ 0x39 ∧ value ≤ 200000000 then
      takeNumber rest (value * 10 + (b.toNat - 0x30))
    else (value, input)
  | [] => (value, [])

/-- The number behind an option, or a default. -/
def numberOr (default : Nat) (input : List UInt8) : Nat × List UInt8 :=
  match input with
  | b :: _ => if 0x30 ≤ b ∧ b ≤ 0x39 then takeNumber input 0 else (default, input)
  | [] => (default, input)

/-- The width behind an option: one to sixteen. -/
def widthOr (default : Nat) (input : List UInt8) : Except Fault (Nat × List UInt8) :=
  let (n, rest) := numberOr default input
  if n = 0 ∨ 16 < n then
    .error (.above 1 (Text.bytes s!"integral size ({n}) out of limits [1,16]"))
  else .ok (n, rest)

/-- The next option of a format, and its size. -/
def takeOption (s : FormatState) : Except Fault (Field × Nat × FormatState) := do
  match s.rest with
  | [] => return (.nothing, 0, s)
  | b :: rest =>
    let plain (o : Field) (size : Nat) : Except Fault (Field × Nat × FormatState) :=
      .ok (o, size, { s with rest })
    let wide (o : Field) (default : Nat) : Except Fault (Field × Nat × FormatState) := do
      let (n, rest) ← widthOr default rest
      return (o, n, { s with rest })
    match Char.ofNat b.toNat with
    | 'b' => plain .int 1
    | 'B' => plain .word 1
    | 'h' => plain .int 2
    | 'H' => plain .word 2
    | 'l' | 'j' => plain .int 8
    | 'L' | 'J' | 'T' => plain .word 8
    | 'f' => plain .float 4
    | 'n' => plain .number 8
    | 'd' => plain .double 8
    | 'i' => wide .int 4
    | 'I' => wide .word 4
    | 's' => wide .counted 8
    | 'c' =>
      match rest with
      | d :: _ =>
        if 0x30 ≤ d ∧ d ≤ 0x39 then
          let (n, rest) := takeNumber rest 0
          return (.fixed, n, { s with rest })
        else throw (.above 1 (Text.bytes "missing size for format option 'c'"))
      | [] => throw (.above 1 (Text.bytes "missing size for format option 'c'"))
    | 'z' => plain .terminated 0
    | 'x' => plain .padding 1
    | 'X' => plain .alignment 0
    | ' ' => plain .nothing 0
    | '<' | '=' => return (.nothing, 0, { s with rest, little := true })
    | '>' => return (.nothing, 0, { s with rest, little := false })
    | '!' =>
      let (n, rest) ← widthOr 8 rest
      return (.nothing, 0, { s with rest, maxAlign := n })
    | c => throw (.above 1 (Text.bytes s!"invalid format option '{c}'"))

/-- The next option, its size, and the padding in front of it behind `total` bytes. -/
def takeDetails (s : FormatState) (total : Nat) :
    Except Fault (Field × Nat × Nat × FormatState) := do
  let (o, size, s) ← takeOption s
  let badNext : Fault := .argument 1 (Text.bytes "invalid next option for option 'X'")
  let (align, s) ←
    if o = .alignment then
      if s.rest.isEmpty then throw badNext
      else
        let (next, n, s) ← takeOption s
        if next = .fixed ∨ n = 0 then throw badNext else pure (n, s)
    else pure (size, s)
  if align ≤ 1 ∨ o = .fixed then return (o, size, 0, s)
  else
    let align := min align s.maxAlign
    if align &&& (align - 1) ≠ 0 then
      throw (.argument 1 (Text.bytes "format asks for alignment not power of 2"))
    return (o, size, (align - total % align) % align, s)

/-! ## Bytes of numbers -/

/-- The lowest `size` bytes of a number. -/
def bytesOf (little : Bool) (size : Nat) (n : Int) : Bytes :=
  let bs := (List.range size).map fun i => UInt8.ofNat (n / Nat.pow 256 i % 256).toNat
  Text.ofByteList (if little then bs else bs.reverse)

/-- The number that bytes stand for. -/
def numberOf (little : Bool) (bs : List UInt8) : Nat :=
  (if little then bs.reverse else bs).foldl (fun n b => n * 256 + b.toNat) 0

/-! ## Packing -/

/-- The bytes of an argument under an option. -/
def packOne (o : Field) (size : Nat) (little : Bool) (args : List Value) (place : Nat) :
    Native σ Bytes := do
  match o with
  | .int =>
    let n ← intArg args place
    let half : Int := Nat.pow 2 (size * 8 - 1)
    require (8 ≤ size ∨ (-half ≤ n.toInt ∧ n.toInt < half)) place "integer overflow"
    return bytesOf little size n.toInt
  | .word =>
    let n ← intArg args place
    require (8 ≤ size ∨ n.toUInt64.toNat < Nat.pow 2 (size * 8)) place "unsigned overflow"
    return bytesOf little size n.toInt
  | .float => return bytesOf little 4 (← floatArg args place).toFloat32.toBits.toNat
  | .number | .double => return bytesOf little 8 (← floatArg args place).toBits.toNat
  | .fixed =>
    let s ← strArg args place
    require (s.size ≤ size) place "string longer than given size"
    return s ++ Text.ofByteList (List.replicate (size - s.size) 0)
  | .counted =>
    let s ← strArg args place
    require (8 ≤ size ∨ s.size < Nat.pow 2 (size * 8)) place "string length does not fit in given size"
    return bytesOf little size s.size ++ s
  | .terminated =>
    let s ← strArg args place
    require (!s.toList.contains 0) place "string contains zeros"
    return s.push 0
  | .padding => return ⟨#[0]⟩
  | .alignment | .nothing => return ByteArray.empty

/-- Does an option take an argument? -/
def Field.takesValue : Field → Bool
  | .padding | .alignment | .nothing => false
  | _ => true

/-- Pack arguments from `place` on; `fuel` counts the options left. -/
def packFrom (args : List Value) (fuel : Nat) (s : FormatState) (place : Nat) (got : Bytes) :
    Native σ Bytes :=
  match fuel with
  | 0 => return got
  | fuel + 1 =>
    if s.rest.isEmpty then return got
    else
      match takeDetails s got.size with
      | .error e => fail e
      | .ok (o, size, padding, s) => do
        let got := got ++ Text.ofByteList (List.replicate padding 0)
        let place := if o.takesValue then place + 1 else place
        packFrom args fuel s place (got ++ (← packOne o size s.little args place))

/-- The bytes of values. -/
def pack (args : List Value) : Native σ (List Value) := do
  let format ← strArg args 1
  return [← newString (← packFrom args format.size { rest := format.toList } 1 ByteArray.empty)]

/-- The size of what a format packs; `fuel` counts the options left. -/
def packedSize (fuel : Nat) (s : FormatState) (total : Nat) : Except Fault Nat :=
  match fuel with
  | 0 => .ok total
  | fuel + 1 =>
    if s.rest.isEmpty then .ok total
    else do
      let (o, size, padding, s) ← takeDetails s total
      if o = .counted ∨ o = .terminated then
        throw (.argument 1 (Text.bytes "variable-length format"))
      let size := size + padding
      if 2147483647 < total + size then
        throw (.argument 1 (Text.bytes "format result too large"))
      packedSize fuel s (total + size)

/-- The size of what a format packs. -/
def packSize (args : List Value) : Native σ (List Value) := do
  let format ← strArg args 1
  match packedSize format.size { rest := format.toList } 0 with
  | .ok n => return [.nat n]
  | .error e => fail e

/-! ## Unpacking -/

/-- The integer of bytes, with a sign or without one. -/
def unpackInt (little signed : Bool) (size : Nat) (bs : List UInt8) : Native σ Value := do
  let n := numberOf little bs
  let negative := signed && Nat.pow 2 (size * 8 - 1) ≤ n
  let value : Int := if negative then (n : Int) - Nat.pow 2 (size * 8) else n
  let fits : Bool :=
    if signed then -0x8000000000000000 ≤ value ∧ value < 0x8000000000000000
    else n < 0x10000000000000000
  if 8 < size ∧ !fits then
    failText s!"{size}-byte integer does not fit into Lua Integer"
  return .int (Int64.ofInt value)

/-- The value of an option at an index of the data, and the index behind it. -/
def unpackOne (o : Field) (size : Nat) (little : Bool) (data : Bytes) (i : Nat) :
    Native σ (Option Value × Nat) := do
  let bs := (data.extract i (i + size)).toList
  match o with
  | .int => return (some (← unpackInt little true size bs), i + size)
  | .word => return (some (← unpackInt little false size bs), i + size)
  | .float =>
    return (some (.float (Float32.ofBits (numberOf little bs).toUInt32).toFloat), i + size)
  | .number | .double =>
    return (some (.float (Float.ofBits (numberOf little bs).toUInt64)), i + size)
  | .fixed => return (some (.str (data.extract i (i + size))), i + size)
  | .counted =>
    let n := numberOf little bs
    require (n ≤ data.size - (i + size)) 2 "data string too short"
    return (some (.str (data.extract (i + size) (i + size + n))), i + size + n)
  | .terminated =>
    let s := (data.extract i data.size).toList.takeWhile (· ≠ 0)
    require (i + s.length < data.size) 2 "unfinished string for format 'z'"
    return (some (.str (Text.ofByteList s)), i + s.length + 1)
  | .padding => return (none, i + size)
  | .alignment | .nothing => return (none, i)

/-- Unpack values from an index on; `fuel` counts the options left. -/
def unpackFrom (data : Bytes) (fuel : Nat) (s : FormatState) (i : Nat) (got : List Value) :
    Native σ (List Value) :=
  match fuel with
  | 0 => return (.nat (i + 1) :: got).reverse
  | fuel + 1 =>
    if s.rest.isEmpty then return (.nat (i + 1) :: got).reverse
    else
      match takeDetails s i with
      | .error e => fail e
      | .ok (o, size, padding, s) => do
        require (padding + size ≤ data.size - i) 2 "data string too short"
        let (v, i) ← unpackOne o size s.little data (i + padding)
        unpackFrom data fuel s i (v.toList ++ got)

/-- The values of bytes, and the position behind them. -/
def unpack (args : List Value) : Native σ (List Value) := do
  let format ← strArg args 1
  let data ← strArg args 2
  let first := (← optInt args 3 1).toInt
  let length : Int := data.size
  let start : Int :=
    if 0 < first then first - 1
    else if first = 0 ∨ first < -length then 0
    else length + first
  require (start ≤ length) 3 "initial position out of string"
  unpackFrom data format.size { rest := format.toList } start.toNat []

end ScriptWarden.Lua.Library
