import ScriptWarden.Lua.Library.Arguments
set_option autoImplicit false

/-!
# Lua: functions on numbers
-/

namespace ScriptWarden.Lua.Library

open ScriptWarden.Lua.Native

variable {σ : Type}

/-- The ratio of a circle's circumference to its diameter. -/
def pi : Float := 3.141592653589793

/-- A double as an integer where it is one. -/
def asInteger (x : Float) : Value :=
  match floatToInt? x with
  | some n => .int n
  | none => .float x

/-- A function of one double. -/
def ofFloat (args : List Value) (f : Float → Float) : Native σ (List Value) := do
  return [.float (f (← floatArg args 1))]

/-- The distance from zero. -/
def absolute (args : List Value) : Native σ (List Value) := do
  match arg args 1 with
  | .int n => return [.int (if n.toInt < 0 then -n else n)]
  | _ => return [.float (← floatArg args 1).abs]

/-- The remainder, with the sign of the first. -/
def truncatedRemainder (args : List Value) : Native σ (List Value) := do
  match arg args 1, arg args 2 with
  | .int a, .int b =>
    require (b != 0) 2 "zero"
    return [.int (Int64.ofInt (a.toInt.tmod b.toInt))]
  | _, _ =>
    let a ← floatArg args 1
    let b ← floatArg args 2
    return [.float (floatRemainder a b)]

/-- The logarithm to a base. -/
def logarithm (args : List Value) : Native σ (List Value) := do
  let x ← floatArg args 1
  if isAbsent args 2 then return [.float x.log]
  let base ← floatArg args 2
  return [.float (if base == 2 then x.log2 else if base == 10 then x.log10 else x.log / base.log)]

/-- The first argument that no other one beats. -/
def best (args : List Value) (better : Value → Value → Native σ Bool) : Native σ (List Value) := do
  let _ ← numberArg args 1
  let v ← (List.range (args.length - 1)).foldlM (fun (best : Value) i => do
    let _ ← numberArg args (i + 2)
    let v := arg args (i + 2)
    return if ← better v best then v else best) (arg args 1)
  return [v]

/-- The whole and the broken part. -/
def parts (args : List Value) : Native σ (List Value) := do
  match arg args 1 with
  | .int n => return [.int n, .float 0]
  | _ =>
    let x ← floatArg args 1
    let whole := if x < 0 then x.ceil else x.floor
    let broken := if x == whole then 0 else x - whole
    return [.float whole, .float broken]

/-! ## Random numbers -/

/-- Turn the bits of a word to the left. -/
def rotateLeft (x : UInt64) (n : UInt64) : UInt64 := (x <<< n) ||| (x >>> (64 - n))

/-- The next word, and the state behind it. -/
def RandomState.next (s : RandomState) : UInt64 × RandomState :=
  let mixed := s.c ^^^ s.a
  let other := s.d ^^^ s.b
  let result := rotateLeft (s.b * 5) 7 * 9
  (result, ⟨s.a ^^^ other, s.b ^^^ mixed, mixed ^^^ (s.b <<< 17), rotateLeft other 45⟩)

/-- Words are thrown away until the seed is mixed in. -/
def RandomState.skip (n : Nat) (s : RandomState) : RandomState :=
  match n with
  | 0 => s
  | n + 1 => RandomState.skip n (RandomState.next s).2

/-- The state of a seed. -/
def RandomState.ofSeed (a b : UInt64) : RandomState := RandomState.skip 16 ⟨a, 0xFF, b, 0⟩

/-- A random word. -/
def randomWord : Native σ UInt64 := create fun h =>
  let (x, random) := RandomState.next h.random
  (x, { h with random })

/-- A random word that is at most `n`: words are cut to the bits of `n` until one fits. -/
def project (fuel : Nat) (word n mask : UInt64) : Native σ UInt64 :=
  match fuel with
  | 0 => return 0
  | fuel + 1 => do
    let word := word &&& mask
    if word ≤ n then return word else project fuel (← randomWord) n mask

/-- All bits below the highest bit of a word. -/
def fillBits (n : UInt64) : UInt64 :=
  let n := n ||| (n >>> 1)
  let n := n ||| (n >>> 2)
  let n := n ||| (n >>> 4)
  let n := n ||| (n >>> 8)
  let n := n ||| (n >>> 16)
  n ||| (n >>> 32)

/-- A random integer between two others. -/
def randomBetween (word : UInt64) (low high : Int64) : Native σ (List Value) := do
  require (low.toInt ≤ high.toInt) 2 "interval is empty"
  let n := high.toUInt64 - low.toUInt64
  let r ← project 4096 word n (fillBits n)
  return [.int (r + low.toUInt64).toInt64]

/-- A random number. -/
def random (args : List Value) : Native σ (List Value) := do
  let word ← randomWord
  match args.length with
  | 0 => return [.float ((word >>> 11).toFloat * 1.1102230246251565e-16)]
  | 1 =>
    let high ← intArg args 1
    if high == 0 then return [.int word.toInt64] else randomBetween word 1 high
  | 2 => randomBetween word (← intArg args 1) (← intArg args 2)
  | _ => failText "wrong number of arguments"

/-- Choose the seed of random numbers. -/
def seedRandom (args : List Value) : Native σ (List Value) := do
  let first ← match arg? args 1 with
    | none => pure 0
    | some _ => do
      match ← numberArg args 1 with
      | .int n => pure n.toUInt64
      | .float x => pure ((floatToInt? x).map (·.toUInt64) |>.getD x.toBits)
  let second ← optInt args 2 0
  modifyHeap fun h => { h with random := RandomState.ofSeed first second.toUInt64 }
  return [.int first.toInt64, .int second]

/-- Functions on numbers. -/
def math (f : Builtin) (args : List Value) : Native σ (List Value) :=
  match f with
  | .mathAbs => absolute args
  | .mathAcos => ofFloat args Float.acos
  | .mathAsin => ofFloat args Float.asin
  | .mathAtan => do
    let y ← floatArg args 1
    let x ← if isAbsent args 2 then pure 1 else floatArg args 2
    return [.float (Float.atan2 y x)]
  | .mathCeil => do
    match ← numberArg args 1 with
    | .int n => return [.int n]
    | .float x => return [asInteger x.ceil]
  | .mathCos => ofFloat args Float.cos
  | .mathDeg => ofFloat args fun x => x * (180 / pi)
  | .mathExp => ofFloat args Float.exp
  | .mathFloor => do
    match ← numberArg args 1 with
    | .int n => return [.int n]
    | .float x => return [asInteger x.floor]
  | .mathFmod => truncatedRemainder args
  | .mathLog => logarithm args
  | .mathMax => best args fun v best => Access.ordered false best v
  | .mathMin => best args fun v best => Access.ordered false v best
  | .mathModf => parts args
  | .mathRad => ofFloat args fun x => x * (pi / 180)
  | .mathRandom => random args
  | .mathRandomseed => seedRandom args
  | .mathSin => ofFloat args Float.sin
  | .mathSqrt => ofFloat args Float.sqrt
  | .mathTan => ofFloat args Float.tan
  | .mathTointeger => do
    let v ← anyArg args 1
    return [(v.toInteger?.map Value.int).getD .nil]
  | .mathType => do
    let v ← anyArg args 1
    match v with
    | .int _ => return [.text "integer"]
    | .float _ => return [.text "float"]
    | _ => return [.nil]
  | .mathUlt => do
    let a ← intArg args 1
    let b ← intArg args 2
    return [.bool (a.toUInt64 < b.toUInt64)]
  | _ => return []

end ScriptWarden.Lua.Library
