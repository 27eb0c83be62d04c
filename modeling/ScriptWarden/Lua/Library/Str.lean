import ScriptWarden.Lua.Library.Format
import ScriptWarden.Lua.Library.Pattern
set_option autoImplicit false

/-!
# Lua: functions on strings
-/

namespace ScriptWarden.Lua.Library

open ScriptWarden.Lua.Native

variable {σ : Type}

/-! ## Positions -/

/-- The first position of a range: from the end if negative, and at least one. -/
def startPosition (n : Int64) (length : Nat) : Nat :=
  let n := n.toInt
  if 0 < n then n.toNat
  else if n = 0 then 1
  else if n < -(length : Int) then 1
  else (length + n + 1).toNat

/-- The last position of a range: from the end if negative, and at most the length. -/
def endPosition (n : Int64) (length : Nat) : Nat :=
  let n := n.toInt
  if (length : Int) < n then length
  else if 0 ≤ n then n.toNat
  else if n < -(length : Int) then 0
  else (length + n + 1).toNat

/-- The bytes from a position to another. -/
def slice (s : Bytes) (first last : Nat) : Bytes :=
  if last < first then ByteArray.empty else s.extract (first - 1) last

/-! ## Bytes -/

/-- Letters as capitals. -/
def upperByte (b : UInt8) : UInt8 := if 0x61 ≤ b ∧ b ≤ 0x7A then b - 0x20 else b

/-- Letters as small ones. -/
def lowerByte (b : UInt8) : UInt8 := if 0x41 ≤ b ∧ b ≤ 0x5A then b + 0x20 else b

/-- A string changed byte by byte. -/
def mapBytes (args : List Value) (f : UInt8 → UInt8) : Native σ (List Value) := do
  let s ← strArg args 1
  return [← newString ⟨s.data.map f⟩]

/-- The numbers of bytes. -/
def byteNumbers (args : List Value) : Native σ (List Value) := do
  let s ← strArg args 1
  let start ← optInt args 2 1
  let first := startPosition start s.size
  let last := endPosition (← optInt args 3 start) s.size
  return (slice s first last).toList.map fun b => .nat b.toNat

/-- A string of numbers of bytes. -/
def fromNumbers (args : List Value) : Native σ (List Value) := do
  let bs ← (List.range args.length).mapM fun i => do
    let n ← intArg (σ := σ) args (i + 1)
    require (0 ≤ n.toInt ∧ n.toInt ≤ 255) (i + 1) "value out of range"
    return n.toUInt64.toUInt8
  return [← newString (Text.ofByteList bs)]

/-- The largest string, as far as numbers go. -/
def sizeLimit : Nat := 0x7FFFFFFF

/-- A string several times, with a separator between. -/
def repeatString (args : List Value) : Native σ (List Value) := do
  let s ← strArg args 1
  let n ← intArg args 2
  let separator ← optStr args 3 ByteArray.empty
  if n.toInt ≤ 0 then return [.text ""]
  let n := n.toInt.toNat
  let unit := s.size + separator.size
  if sizeLimit / n < unit then failText "resulting string too large"
  -- the string is put together in a buffer of the same size
  let room := 2 * (n * s.size + (n - 1) * separator.size)
  return [← makeString room fun _ => Text.repeatBytes s separator n]

/-! ## Searching -/

/-- Turn a fault of a pattern into an error. -/
def orFault {α : Type} : Except String α → Native σ α
  | .ok a => return a
  | .error e => failText e

/-- Find a pattern: the places of the match, or its captures. -/
def findPattern (args : List Value) (find : Bool) : Native σ (List Value) := do
  let s ← strArg args 1
  let pat ← strArg args 2
  let first ← optInt args 3 1
  let start := startPosition first s.size - 1
  if s.size < start then return [.nil]
  let left := s.size - start + 1
  if find && ((arg args 4).truthy || Pattern.isPlain pat) then
    match Pattern.searchText s pat left start with
    | some i => return [.nat (i + 1), .nat (i + pat.size)]
    | none => return [.nil]
  let anchored := Pattern.byteAt pat 0 = 0x5E ∧ pat.size ≠ 0
  let skip := if anchored then 1 else 0
  let tries := if anchored then 1 else left
  let found ← orFault (Pattern.search s pat skip tries start)
  match found with
  | none => return [.nil]
  | some (i, m) =>
    let captures ← orFault (Pattern.captureValues s i m (!find))
    return if find then .nat (i + 1) :: .nat m.stop :: captures else captures

/-- Begin a walk over the matches of a pattern. -/
def beginMatches (args : List Value) : Native σ (List Value) := do
  let subject ← strArg args 1
  let pattern ← strArg args 2
  let first ← optInt args 3 1
  let position := min (startPosition first subject.size - 1) (subject.size + 1)
  let id ← create fun h =>
    (h.matchers.size, { h with matchers := h.matchers.push ⟨subject, pattern, position, none⟩ })
  return [.matcher id]

/-- The next match of a walk that does not end where the last one did; `fuel` counts the places
left. -/
def nextMatch (m : Matcher) (fuel s : Nat) : Except String (Option (Nat × Pattern.Match)) :=
  match fuel with
  | 0 => .ok none
  | fuel + 1 => do
    match ← Pattern.matchAt m.subject m.pattern s 0 with
    | some found =>
      if some found.stop ≠ m.last then return some (s, found) else nextMatch m fuel (s + 1)
    | none => nextMatch m fuel (s + 1)

/-- A step of a walk over the matches of a pattern. -/
def matchStep (id : Nat) : Native σ (List Value) := do
  let m ← heap fun h => h.matchers[id]?.getD default
  match ← orFault (nextMatch m (m.subject.size + 1 - m.position) m.position) with
  | none => return [.nil]
  | some (s, found) =>
    modifyHeap fun h => { h with
      matchers := h.matchers.setIfInBounds id
        { m with position := found.stop, last := some found.stop } }
    orFault (Pattern.captureValues m.subject s found true)

/-! ## Replacing -/

/-- The text of a replacement: marks are replaced by captures. -/
def expand (subject : Bytes) (start : Nat) (m : Pattern.Match) (input : List UInt8) (got : Bytes) :
    Except String Bytes :=
  match input with
  | [] => .ok got
  | 0x25 :: 0x25 :: rest => expand subject start m rest (got.push 0x25)
  | 0x25 :: 0x30 :: rest => expand subject start m rest (got ++ subject.extract start m.stop)
  | 0x25 :: d :: rest =>
    if 0x31 ≤ d ∧ d ≤ 0x39 then do
      let v ← Pattern.captureValue subject start m (d.toNat - 0x31)
      expand subject start m rest (got ++ v.toBytes?.getD ByteArray.empty)
    else .error "invalid use of '%' in replacement string"
  | [0x25] => .error "invalid use of '%' in replacement string"
  | b :: rest => expand subject start m rest (got.push b)

/-- What a match is replaced by. -/
def replacement (subject : Bytes) (start : Nat) (m : Pattern.Match) (by_ : Value) : Native σ Bytes := do
  let whole := subject.extract start m.stop
  let settle (v : Value) : Native σ Bytes :=
    if !v.truthy then return whole
    else
      match v.toBytes? with
      | some s => return s
      | none => failText ("invalid replacement value (a " ++ v.typeName ++ ")")
  match by_ with
  | .table _ =>
    let key ← orFault (Pattern.captureValue subject start m 0)
    settle (← Access.index by_ key .unknown)
  | _ =>
    match by_.toBytes? with
    | some s => orFault (expand subject start m s.toList ByteArray.empty)
    | none => settle (← call1 by_ (← orFault (Pattern.captureValues subject start m true)))

/-- Replace matches from `s` on; `fuel` counts the places left, `count` the replacements so far. -/
def replaceFrom (subject pat : Bytes) (p : Nat) (by_ : Value) (limit fuel s count : Nat)
    (last : Option Nat) (got : Bytes) : Native σ (Bytes × Nat) :=
  match fuel with
  | 0 => return (got ++ subject.extract s subject.size, count)
  | fuel + 1 =>
    if limit ≤ count then return (got ++ subject.extract s subject.size, count)
    else
      let again (s count : Nat) (last : Option Nat) (got : Bytes) : Native σ (Bytes × Nat) :=
        if p = 1 then return (got ++ subject.extract s subject.size, count)
        else replaceFrom subject pat p by_ limit fuel s count last got
      let skip (got : Bytes) : Native σ (Bytes × Nat) :=
        if s < subject.size then again (s + 1) count last (got.push (Pattern.byteAt subject s))
        else return (got, count)
      match Pattern.matchAt subject pat s p with
      | .error e => failText e
      | .ok none => skip got
      | .ok (some m) =>
        if some m.stop = last then skip got
        else do
          let r ← replacement subject s m by_
          again m.stop (count + 1) (some m.stop) (got ++ r)

/-- Replace the matches of a pattern. -/
def replace (args : List Value) : Native σ (List Value) := do
  let subject ← strArg args 1
  let pat ← strArg args 2
  let by_ := arg args 3
  match by_ with
  | .table _ | .str _ | .int _ | .float _ => pure ()
  | v => if !v.isFunction then wrongType args 3 "string/function/table"
  let limit ← optInt args 4 (Int64.ofNat (subject.size + 1))
  let anchored := Pattern.byteAt pat 0 = 0x5E ∧ pat.size ≠ 0
  let (s, n) ← replaceFrom subject pat (if anchored then 1 else 0) by_ limit.toInt.toNat
    (2 * subject.size + 2) 0 0 none ByteArray.empty
  return [← newString s, .nat n]

/-! ## Arithmetic on strings -/

/-- Arithmetic on operands of which one is a string. -/
def stringArith (op : Arith) (args : List Value) : Native σ (List Value) := do
  let a := arg args 1
  let b := arg args 2
  match a.toNumber?, b.toNumber? with
  | some m, some n => return [← Access.arith op m.toValue n.toValue .unknown .unknown]
  | _, _ =>
    let handler ← match b with
      | .str _ => pure .nil
      | _ => heap (·.metafield b ("__" ++ op.event))
    if handler.isNil then
      let s ← heap (·.typeName a)
      let t ← heap (·.typeName b)
      fail (.above 1 (Text.bytes ("attempt to " ++ op.event ++ " a '") ++ s ++ Text.bytes "' with a '"
        ++ t ++ Text.bytes "'"))
    else return [← call1 handler [a, b]]

end ScriptWarden.Lua.Library
