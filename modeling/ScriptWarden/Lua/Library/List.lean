import ScriptWarden.Lua.Library.Arguments
set_option autoImplicit false

/-!
# Lua: functions on lists

Lists are read and written through their metatables.  Sorting is quicksort with the pivot in the middle,
written out so that the order in which elements are compared is the documented one.
-/

namespace ScriptWarden.Lua.Library

open ScriptWarden.Lua.Native

variable {σ : Type}

/-! ## Access -/

/-- What a function does with a list. -/
structure ListUse where
  reads : Bool
  writes : Bool
  measures : Bool

/-- A list: a table, or something whose metatable offers what is needed. -/
def listArg (args : List Value) (i : Nat) (use : ListUse) : Native σ Value := do
  let v := arg args i
  match v with
  | .table _ => return v
  | _ =>
    let offers (needed : Bool) (event : String) : Native σ Bool := do
      return !needed || !(← heap (·.metafield v event)).isNil
    let known ← heap fun h => (h.metatable? v).isSome
    let r ← offers use.reads "__index"
    let w ← offers use.writes "__newindex"
    let m ← offers use.measures "__len"
    if known && r && w && m then return v else wrongType args i "table"

/-- The length of a list. -/
def lengthOf (v : Value) : Native σ Int64 := do
  match ← Access.len v .unknown with
  | .int n => return n
  | n =>
    match n.toInteger? with
    | some n => return n
    | none => failText "object length is not an integer"

/-- An element. -/
def element (v : Value) (i : Int64) : Native σ Value := Access.index v (.int i) .unknown

/-- Change an element. -/
def setElement (v : Value) (i : Int64) (x : Value) : Native σ Unit := Access.store v (.int i) x .unknown

/-! ## Lists -/

/-- The elements of a list as strings, with the separator between them. -/
def joinFrom (list : Value) (separator : Bytes) (fuel : Nat) (i last : Int64) (got : Bytes) :
    Native σ Bytes :=
  match fuel with
  | 0 => return got
  | fuel + 1 => do
    let v ← element list i
    match v.toBytes? with
    | none =>
      failText ("invalid value (" ++ v.typeName ++ ") at index " ++ toString i.toInt
        ++ " in table for 'concat'")
    | some s =>
      if i == last then return got ++ s
      else joinFrom list separator fuel (i + 1) last (got ++ s ++ separator)

/-- How many integers there are from one to another. -/
def span (first last : Int64) : Nat := (last.toInt - first.toInt + 1).toNat

/-- One string of the elements of a list. -/
def concatList (args : List Value) : Native σ (List Value) := do
  let list ← listArg args 1 ⟨true, false, true⟩
  let length ← lengthOf list
  let separator ← optStr args 2 ByteArray.empty
  let first ← optInt args 3 1
  let last ← optInt args 4 length
  let s ← joinFrom list separator (span first last) first last ByteArray.empty
  return [← newString s]

/-- Move elements up or down by one; `step` is the direction of the walk. -/
def shift (list : Value) (fuel : Nat) (source target step : Int64) : Native σ Unit :=
  match fuel with
  | 0 => return
  | fuel + 1 => do
    setElement list target (← element list source)
    shift list fuel (source + step) (target + step) step

/-- Is a position one of `count` from one on? -/
def inBounds (position count : Int64) : Bool :=
  (position - 1).toUInt64 < count.toUInt64

/-- Put an element into a list. -/
def insertElement (args : List Value) : Native σ (List Value) := do
  let list ← listArg args 1 ⟨true, true, true⟩
  let next := (← lengthOf list) + 1
  match args.length with
  | 2 =>
    setElement list next (arg args 2)
    return []
  | 3 =>
    let position ← intArg args 2
    require (inBounds position next) 2 "position out of bounds"
    shift list (span (position + 1) next) (next - 1) next (-1)
    setElement list position (arg args 3)
    return []
  | _ => failText "wrong number of arguments to 'insert'"

/-- Take an element out of a list. -/
def removeElement (args : List Value) : Native σ (List Value) := do
  let list ← listArg args 1 ⟨true, true, true⟩
  let size ← lengthOf list
  let position ← optInt args 2 size
  if position != size then require (inBounds position (size + 1)) 2 "position out of bounds"
  let v ← element list position
  let last := if position.toInt < size.toInt then size else position
  shift list (span (position + 1) size) (position + 1) position 1
  setElement list last .nil
  return [v]

/-- Copy elements. -/
def moveElements (args : List Value) : Native σ (List Value) := do
  let first ← intArg args 2
  let last ← intArg args 3
  let target ← intArg args 4
  let source ← listArg args 1 ⟨true, false, false⟩
  let place := if isAbsent args 5 then 1 else 5
  let destination ← listArg args place ⟨false, true, false⟩
  if first.toInt ≤ last.toInt then
    require (0 < first.toInt ∨ last.toInt < Int64.maxValue.toInt + first.toInt) 3
      "too many elements to move"
    require (target.toInt ≤ Int64.maxValue.toInt - (last.toInt - first.toInt)) 4
      "destination wrap around"
    let n := span first last
    let copyUp := (List.range n).forM fun k => do
      setElement (σ := σ) destination (target + Int64.ofNat k) (← element source (first + Int64.ofNat k))
    let copyDown := (List.range n).reverse.forM fun k => do
      setElement (σ := σ) destination (target + Int64.ofNat k) (← element source (first + Int64.ofNat k))
    let same ← Access.equal source destination
    if last.toInt < target.toInt ∨ target.toInt ≤ first.toInt ∨ !same then copyUp else copyDown
  return [destination]

/-- A list of the arguments, with their number. -/
def packArgs (args : List Value) : Native σ (List Value) := do
  let id ← create fun h => h.newList args
  modifyHeap (·.rawSet id (.text "n") (.nat args.length))
  return [.table id]

/-- Most results of a function. -/
def resultLimit : Nat := 999000

/-- The elements of a list. -/
def unpackList (args : List Value) : Native σ (List Value) := do
  let list := arg args 1
  let first ← optInt args 2 1
  let last ← if isAbsent args 3 then lengthOf list else intArg args 3
  if last.toInt < first.toInt then return []
  let n := span first last
  if resultLimit ≤ n then failText "too many results to unpack"
  (List.range n).mapM fun k => element list (first + Int64.ofNat k)

/-! ## Sorting -/

/-- Does an element come before another? -/
def comesBefore (order : Value) (a b : Value) : Native σ Bool :=
  if order.isNil then Access.ordered false a b
  else do return (← call1 order [a, b]).truthy

/-- The order contradicts itself. -/
def badOrder {α : Type} : Native σ α := failText "invalid order function for sorting"

/-- The first index above `i` whose element does not come before the pivot. -/
def climb (list order pivot : Value) (fuel : Nat) (i high : Int64) : Native σ (Int64 × Value) :=
  match fuel with
  | 0 => badOrder
  | fuel + 1 => do
    let i := i + 1
    let v ← element list i
    if ← comesBefore order v pivot then
      if i == high - 1 then badOrder else climb list order pivot fuel i high
    else return (i, v)

/-- The first index below `j` whose element the pivot does not come before. -/
def descend (list order pivot : Value) (fuel : Nat) (i j : Int64) : Native σ (Int64 × Value) :=
  match fuel with
  | 0 => badOrder
  | fuel + 1 => do
    let j := j - 1
    let v ← element list j
    if ← comesBefore order pivot v then
      if j.toInt < i.toInt then badOrder else descend list order pivot fuel i j
    else return (j, v)

/-- Part the elements between two ends around a pivot, which stands just below the upper end. -/
def partition (list order pivot : Value) (fuel : Nat) (i j high : Int64) : Native σ Int64 :=
  match fuel with
  | 0 => badOrder
  | fuel + 1 => do
    let (i, a) ← climb list order pivot (span i high) i high
    let (j, b) ← descend list order pivot (span i j + 1) i j
    if j.toInt < i.toInt then
      setElement list (high - 1) a
      setElement list i pivot
      return i
    else
      setElement list i b
      setElement list j a
      partition list order pivot fuel i j high

/-- Put two elements in order. -/
def sortPair (list order : Value) (i j : Int64) : Native σ Unit := do
  let a ← element list i
  let b ← element list j
  if ← comesBefore order b a then
    setElement list i b
    setElement list j a

/-- Sort the elements from `low` to `high`. -/
def sortBetween (list order : Value) (fuel : Nat) (low high : Int64) : Native σ Unit :=
  match fuel with
  | 0 => return
  | fuel + 1 => do
    if low.toInt < high.toInt then
      sortPair list order low high
      if (high - low).toInt = 1 then return
      let middle := low + Int64.ofInt ((high.toInt - low.toInt) / 2)
      let m ← element list middle
      let l ← element list low
      if ← comesBefore order m l then
        setElement list middle l
        setElement list low m
      else
        let h ← element list high
        if ← comesBefore order h m then
          setElement list middle h
          setElement list high m
      if (high - low).toInt = 2 then return
      let pivot ← element list middle
      let next ← element list (high - 1)
      setElement list middle next
      setElement list (high - 1) pivot
      let p ← partition list order pivot (span low high) low (high - 1) high
      if p.toInt - low.toInt < high.toInt - p.toInt then
        sortBetween list order fuel low (p - 1)
        sortBetween list order fuel (p + 1) high
      else
        sortBetween list order fuel (p + 1) high
        sortBetween list order fuel low (p - 1)

/-- Sort a list. -/
def sortList (args : List Value) : Native σ (List Value) := do
  let list ← listArg args 1 ⟨true, true, true⟩
  let n ← lengthOf list
  if 1 < n.toInt then
    require (n.toInt < 2147483647) 1 "array too big"
    let order ← if isAbsent args 2 then pure .nil else functionArg args 2
    sortBetween list order n.toInt.toNat 1 n
  return []

/-- Functions on lists. -/
def list (f : Builtin) (args : List Value) : Native σ (List Value) :=
  match f with
  | .tableConcat => concatList args
  | .tableInsert => insertElement args
  | .tableMove => moveElements args
  | .tablePack => packArgs args
  | .tableRemove => removeElement args
  | .tableSort => sortList args
  | .tableUnpack => unpackList args
  | _ => return []

end ScriptWarden.Lua.Library
