import Std.Data.TreeMap
import ScriptWarden.Lua.Number
set_option autoImplicit false

/-!
# Lua: tables

A table keeps the values of the keys 1, 2, …, n in an array, which may have holes, and all others
in a map ordered by key.  A key of the map that loses its value stays behind, so that a walk over the
table can go on from it.
-/

namespace ScriptWarden.Lua

/-- A key, made comparable: first by kind, then by number, then by bytes. -/
structure Key where
  kind : Nat
  number : Int
  bytes : Bytes

namespace Key

/-- Kinds first, then numbers, then bytes. -/
def order (a b : Key) : Ordering :=
  (compare a.kind b.kind).then ((compare a.number b.number).then (Text.compareBytes a.bytes b.bytes))

instance : Ord Key := ⟨order⟩

/-- A number of a built-in function. -/
def builtinNumber : Builtin → Int
  | .stringArith op => 1000 + op.ctorIdx
  | f => f.ctorIdx

/-- The key of a function of the host. -/
def ofHost : HostFunction → Key
  | .output level => ⟨8, 0, Text.bytes level⟩
  | .outputCall => ⟨8, 1, ByteArray.empty⟩
  | .require => ⟨8, 2, ByteArray.empty⟩
  | .member => ⟨8, 3, ByteArray.empty⟩
  | .setMember => ⟨8, 4, ByteArray.empty⟩
  | .objectText => ⟨8, 5, ByteArray.empty⟩
  | .sameObject => ⟨8, 6, ByteArray.empty⟩
  | .method type name => ⟨8, 7 + type.utf8ByteSize, Text.bytes (type ++ name)⟩

/-- The key of a value; `none` for `nil` and for what is no number.  A double that is an integer has
the key of that integer. -/
def ofValue? : Value → Option Key
  | .nil => none
  | .bool b => some ⟨0, if b then 1 else 0, ByteArray.empty⟩
  | .int n => some ⟨1, n.toInt, ByteArray.empty⟩
  | .float x =>
    if x.isNaN then none
    else
      match floatToInt? x with
      | some n => some ⟨1, n.toInt, ByteArray.empty⟩
      | none => some ⟨2, x.toBits.toNat, ByteArray.empty⟩
  | .str s => some ⟨3, 0, s⟩
  | .table id => some ⟨4, id, ByteArray.empty⟩
  | .closure id => some ⟨5, id, ByteArray.empty⟩
  | .builtin f => some ⟨6, builtinNumber f, ByteArray.empty⟩
  | .matcher id => some ⟨7, id, ByteArray.empty⟩
  | .host f => some (ofHost f)
  | .object id => some ⟨9, id, ByteArray.empty⟩
  | .raised id => some ⟨10, id, ByteArray.empty⟩

/-- The integer that a key is. -/
def int? (k : Key) : Option Int := if k.kind = 1 then some k.number else none

end Key

/-- A table. -/
structure Table where
  array : Array Value := #[]
  /-- Each key with the value it was made from. -/
  fields : Std.TreeMap Key (Value × Value) := ∅
  metatable : Option Nat := none
  deriving Inhabited

namespace Table

/-- The index in the array of a key, if it is one of its keys. -/
def slot? (t : Table) (k : Key) : Option Nat :=
  match k.int? with
  | some n => if 1 ≤ n ∧ n ≤ t.array.size then some (n.toNat - 1) else none
  | none => none

/-- The value of a key. -/
def getKey (t : Table) (k : Key) : Value :=
  match t.slot? k with
  | some i => t.array[i]?.getD .nil
  | none =>
    match t.fields[k]? with
    | some (_, v) => v
    | none => .nil

/-- The value of a key; `nil` has none. -/
def get (t : Table) (key : Value) : Value :=
  match Key.ofValue? key with
  | some k => t.getKey k
  | none => .nil

/-- The value of a string key. -/
def getText (t : Table) (key : String) : Value := t.getKey ⟨3, 0, Text.bytes key⟩

/-- The value of an integer key. -/
def getInt (t : Table) (n : Int) : Value := t.getKey ⟨1, n, ByteArray.empty⟩

/-- Move keys that continue the array out of the map, at most `fuel` of them. -/
def absorb (fuel : Nat) (t : Table) : Table :=
  match fuel with
  | 0 => t
  | fuel + 1 =>
    let k : Key := ⟨1, t.array.size + 1, ByteArray.empty⟩
    match t.fields[k]? with
    | some (_, v) =>
      if v.isNil then t
      else absorb fuel { t with array := t.array.push v, fields := t.fields.erase k }
    | none => t

/-- Continue the array with a value. -/
def push (t : Table) (v : Value) : Table :=
  if t.fields.isEmpty then { t with array := t.array.push v }
  else
    let k : Key := ⟨1, t.array.size + 1, ByteArray.empty⟩
    let fields := t.fields.erase k
    absorb fields.size { t with array := t.array.push v, fields }

/-- Set the value of a key; `original` is the value the key was made from. -/
def setKey (t : Table) (k : Key) (original v : Value) : Table :=
  match t.slot? k with
  | some i => { t with array := t.array.setIfInBounds i v }
  | none =>
    if k.kind = 1 ∧ k.number = t.array.size + 1 ∧ !v.isNil then t.push v
    else if v.isNil then
      if t.fields.contains k then { t with fields := t.fields.insert k (original, .nil) } else t
    else { t with fields := t.fields.insert k (original, v) }

/-- A key as walks show it: a double that is an integer is shown as one. -/
def shownKey (key : Value) : Value :=
  match key with
  | .float x =>
    match floatToInt? x with
    | some n => .int n
    | none => key
  | _ => key

/-- Set the value of a key; nothing happens without a key. -/
def set (t : Table) (key v : Value) : Table :=
  match Key.ofValue? key with
  | some k => t.setKey k (shownKey key) v
  | none => t

/-- Append a value to the array, even if it is `nil`. -/
def append (t : Table) (v : Value) : Table :=
  let k : Key := ⟨1, t.array.size + 1, ByteArray.empty⟩
  { t with array := t.array.push v, fields := t.fields.erase k }

/-- Set the value of a string key. -/
def setText (t : Table) (key : String) (v : Value) : Table :=
  t.setKey ⟨3, 0, Text.bytes key⟩ (.text key) v

/-- Set the value of an integer key. -/
def setInt (t : Table) (n : Int64) (v : Value) : Table :=
  t.setKey ⟨1, n.toInt, ByteArray.empty⟩ (.int n) v

/-! ## Length -/

/-- A border of the array between `low`, which is zero or has a value, and `high`, which has none;
`fuel` counts the halvings. -/
def searchBorder (a : Array Value) (fuel low high : Nat) : Nat :=
  match fuel with
  | 0 => low
  | fuel + 1 =>
    if high ≤ low + 1 then low
    else
      let middle := (low + high) / 2
      if (a[middle - 1]?.getD .nil).isNil then searchBorder a fuel low middle
      else searchBorder a fuel middle high

/-- A border: a key with a value whose successor has none, or zero. -/
def border (t : Table) : Nat :=
  let n := t.array.size
  if n = 0 then 0
  else if !(t.array[n - 1]?.getD .nil).isNil then n
  else if 2 ≤ n ∧ !(t.array[n - 2]?.getD .nil).isNil then n - 1
  else searchBorder t.array 64 0 n

/-! ## Walks -/

/-- The first pair of the array from an index on; `fuel` counts the entries left. -/
def arrayFrom (a : Array Value) (fuel i : Nat) : Option (Value × Value) :=
  match fuel with
  | 0 => none
  | fuel + 1 =>
    match a[i]? with
    | none => none
    | some .nil => arrayFrom a fuel (i + 1)
    | some v => some (.nat (i + 1), v)

/-- The first pair of the map with a value behind a key; `fuel` counts the entries left. -/
def fieldAfter (fields : Std.TreeMap Key (Value × Value)) (fuel : Nat) (k : Key) :
    Option (Value × Value) :=
  match fuel with
  | 0 => none
  | fuel + 1 =>
    match fields.getEntryGT? k with
    | none => none
    | some (k, .mk _ .nil) => fieldAfter fields fuel k
    | some (_, pair) => some pair

/-- The first pair of the map. -/
def firstField (t : Table) : Option (Value × Value) :=
  match t.fields.minEntry? with
  | none => none
  | some (k, .mk _ .nil) => fieldAfter t.fields t.fields.size k
  | some (_, pair) => some pair

/-- The pair that follows a key in a walk; `nil` begins one.  The outer `none` says that the key is
not one of the table. -/
def next (t : Table) (key : Value) : Option (Option (Value × Value)) :=
  match key with
  | .nil => some ((arrayFrom t.array t.array.size 0) <|> t.firstField)
  | _ =>
    match Key.ofValue? key with
    | none => none
    | some k =>
      match t.slot? k with
      | some i => some ((arrayFrom t.array (t.array.size - i) (i + 1)) <|> t.firstField)
      | none =>
        if t.fields.contains k then some (fieldAfter t.fields t.fields.size k) else none

/-- Every pair with a value, in the order of walks. -/
def pairs (t : Table) : List (Value × Value) :=
  (t.array.toList.mapIdx fun i v => (Value.nat (i + 1), v)).filter (fun p => !p.2.isNil)
    ++ (t.fields.toList.map (·.2)).filter fun p => !p.2.isNil

end Table

end ScriptWarden.Lua
