import Std.Data.TreeSet
import ScriptWarden.Lua.Heap
set_option autoImplicit false

/-!
# Lua: room

How much room the values take that can still be reached.  A string counts once, however often it is held.
-/

namespace ScriptWarden.Lua.Reach

/-- What was seen on the way. -/
structure Marks where
  tables : Array Bool
  closures : Array Bool
  strings : Std.TreeSet Key := ∅
  size : Nat := 0

/-- The room that is made for a number of entries: it doubles when it is full. -/
def capacity (n : Nat) : Nat := if n ≤ 1 then n else Nat.pow 2 (Nat.log2 (n - 1) + 1)

/-- The room of a table. -/
def tableSize (t : Table) : Nat := 56 + 16 * capacity t.array.size + 40 * capacity t.fields.size

/-- Values that a table holds. -/
def heldByTable (t : Table) : List Value :=
  let fields := t.fields.foldl (fun vs _ (k, v) => k :: v :: vs) []
  let held := t.array.foldl (fun vs v => v :: vs) fields
  match t.metatable with
  | some m => .table m :: held
  | none => held

/-- Count values and what they hold; `fuel` bounds the number of values looked at. -/
def visit (h : Heap) (fuel : Nat) (todo : List Value) (m : Marks) : Marks :=
  match fuel, todo with
  | 0, _ | _, [] => m
  | fuel + 1, v :: todo =>
    match v with
    | .str s =>
      if s.size ≤ 40 then visit h fuel todo { m with size := m.size + 8 }
      else
        let key : Key := ⟨3, s.size, s⟩
        if m.strings.contains key then visit h fuel todo m
        else
          visit h fuel todo { m with
            strings := m.strings.insert key, size := m.size + 24 + s.size }
    | .table id =>
      if m.tables[id]?.getD true then visit h fuel todo m
      else
        let t := h.table id
        visit h fuel (heldByTable t ++ todo) { m with
          tables := m.tables.setIfInBounds id true, size := m.size + tableSize t }
    | .closure id =>
      if m.closures[id]?.getD true then visit h fuel todo m
      else
        let c := h.closure id
        let held := c.captured.toList.map h.cell
        visit h fuel (held ++ todo) { m with
          closures := m.closures.setIfInBounds id true
          size := m.size + 32 + 48 * c.captured.size }
    | _ => visit h fuel todo m

/-- Most values that are looked at. -/
def fuel : Nat := 1000000000

/-- The room of what can be reached from some values and from the variables of all scripts. -/
def size (h : Heap) (held : List Value) : Nat :=
  let start : Marks :=
    { tables := (List.replicate h.tables.size false).toArray
      closures := (List.replicate h.closures.size false).toArray }
  (visit h fuel (.table h.globals :: h.stringifier :: held) start).size

end ScriptWarden.Lua.Reach
