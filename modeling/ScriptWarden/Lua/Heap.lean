import ScriptWarden.Lua.Code
import ScriptWarden.Lua.Table
set_option autoImplicit false

/-!
# Lua: the heap

Everything that has an identity.  Numbers of tables, functions and variables are places in the arrays
below and are never given out twice.
-/

namespace ScriptWarden.Lua

/-- A function with the variables it captured. -/
structure Closure where
  image : Image
  proto : Proto
  captured : Array Nat
  deriving Inhabited

/-- A walk over the matches of a pattern. -/
structure Matcher where
  subject : Bytes
  pattern : Bytes
  position : Nat
  /-- Where the last match ended; an empty match does not follow it directly. -/
  last : Option Nat
  deriving Inhabited

/-- An error that the host raised: what it says, and the place that its trace names first. -/
structure Raised where
  message : Bytes
  origin : Bytes
  deriving Inhabited

/-- State of the generator of random numbers. -/
structure RandomState where
  a : UInt64
  b : UInt64
  c : UInt64
  d : UInt64
  deriving Inhabited

/-- Everything that a script can reach, and the room it may take. -/
structure Heap where
  tables : Array Table := #[]
  closures : Array Closure := #[]
  /-- The values of variables. -/
  cells : Array Value := #[]
  matchers : Array Matcher := #[]
  raised : Array Raised := #[]
  /-- The table of global variables. -/
  globals : Nat := 0
  /-- The metatable of all strings. -/
  stringMeta : Option Nat := none
  /-- The function that turns values into log lines. -/
  stringifier : Value := .nil
  /-- What was printed. -/
  printed : Bytes := ByteArray.empty
  random : RandomState := ⟨1, 2, 3, 4⟩
  /-- Bytes that scripts may take; none means that there is no limit. -/
  limit : Option Nat := none
  /-- Bytes taken so far, by an estimate. -/
  taken : Nat := 0
  /-- Tables whose finalizer has yet to be called, the one marked last first. -/
  marked : List Nat := []
  deriving Inhabited

namespace Heap

/-! ## Variables -/

/-- The value of a variable. -/
def cell (h : Heap) (id : Nat) : Value := h.cells[id]?.getD .nil

/-- Change a variable. -/
def setCell (h : Heap) (id : Nat) (v : Value) : Heap :=
  { h with cells := h.cells.setIfInBounds id v }

/-- A new variable. -/
def newCell (h : Heap) (v : Value) : Nat × Heap :=
  (h.cells.size, { h with cells := h.cells.push v })

/-! ## Tables -/

/-- A table. -/
def table (h : Heap) (id : Nat) : Table := h.tables[id]?.getD {}

/-- Change a table. -/
def modifyTable (h : Heap) (id : Nat) (f : Table → Table) : Heap :=
  { h with tables := h.tables.modify id f }

/-- What an entry of a table costs, roughly. -/
def entryCost : Nat := 32

/-- A new table. -/
def newTable (h : Heap) (t : Table) : Nat × Heap :=
  (h.tables.size, { h with
    tables := h.tables.push t
    taken := h.taken + 56 + entryCost * (t.array.size + t.fields.size) })

/-- Set a field of a table without asking its metatable. -/
def rawSet (h : Heap) (id : Nat) (key v : Value) : Heap :=
  { h with
    tables := h.tables.modify id fun t => t.set key v
    taken := if v.isNil then h.taken else h.taken + entryCost }

/-- Set the entries of a list from `first` on, as constructors do: the array takes `nil` as well. -/
def setList (h : Heap) (id : Nat) (vs : List Value) (first : Nat) : Heap :=
  { h with
    tables := h.tables.modify id fun t =>
      (vs.foldl (fun (t, i) v =>
        (if i = t.array.size + 1 then t.append v else t.setInt (Int64.ofNat i) v, i + 1)) (t, first)).1
    taken := h.taken + entryCost * vs.length }

/-- A field of a table without asking its metatable. -/
def rawGet (h : Heap) (id : Nat) (key : Value) : Value := (h.table id).get key

/-- A new list. -/
def newList (h : Heap) (vs : List Value) : Nat × Heap := h.newTable { array := vs.toArray }

/-! ## Functions and errors -/

/-- A function. -/
def closure (h : Heap) (id : Nat) : Closure := h.closures[id]?.getD default

/-- A new function. -/
def newClosure (h : Heap) (c : Closure) : Nat × Heap :=
  (h.closures.size, { h with
    closures := h.closures.push c
    taken := h.taken + 40 + 8 * c.captured.size })

/-- A new error of the host. -/
def newRaised (h : Heap) (e : Raised) : Nat × Heap :=
  (h.raised.size, { h with raised := h.raised.push e })

/-- Is there room for so many bytes more? -/
def hasRoom (h : Heap) (bytes : Nat) : Bool :=
  match h.limit with
  | some limit => h.taken + bytes ≤ limit
  | none => true

/-- Note that a string was made. -/
def noteString (h : Heap) (s : Bytes) : Heap := { h with taken := h.taken + 24 + s.size }

/-! ## Metatables -/

/-- The metatable of a value that scripts can see. -/
def metatable? (h : Heap) (v : Value) : Option Nat :=
  match v with
  | .table id => (h.table id).metatable
  | .str _ => h.stringMeta
  | _ => none

/-- A field of the metatable of a value.  Objects of the host have a metatable that scripts cannot see. -/
def metafield (h : Heap) (v : Value) (name : String) : Value :=
  match v with
  | .object _ =>
    match name with
    | "__index" => .host .member
    | "__newindex" => .host .setMember
    | "__tostring" => .host .objectText
    | "__eq" => .host .sameObject
    | "__metatable" => .bool false
    | _ => .nil
  | .raised _ => if name = "__metatable" then .bool false else .nil
  | _ =>
    match h.metatable? v with
    | some id => (h.table id).getText name
    | none => .nil

/-- The finalizer of a table. -/
def finalizer (h : Heap) (id : Nat) : Value := h.metafield (.table id) "__gc"

/-- Note that a table has a finalizer to be called. -/
def mark (h : Heap) (id : Nat) : Heap :=
  if id ∈ h.marked then h else { h with marked := id :: h.marked }

/-- The finalizer of a table is called now or never. -/
def unmark (h : Heap) (id : Nat) : Heap := { h with marked := h.marked.erase id }

/-- Give a table a metatable, or take it away.  What the metatable has as a finalizer at that moment
decides whether the table is marked. -/
def setMetatable (h : Heap) (id : Nat) (metatable : Option Nat) : Heap :=
  let h := h.modifyTable id fun t => { t with metatable }
  if (h.finalizer id).isNil then h else h.mark id

/-- The name of objects of the host in messages. -/
def objectName : String := "ScriptObject"

/-- The name of the type of a value in messages: a metatable may give one. -/
def typeName (h : Heap) (v : Value) : Bytes :=
  match v with
  | .object _ => Text.bytes objectName
  | .table _ =>
    match h.metafield v "__name" with
    | .str s => s
    | _ => Text.bytes "table"
  | v => Text.bytes v.typeName

end Heap

end ScriptWarden.Lua
