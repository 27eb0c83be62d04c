import ScriptWarden.Lua.Native
set_option autoImplicit false

/-!
# Lua: operations that metatables can change

Indexing, assignment, arithmetic, concatenation, length, comparison and conversion to text.  Each works on
plain values directly and asks the metatable where plain values have no answer.
-/

namespace ScriptWarden.Lua.Access

open ScriptWarden.Lua.Native

variable {σ : Type}

/-! ## Faults -/

/-- A value of a type that an operation does not take. -/
def badType {α : Type} (v : Value) (what : String) (origin : Origin) : Native σ α := do
  let name ← heap (·.typeName v)
  failHere (Text.bytes ("attempt to " ++ what ++ " a ") ++ name ++ Text.bytes " value" ++ origin.suffix)

/-- How far a chain of metatables is followed. -/
def chainLimit : Nat := 2000

/-- The chain of metatables has no end. -/
def endless {α : Type} (event : String) : Native σ α :=
  failHere (Text.bytes ("'" ++ event ++ "' chain too long; possibly a loop"))

/-! ## Fields -/

/-- The value of a field; `fuel` bounds the chain of metatables. -/
def indexFrom (fuel : Nat) (obj key : Value) (origin : Origin) : Native σ Value :=
  match fuel with
  | 0 => endless "__index"
  | fuel + 1 => do
    match obj with
    | .table id =>
      let t ← heap (·.table id)
      let v := t.get key
      if !v.isNil then return v
      match t.metatable with
      | none => return .nil
      | some m =>
        let handler ← heap fun h => (h.table m).getText "__index"
        if handler.isNil then return .nil
        else if handler.isFunction then call1 handler [obj, key]
        else indexFrom fuel handler key .unknown
    | _ =>
      let handler ← heap (·.metafield obj "__index")
      if handler.isNil then badType obj "index" origin
      else if handler.isFunction then call1 handler [obj, key]
      else indexFrom fuel handler key .unknown

/-- The value of a field. -/
def index (obj key : Value) (origin : Origin) : Native σ Value := indexFrom chainLimit obj key origin

/-- Can a value be the key of a new field? -/
def checkKey (key : Value) : Native σ Unit :=
  match key with
  | .nil => failHere (Text.bytes "table index is nil")
  | .float x => if x.isNaN then failHere (Text.bytes "table index is NaN") else return
  | _ => return

/-- Set a field; `fuel` bounds the chain of metatables. -/
def storeFrom (fuel : Nat) (obj key v : Value) (origin : Origin) : Native σ Unit :=
  match fuel with
  | 0 => endless "__newindex"
  | fuel + 1 => do
    match obj with
    | .table id =>
      let handler ← heap fun h =>
        let t := h.table id
        match t.metatable with
        | none => Value.nil
        | some m => if (t.get key).isNil then (h.table m).getText "__newindex" else .nil
      if handler.isNil then
        checkKey key
        modifyHeap (·.rawSet id key v)
      else if handler.isFunction then
        let _ ← call handler [obj, key, v]
      else storeFrom fuel handler key v .unknown
    | _ =>
      let handler ← heap (·.metafield obj "__newindex")
      if handler.isNil then badType obj "index" origin
      else if handler.isFunction then
        let _ ← call handler [obj, key, v]
      else storeFrom fuel handler key v .unknown

/-- Set a field. -/
def store (obj key v : Value) (origin : Origin) : Native σ Unit :=
  storeFrom chainLimit obj key v origin

/-! ## Arithmetic -/

/-- The handler of an operation in the metatable of the first operand, or else of the second. -/
def handler2 (a b : Value) (event : String) : Native σ Value := do
  let f ← heap (·.metafield a event)
  if f.isNil then heap (·.metafield b event) else return f

/-- The text of a fault of arithmetic. -/
def arithFaultText : ArithFault → String
  | .divideByZero => "attempt to perform 'n//0'"
  | .moduloByZero => "attempt to perform 'n%0'"
  | .noInteger => "number has no integer representation"

/-- Operands that an operation on bits takes: numbers, and strings that spell integers. -/
def bitOperand? (v : Value) : Option Number := v.toInteger?.map .int

/-- Arithmetic on plain values; none asks the metatables. -/
def plainArith? (op : Arith) (a b : Value) : Option (Except ArithFault Number) :=
  if op.isBitwise then
    match bitOperand? a, bitOperand? b with
    | some m, some n => some (Lua.arith op m n)
    | _, _ => none
  else
    match a.number?, b.number? with
    | some m, some n => some (Lua.arith op m n)
    | _, _ => none

/-- The first of two operands that is no number, as far as there is one. -/
def wrongOperand (a b : Value) (oa ob : Origin) : Value × Origin :=
  if a.number?.isNone then (a, oa) else (b, ob)

/-- Arithmetic that no metatable answers. -/
def badArith {α : Type} (op : Arith) (a b : Value) (oa ob : Origin) : Native σ α :=
  if op.isBitwise then
    if a.number?.isSome && b.number?.isSome then
      let origin := if a.toInteger?.isNone then oa else ob
      failHere (Text.bytes "number" ++ origin.suffix ++ Text.bytes " has no integer representation")
    else
      let (v, origin) := wrongOperand a b oa ob
      badType v "perform bitwise operation on" origin
  else
    let (v, origin) := wrongOperand a b oa ob
    badType v "perform arithmetic on" origin

/-- An operation on two values; those with one operand get it twice. -/
def arith (op : Arith) (a b : Value) (oa ob : Origin) : Native σ Value :=
  match plainArith? op a b with
  | some (.ok n) => return n.toValue
  | some (.error e) => failHere (Text.bytes (arithFaultText e))
  | none => do
    let f ← handler2 a b ("__" ++ op.event)
    if f.isNil then badArith op a b oa ob else call1 f [a, b]

/-! ## Strings -/

/-- Two values as one string. -/
def concat (a b : Value) (oa ob : Origin) : Native σ Value :=
  match a.toBytes?, b.toBytes? with
  | some s, some t => makeString (s.size + t.size) fun _ => s ++ t
  | _, _ => do
    let f ← handler2 a b "__concat"
    if f.isNil then
      if a.toBytes?.isSome then badType b "concatenate" ob else badType a "concatenate" oa
    else call1 f [a, b]

/-- The length of a value. -/
def len (v : Value) (origin : Origin) : Native σ Value := do
  match v with
  | .str s => return .nat s.size
  | _ =>
    let f ← heap (·.metafield v "__len")
    if !f.isNil then call1 f [v]
    else
      match v with
      | .table id => heap fun h => .nat (h.table id).border
      | _ => badType v "get length of" origin

/-- The number that stands for something without a text, in sixteen digits. -/
def placeText (kind : Bytes) (base id : Nat) : Bytes :=
  kind ++ Text.bytes ": 0x"
    ++ Text.bytes (String.ofList (Decimal.padLeft 14 (Nat.toDigits 16 (base + 64 * id))))

/-- The text of an error of the host, with the place it was raised at. -/
def raisedText (e : Raised) : Bytes :=
  e.message ++ Text.bytes "\nstack traceback:\n\t" ++ e.origin ++ Text.bytes ": in ?"

/-- The text of a value that no metatable gives one. -/
def plainText (h : Heap) (v : Value) : Bytes :=
  match v with
  | .nil => Text.bytes "nil"
  | .bool b => Text.bytes (if b then "true" else "false")
  | .str s => s
  | .int _ | .float _ => v.toBytes?.getD ByteArray.empty
  | .table id => placeText (h.typeName v) 0x100000 id
  | .closure id => placeText (Text.bytes "function") 0x200000 id
  | .builtin f => placeText (Text.bytes "function") 0x300000 (Key.builtinNumber f).toNat
  | .matcher id => placeText (Text.bytes "function") 0x400000 id
  | .host _ => placeText (Text.bytes "function") 0x500000 0
  | .object id => placeText (h.typeName v) 0x600000 id
  | .raised id => raisedText (h.raised[id]?.getD default)

/-- The text of a value. -/
def text (v : Value) : Native σ Bytes := do
  let f ← heap (·.metafield v "__tostring")
  if f.isNil then heap (plainText · v)
  else
    match (← call1 f [v]).toBytes? with
    | some s => return s
    | none => failText "'__tostring' must return a string"

/-! ## Comparison -/

/-- Are two values equal? -/
def equal (a b : Value) : Native σ Bool := do
  if a.rawEqual b then return true
  let comparable :=
    match a, b with
    | .table _, .table _ | .object _, .object _ | .object _, .raised _ | .raised _, .object _ => true
    | _, _ => false
  if !comparable then return false
  let f ← handler2 a b "__eq"
  if f.isNil then return false
  return (← call1 f [a, b]).truthy

/-- Values that have no order. -/
def badOrder {α : Type} (a b : Value) : Native σ α := do
  let s ← heap (·.typeName a)
  let t ← heap (·.typeName b)
  if s == t then failHere (Text.bytes "attempt to compare two " ++ s ++ Text.bytes " values")
  else failHere (Text.bytes "attempt to compare " ++ s ++ Text.bytes " with " ++ t)

/-- Is a value less than another, or at most the other? -/
def ordered (orEqual : Bool) (a b : Value) : Native σ Bool := do
  match a.number?, b.number? with
  | some m, some n => return if orEqual then m.le n else m.lt n
  | _, _ =>
    match a, b with
    | .str s, .str t =>
      return match Text.compareBytes s t with
        | .lt => true
        | .eq => orEqual
        | .gt => false
    | _, _ =>
      let f ← handler2 a b (if orEqual then "__le" else "__lt")
      if f.isNil then badOrder a b else return (← call1 f [a, b]).truthy

/-- A comparison. -/
def compare (op : Comparison) (a b : Value) : Native σ Bool :=
  match op with
  | .eq => equal a b
  | .ne => return !(← equal a b)
  | .lt => ordered false a b
  | .le => ordered true a b
  | .gt => ordered false b a
  | .ge => ordered true b a

end ScriptWarden.Lua.Access
