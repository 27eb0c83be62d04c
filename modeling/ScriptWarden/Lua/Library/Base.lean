import ScriptWarden.Lua.Compiler
import ScriptWarden.Lua.Library.Arguments
import ScriptWarden.Lua.Parser
set_option autoImplicit false

/-!
# Lua: base functions
-/

namespace ScriptWarden.Lua.Library

open ScriptWarden.Lua.Native

variable {σ : Type}

/-! ## Errors -/

/-- Raise a value; a string gets the place of a level in front. -/
def raiseAt {α : Type} (v : Value) (level : Int64) : Native σ α :=
  match v with
  | .str s => if 0 < level.toInt then fail (.above level.toInt.toNat s) else fail (.value v)
  | v => fail (.value v)

/-- Stop unless a condition holds. -/
def assertTrue (args : List Value) : Native σ (List Value) := do
  let v ← anyArg args 1
  if v.truthy then return args
  else raiseAt ((arg? args 2).getD (.text "assertion failed!")) 1

/-- Raise an error. -/
def raiseError (args : List Value) : Native σ (List Value) := do
  let level ← optInt args 2 1
  raiseAt (arg args 1) level

/-- Call a function; an error becomes a result. -/
def protectedCall (args : List Value) : Native σ (List Value) := do
  let f ← anyArg args 1
  match ← guarded f args.tail none with
  | .values vs => return .bool true :: vs
  | .raised t => return [.bool false, t.value]

/-- Call a function; an error becomes a result after a handler has seen it. -/
def handledCall (args : List Value) : Native σ (List Value) := do
  let handler ← functionArg args 2
  match ← guarded (arg args 1) (args.drop 2) (some handler) with
  | .values vs => return .bool true :: vs
  | .raised t => return [.bool false, t.value]

/-! ## Metatables -/

/-- The metatable of a value, or what it shows instead. -/
def getMetatable (args : List Value) : Native σ (List Value) := do
  let v ← anyArg args 1
  let shown ← heap (·.metafield v "__metatable")
  if !shown.isNil then return [shown]
  match ← heap (·.metatable? v) with
  | some id => return [.table id]
  | none => return [.nil]

/-- Change the metatable of a table. -/
def setMetatable (args : List Value) : Native σ (List Value) := do
  let id ← tableArg args 1
  let meta? ← match arg? args 2 with
    | some .nil => pure none
    | some (.table m) => pure (some m)
    | _ => wrongType args 2 "nil or table"
  let locked ← heap (·.metafield (.table id) "__metatable")
  if !locked.isNil then failText "cannot change a protected metatable"
  modifyHeap (·.setMetatable id meta?)
  return [.table id]

/-! ## Tables -/

/-- The pair behind a key. -/
def nextPair (args : List Value) : Native σ (List Value) := do
  let id ← tableArg args 1
  match ← heap fun h => (h.table id).next (arg args 2) with
  | some (some (k, v)) => return [k, v]
  | some none => return [.nil]
  | none => failHere (Text.bytes "invalid key to 'next'")

/-- Begin a walk over a table. -/
def beginPairs (args : List Value) : Native σ (List Value) := do
  let v ← anyArg args 1
  let handler ← heap (·.metafield v "__pairs")
  if handler.isNil then return [.builtin .next, v, .nil]
  let vs ← call handler [v]
  return [vs[0]?.getD .nil, vs[1]?.getD .nil, vs[2]?.getD .nil]

/-- Begin a walk over a list. -/
def beginList (args : List Value) : Native σ (List Value) := do
  let v ← anyArg args 1
  return [.builtin .ipairsStep, v, .int 0]

/-- A step of a walk over a list. -/
def listStep (args : List Value) : Native σ (List Value) := do
  let i := (← intArg args 2) + 1
  let v ← Access.index (arg args 1) (.int i) .unknown
  return if v.isNil then [.nil] else [.int i, v]

/-- Are two values the same, whatever their metatables say? -/
def sameValue (args : List Value) : Native σ (List Value) := do
  let a ← anyArg args 1
  let b ← anyArg args 2
  return [.bool (a.rawEqual b)]

/-- The length of a table or a string, whatever its metatable says. -/
def rawLength (args : List Value) : Native σ (List Value) :=
  match arg args 1 with
  | .table id => do return [.nat (← heap fun h => (h.table id).border)]
  | .str s => return [.nat s.size]
  | _ => wrongType args 1 "table or string"

/-- A field of a table, whatever its metatable says. -/
def getRaw (args : List Value) : Native σ (List Value) := do
  let id ← tableArg args 1
  let k ← anyArg args 2
  return [← heap (·.rawGet id k)]

/-- Set a field of a table, whatever its metatable says. -/
def setRaw (args : List Value) : Native σ (List Value) := do
  let id ← tableArg args 1
  let k ← anyArg args 2
  let v ← anyArg args 3
  Access.checkKey k
  modifyHeap (·.rawSet id k v)
  return [.table id]

/-- Arguments from a place on, or their number. -/
def selectArgs (args : List Value) : Native σ (List Value) := do
  let rest := args.tail
  match arg args 1 with
  | .str s => if s == Text.bytes "#" then return [.nat rest.length]
  | _ => pure ()
  let n := (← intArg args 1).toInt
  let count : Int := rest.length
  if n < 0 then
    require (0 ≤ count + n) 1 "index out of range"
    return rest.drop (count + n).toNat
  else
    require (1 ≤ n) 1 "index out of range"
    return rest.drop (n.toNat - 1)

/-! ## Text and numbers -/

/-- Print values, with tabs between them and a line feed behind. -/
def printAll (args : List Value) (first : Bool) : Native σ (List Value) := do
  match args with
  | [] =>
    write "\n"
    return []
  | v :: rest =>
    if !first then write "\t"
    let s ← Access.text v
    modifyHeap fun h => { h with printed := h.printed ++ s }
    printAll rest false
where
  /-- Print a text. -/
  write (s : String) : Native σ Unit :=
    modifyHeap fun h => { h with printed := h.printed ++ Text.bytes s }

/-- The text of a value. -/
def toText (args : List Value) : Native σ (List Value) := do
  let v ← anyArg args 1
  return [← newString (← Access.text v)]

/-- The name of the type of a value. -/
def typeOf (args : List Value) : Native σ (List Value) := do
  let v ← anyArg args 1
  return [.text v.typeName]

/-- Read digits of a base up to thirty-six; anything else is no digit. -/
def digitsOf (base : Nat) (ds : List UInt8) (value : Nat) : Option (Nat × List UInt8) :=
  match ds with
  | [] => some (value, [])
  | b :: rest =>
    let digit? : Option Nat :=
      if 0x30 ≤ b ∧ b ≤ 0x39 then some (b.toNat - 0x30)
      else if 0x41 ≤ b ∧ b ≤ 0x5A then some (b.toNat - 0x41 + 10)
      else if 0x61 ≤ b ∧ b ≤ 0x7A then some (b.toNat - 0x61 + 10)
      else none
    match digit? with
    | some d => if d < base then digitsOf base rest (value * base + d) else none
    | none => if isSpace b then some (value, b :: rest) else none

/-- The integer that a string spells in a base. -/
def intInBase? (base : Nat) (s : Bytes) : Option Int64 := do
  let input := s.toList.dropWhile isSpace
  let (negative, input) :=
    match input with
    | 0x2D :: rest => (true, rest)
    | 0x2B :: rest => (false, rest)
    | input => (false, input)
  let first ← input.head?
  if isSpace first then none
  else
    let (n, rest) ← digitsOf base input 0
    if rest.all isSpace then
      let n := Int64.ofNat n
      return if negative then -n else n
    else none

/-- The number that a value spells. -/
def toNumber (args : List Value) : Native σ (List Value) := do
  if isAbsent args 2 then
    let v ← anyArg args 1
    return [(v.toNumber?.map Number.toValue).getD .nil]
  else
    match arg args 1 with
    | .str s =>
      let base := (← intArg args 2).toInt
      require (2 ≤ base ∧ base ≤ 36) 2 "base out of range"
      return [((intInBase? base.toNat s).map Value.int).getD .nil]
    | _ =>
      let _ ← intArg args 2
      wrongType args 1 "string"

/-! ## Chunks -/

/-- The beginning of compiled code. -/
def isBinary (source : Bytes) : Bool := source.size ≠ 0 ∧ source[0]! = 0x1B

/-- How compiled code is named. -/
def binaryName (chunk : Bytes) : Bytes :=
  match (chunk[0]? : Option UInt8) with
  | some 0x3D | some 0x40 => chunk.extract 1 chunk.size
  | some 0x1B => Text.bytes "binary string"
  | _ => chunk

/-- Load a chunk: a function, or what is wrong with the source. -/
def loadSource (chunk source : Bytes) (env : Option Value) (h : Heap) :
    Except Bytes Value × Heap :=
  if isBinary source then
    (.error (binaryName chunk ++ Text.bytes ": bad binary format (truncated chunk)"), h)
  else
    match Parser.parse chunk source with
    | .error e => (.error (withPosition (chunkId chunk) e.line e.message), h)
    | .ok program =>
      let image := Compiler.compile program
      match image.protos.back? with
      | none => (.error ByteArray.empty, h)
      | some proto =>
        let (cell, h) := h.newCell (env.getD (.table h.globals))
        let (id, h) := h.newClosure ⟨image, proto, proto.captures.map fun _ => cell⟩
        (.ok (.closure id), h)

/-- The largest number of pieces that a chunk can come in. -/
def pieceLimit : Nat := 1000000

/-- Read the pieces of a chunk from a function. -/
def readPieces (reader : Value) (fuel : Nat) (got : Bytes) : Native σ (Except Bytes Bytes) :=
  match fuel with
  | 0 => return .ok got
  | fuel + 1 => do
    match ← call1 reader [] with
    | .nil => return .ok got
    | v =>
      match v.toBytes? with
      | none => return .error (Text.bytes "reader function must return a string")
      | some s => if s.size = 0 then return .ok got else readPieces reader fuel (got ++ s)

/-- Does a mode allow a kind of chunk? -/
def allowsMode (mode : Bytes) (source : Bytes) : Bool :=
  mode.toList.contains (if isBinary source then 0x62 else 0x74)

/-- Make a function of a chunk. -/
def loadChunk (args : List Value) : Native σ (List Value) := do
  let v := arg args 1
  let mode ← optStr args 3 (Text.bytes "bt")
  let refused := fun (message : Bytes) => [Value.nil, .str message]
  let finish (chunk source : Bytes) : Native σ (List Value) := do
    if !allowsMode mode source then
      let kind := if isBinary source then "binary" else "text"
      return refused (Text.bytes ("attempt to load a " ++ kind ++ " chunk (mode is '") ++ mode
        ++ Text.bytes "')")
    match ← create (loadSource chunk source (arg? args 4)) with
    | .ok f => return [f]
    | .error message => return refused message
  match v.toBytes? with
  | some s => finish (← optStr args 2 s) s
  | none =>
    let chunk ← optStr args 2 (Text.bytes "=(load)")
    let reader ← functionArg args 1
    match ← readPieces reader pieceLimit ByteArray.empty with
    | .ok source => finish chunk source
    | .error message => return refused message

/-- There are no files. -/
def noFile (args : List Value) : Native σ Bytes := do
  let name ← optStr args 1 (Text.bytes "stdin")
  return Text.bytes "cannot open " ++ name

/-! ## Housekeeping -/

/-- Requests to the collector of garbage. -/
def collectOptions : List String :=
  ["stop", "restart", "collect", "count", "step", "setpause", "setstepmul", "isrunning",
    "generational", "incremental"]

/-- Ask the collector of garbage. -/
def collect (args : List Value) : Native σ (List Value) := do
  let option ← optStr args 1 (Text.bytes "collect")
  match collectOptions.find? fun o => Text.bytes o == option with
  | none =>
    fail (.argument 1 (Text.bytes "invalid option '" ++ option ++ Text.bytes "'"))
  | some "count" => heap fun h => [.float (h.taken.toFloat / 1024)]
  | some "step" | some "isrunning" => return [.bool true]
  | some "generational" | some "incremental" => return [.text "incremental"]
  | some "setpause" => return [.int 200]
  | some "setstepmul" => return [.int 100]
  | some _ => return [.int 0]

/-- Warnings are not shown, but their arguments are checked. -/
def warn (args : List Value) : Native σ (List Value) := do
  let _ ← strArg args 1
  let _ ← (List.range args.length).mapM fun i => strArg (σ := σ) args (i + 1)
  return []

/-- Base functions. -/
def base (f : Builtin) (args : List Value) : Native σ (List Value) :=
  match f with
  | .assert => assertTrue args
  | .collectgarbage => collect args
  | .dofile => do fail (.above 0 (← noFile args))
  | .error => raiseError args
  | .getmetatable => getMetatable args
  | .ipairs => beginList args
  | .ipairsStep => listStep args
  | .load => loadChunk args
  | .loadfile => do return [.nil, .str (← noFile args)]
  | .next => nextPair args
  | .pairs => beginPairs args
  | .pcall => protectedCall args
  | .print => printAll args true
  | .rawequal => sameValue args
  | .rawget => getRaw args
  | .rawlen => rawLength args
  | .rawset => setRaw args
  | .select => selectArgs args
  | .setmetatable => setMetatable args
  | .tonumber => toNumber args
  | .tostring => toText args
  | .type => typeOf args
  | .warn => warn args
  | .xpcall => handledCall args
  | _ => return []

end ScriptWarden.Lua.Library
