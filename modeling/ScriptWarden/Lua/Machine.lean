import ScriptWarden.Lua.Access
import ScriptWarden.Lua.Library.Names
import ScriptWarden.Lua.Reach
set_option autoImplicit false

/-!
# Lua: the machine

The state of a running script is a stack of activations and what to do next.  An activation is a script
function, or a native function that waits for a call it asked for.  One step does one thing; runs are
steps under fuel.
-/

namespace ScriptWarden.Lua

/-! ## Activations -/

/-- A script function that runs. -/
structure Frame where
  closure : Closure
  /-- The next instruction. -/
  pc : Nat := 0
  /-- The variable in each slot. -/
  slots : Array Nat
  stack : List Value := []
  /-- Values of a call or of `...` that wait for the next instruction. -/
  waiting : List Value := []
  /-- Arguments beyond the parameters. -/
  extra : List Value := []
  /-- How many values the running call is to give. -/
  want : Want := .exactly 0
  /-- Slots with a variable to be closed, the latest first. -/
  toClose : List Nat := []
  deriving Inhabited

namespace Frame

/-- The line of the instruction that runs. -/
def line (f : Frame) : Nat := f.closure.proto.lines[f.pc - 1]?.getD 0

/-- The place that runs, as positions name it. -/
def place (f : Frame) : Bytes :=
  f.closure.image.shownName ++ Text.bytes (":" ++ toString f.line)

/-- The instruction that runs. -/
def current (f : Frame) : Instr := f.closure.proto.code[f.pc - 1]?.getD default

/-- Push a value. -/
def push (f : Frame) (v : Value) : Frame := { f with stack := v :: f.stack }

/-- Exactly `n` of some values. -/
def exactly (n : Nat) (vs : List Value) : List Value :=
  match n, vs with
  | 0, _ => []
  | n + 1, v :: vs => v :: exactly n vs
  | n + 1, [] => .nil :: exactly n []

/-- Take the values of a call. -/
def take (f : Frame) (vs : List Value) : Frame :=
  match f.want with
  | .all => { f with waiting := vs }
  | .exactly 0 => f
  | .exactly 1 => f.push (vs.headD .nil)
  | .exactly n => { f with stack := (exactly n vs).foldl (fun st v => v :: st) f.stack }

/-- The variable in a slot. -/
def cellOf (f : Frame) (slot : Nat) : Nat := f.slots[slot]?.getD 0

/-- Room that the frame takes on the stack of the machine. -/
def size (f : Frame) : Nat := f.closure.proto.slots + 4

end Frame

/-- Who runs outside scripts. -/
inductive Runner where
  /-- An operation of the script on top of the stack. -/
  | operation
  | function (f : Value)
  /-- The collector, which calls finalizers. -/
  | collector
  deriving Inhabited

/-- A native function that waits for a call. -/
structure Pending (σ : Type) where
  runner : Runner
  /-- Errors of the call come back as answers, after a handler has seen them. -/
  guarded : Bool := false
  handler : Option Value := none
  resume : Answer → World σ → Outcome σ (List Value)

/-- An activation. -/
inductive Activation (σ : Type) where
  | script (f : Frame)
  | native (p : Pending σ)

/-! ## The state -/

/-- What to do next. -/
inductive Control (σ : Type) where
  /-- Run the script on top of the stack. -/
  | execute (w : World σ)
  | call (f : Value) (args : List Value) (w : World σ)
  /-- Give values to the activation on top of the stack. -/
  | give (vs : List Value) (w : World σ)
  /-- Look at what a native function does next. -/
  | look (runner : Runner) (o : Outcome σ (List Value))
  | throw (t : Thrown) (w : World σ)
  /-- Nothing is left to do. -/
  | finished (answer : Answer) (w : World σ)

/-- Activations, the running one first, and what they amount to. -/
structure Stack (σ : Type) where
  top : List (Activation σ) := []
  /-- Room that the frames take. -/
  depth : Nat := 0
  frames : Nat := 0
  natives : Nat := 0

/-- A running script. -/
structure Machine (σ : Type) where
  control : Control σ
  stack : Stack σ

/-- Which table with a finalizer is let go at a moment, if any: a choice that is left open. -/
abbrev Collector := Heap → Option Nat

/-- What native functions do, and what the collector lets go. -/
structure Natives (σ : Type) where
  call : Value → List Value → Native σ (List Value)
  collector : Collector := fun _ => none

instance {σ : Type} : CoeFun (Natives σ) fun _ => Value → List Value → Native σ (List Value) :=
  ⟨Natives.call⟩

namespace Machine

variable {σ : Type}

/-! ## Places and names for messages -/

/-- Operations belong to the script that runs them, and the collector to the one that it interrupts. -/
def isFunction : Activation σ → Bool
  | .native { runner := .operation, .. } | .native { runner := .collector, .. } => false
  | _ => true

/-- The place of a function as the beginning of a message; native functions have none. -/
def lead : Option (Activation σ) → Bytes
  | some (.script f) => f.place ++ Text.bytes ": "
  | _ => ByteArray.empty

/-- The place of the caller of a level, counted from zero. -/
def placeAt (stack : List (Activation σ)) (level : Nat) : Bytes :=
  lead (stack.filter isFunction)[level]?

/-- What the operation that an instruction does is called. -/
def operationName : Instr → Option String
  | .index .. | .method .. => some "index"
  | .store .. => some "newindex"
  | .arith op .. => some op.event
  | .concat .. => some "concat"
  | .compare op .. =>
    match op with
    | .eq | .ne => some "eq"
    | .lt | .gt => some "lt"
    | .le | .ge => some "le"
  | .len .. => some "len"
  | .close .. | .return .. => some "close"
  | _ => none

/-- What the top of the stack calls the function that it called: the kind and the name. -/
def calledAs (stack : List (Activation σ)) : Option (String × Bytes) :=
  match stack with
  | .script f :: _ =>
    match f.current with
    | .call _ _ _ origin | .tailCall _ _ origin => origin.parts?
    | .genericCall .. => some ("for iterator", Text.bytes "for iterator")
    | _ => none
  | .native { runner := .operation, .. } :: .script f :: _ =>
    (operationName f.current).map fun n => ("metamethod", Text.bytes n)
  | .native { runner := .collector, .. } :: _ => some ("metamethod", Text.bytes "__gc")
  | _ => none

/-- The text that refuses an argument. -/
def argumentText (runner : Runner) (stack : List (Activation σ)) (index : Nat) (message : Bytes) :
    Bytes :=
  let bad := fun (n : Nat) (name : Bytes) =>
    Text.bytes ("bad argument #" ++ toString n ++ " to '") ++ name ++ Text.bytes "' (" ++ message
      ++ Text.bytes ")"
  match calledAs stack with
  | some ("method", name) =>
    if index ≤ 1 then
      Text.bytes "calling '" ++ name ++ Text.bytes "' on bad self (" ++ message ++ Text.bytes ")"
    else bad (index - 1) name
  | some (_, name) => bad index name
  | none =>
    match runner with
    | .function (.builtin f) => bad index (Text.bytes ((Library.name? f).getD "?"))
    | _ => bad index (Text.bytes "?")

/-- The message of a machine without room. -/
def memoryText : String := "not enough memory"

/-- There is no room left. -/
def outOfMemory : Thrown := { value := .text memoryText, outOfMemory := true }

/-- What a fault throws. -/
def thrown (runner : Runner) (stack : List (Activation σ)) : Fault → Thrown
  | .value v => { value := v }
  | .here message =>
    match runner with
    | .operation => { value := .str (placeAt stack 0 ++ message) }
    | .function _ | .collector => { value := .str message }
  | .above level message =>
    { value := .str ((if level = 0 then ByteArray.empty else placeAt stack (level - 1)) ++ message) }
  | .argument index message =>
    { value := .str (placeAt stack 0 ++ argumentText runner stack index message) }
  | .memory => outOfMemory
  | .rethrow t => t

/-! ## Operands and variables -/

/-- Read an operand. -/
@[inline] def read (f : Frame) (h : Heap) (a : Operand) : Value × Frame :=
  match a with
  | .const v => (v, f)
  | .slot i => (h.cell (f.cellOf i), f)
  | .captured i => (h.cell (f.closure.captured[i]?.getD 0), f)
  | .top =>
    match f.stack with
    | v :: rest => (v, { f with stack := rest })
    | [] => (.nil, f)

/-- Read two operands, of which the second is above the first on the stack. -/
@[inline] def read2 (f : Frame) (h : Heap) (a b : Operand) : Value × Value × Frame :=
  let (y, f) := read f h b
  let (x, f) := read f h a
  (x, y, f)

/-- Take the top of the stack. -/
@[inline] def pop (f : Frame) : Value × Frame :=
  match f.stack with
  | v :: rest => (v, { f with stack := rest })
  | [] => (.nil, f)

/-- Change the heap of a world. -/
@[inline] def withHeap (w : World σ) (f : Heap → Heap) : World σ :=
  let ⟨h, host, meter⟩ := w
  ⟨f h, host, meter⟩

/-- A new variable in a slot. -/
@[inline] def declare (f : Frame) (w : World σ) (slot : Nat) (v : Value) : Frame × World σ :=
  let ⟨h, host, meter⟩ := w
  let (id, h) := h.newCell v
  ({ f with slots := f.slots.setIfInBounds slot id }, ⟨h, host, meter⟩)

/-- New variables in slots from `slot` on. -/
def declareAll (f : Frame) (w : World σ) (slot : Nat) : List Value → Frame × World σ
  | [] => (f, w)
  | v :: vs =>
    let (f, w) := declare f w slot v
    declareAll f w (slot + 1) vs

/-- The variable at a place. -/
def cellAt (f : Frame) : Place → Nat
  | .slot i => f.cellOf i
  | .captured i => f.closure.captured[i]?.getD 0

/-- The last values of a stack in order, the waiting ones behind them, and the stack below. -/
def gather (f : Frame) (count : Nat) (isOpen : Bool) : List Value × Frame :=
  let vs := (f.stack.take count).foldl (fun vs v => v :: vs) (if isOpen then f.waiting else [])
  (vs, { f with stack := f.stack.drop count, waiting := if isOpen then [] else f.waiting })

/-! ## Instructions -/

/-- What an instruction leads to. -/
inductive Effect (σ : Type) where
  | next (f : Frame) (w : World σ)
  /-- An operation gives its values to the frame. -/
  | operate (f : Frame) (o : Outcome σ (List Value))
  | enter (f : Frame) (callee : Value) (args : List Value) (w : World σ)
  | replace (f : Frame) (callee : Value) (args : List Value) (w : World σ)
  | leave (f : Frame) (vs : List Value) (w : World σ)

/-- Run an operation that gives one value. -/
@[inline] def operate1 (f : Frame) (w : World σ) (n : Native Unit Value) : Effect σ :=
  match n.lift w with
  | .done v w => .next (f.push v) w
  | .fail e w => .operate f (.fail e w)
  | .ask q resume w =>
    .operate { f with want := .exactly 1 }
      (.ask q (fun a w => (resume a w).bind fun v w => .done [v] w) w)

/-- Run an operation that gives a truth value. -/
@[inline] def operateBool (f : Frame) (w : World σ) (n : Native Unit Bool) : Effect σ :=
  operate1 f w do return .bool (← n)

/-- Run an operation that gives nothing. -/
@[inline] def operate0 (f : Frame) (w : World σ) (n : Native Unit Unit) : Effect σ :=
  match n.lift w with
  | .done () w => .next f w
  | .fail e w => .operate f (.fail e w)
  | .ask q resume w =>
    .operate { f with want := .exactly 0 }
      (.ask q (fun a w => (resume a w).bind fun _ w => .done [] w) w)

/-- Stop with a text behind the place of the script. -/
def failure (f : Frame) (w : World σ) (message : Bytes) : Effect σ :=
  .operate f (.fail (.here message) w)

/-- Close a variable: its value and the error, if one ends its block. -/
def closeValue (v error : Value) : Native Unit Unit := do
  let handler ← Native.heap (·.metafield v "__close")
  let _ ← Native.call handler [v, error]

/-- Close values after results are known; errors do not keep the others from being closed. -/
def closeAll (vs : List Value) (error : Option Thrown) (results : List Value) :
    Native Unit (List Value) :=
  match vs with
  | [] =>
    match error with
    | some t => Native.fail (.rethrow t)
    | none => return results
  | v :: rest => do
    let handler ← Native.heap (·.metafield v "__close")
    let cause := (error.map (·.value)).getD .nil
    match ← Native.guarded handler [v, cause] none with
    | .values _ => closeAll rest error results
    | .raised t => closeAll rest (some t) results

/-- A number of a loop, or the text of the fault. -/
def loopNumber (h : Heap) (v : Value) (what : String) : Except Bytes Number :=
  match v.toNumber? with
  | some n => .ok n
  | none =>
    .error (Text.bytes ("bad 'for' " ++ what ++ " (number expected, got ") ++ h.typeName v
      ++ Text.bytes ")")

/-- The state of a loop over numbers: the counter of integers counts the turns that are left. -/
inductive Loop where
  | skip
  | integers (start step : Int64) (turns : Nat)
  | floats (start limit step : Float)

/-- The number of further turns of a loop over integers; `none` if it does not run at all. -/
def turns? (start limit step : Int) : Option Nat :=
  if 0 < step then
    if start ≤ limit then some ((limit - start) / step).toNat else none
  else if limit ≤ start then some ((start - limit) / (-step)).toNat
  else none

/-- The limit of a loop over integers. -/
def integerLimit (step : Int64) : Number → Option Int
  | .int n => some n.toInt
  | .float x =>
    let rounded := if 0 < step.toInt then floorInt? x else ceilInt? x
    match rounded with
    | some n => some n.toInt
    | none =>
      if 0 < x then (if step.toInt < 0 then none else some Int64.maxValue.toInt)
      else if 0 < step.toInt then none
      else some Int64.minValue.toInt

/-- Begin a loop over numbers. -/
def beginLoop (h : Heap) (start limit step : Value) : Except Bytes Loop := do
  let zero : Bytes := Text.bytes "'for' step is zero"
  match start, step with
  | .int a, .int s =>
    if s == 0 then throw zero
    let l ← loopNumber h limit "limit"
    match (integerLimit s l).bind fun l => turns? a.toInt l s.toInt with
    | some n => return .integers a s n
    | none => return .skip
  | _, _ =>
    let l := (← loopNumber h limit "limit").toFloat
    let s := (← loopNumber h step "step").toFloat
    let a := (← loopNumber h start "initial value").toFloat
    if s == 0 then throw zero
    if (if 0 < s then l < a else a < l) then return .skip
    return .floats a l s

/-- The captured variables of a new function. -/
def captures (f : Frame) (ps : Array Place) : Array Nat := ps.map (cellAt f)

/-- The latest slot to be closed, if it is `slot` or a later one, and the others. -/
def splitClosing (slot : Nat) (slots : List Nat) : Option (Nat × List Nat) :=
  match slots with
  | s :: rest => if slot ≤ s then some (s, rest) else none
  | [] => none

/-- Do an instruction; the frame already points to the next one. -/
def instruct (f : Frame) (w : World σ) (i : Instr) : Effect σ :=
  match i with
  | .push a =>
    let (v, f) := read f w.heap a
    .next (f.push v) w
  | .pop n => .next { f with stack := f.stack.drop n } w
  | .declare slot =>
    let (v, f) := pop f
    let (f, w) := declare f w slot v
    .next f w
  | .assign place =>
    let (v, f) := pop f
    .next f (withHeap w (·.setCell (cellAt f place) v))
  | .index obj key origin =>
    let (o, k, f) := read2 f w.heap obj key
    operate1 f w (Access.index o k origin)
  | .store obj key value origin =>
    let (v, f) := read f w.heap value
    let (o, k, f) := read2 f w.heap obj key
    operate0 f w (Access.store o k v origin)
  | .arith op a b oa ob =>
    if op = .unm ∨ op = .bnot then
      let (x, f) := read f w.heap a
      operate1 f w (Access.arith op x x oa oa)
    else
      let (x, y, f) := read2 f w.heap a b
      operate1 f w (Access.arith op x y oa ob)
  | .concat oa ob =>
    let (x, y, f) := read2 f w.heap .top .top
    operate1 f w (Access.concat x y oa ob)
  | .compare op a b =>
    let (x, y, f) := read2 f w.heap a b
    operateBool f w (Access.compare op x y)
  | .not a =>
    let (v, f) := read f w.heap a
    .next (f.push (.bool !v.truthy)) w
  | .len a origin =>
    let (v, f) := read f w.heap a
    operate1 f w (Access.len v origin)
  | .jump target => .next { f with pc := target } w
  | .branch a sense target =>
    let (v, f) := read f w.heap a
    .next (if v.truthy = sense then { f with pc := target } else f) w
  | .keepOr sense target =>
    match f.stack with
    | v :: rest =>
      .next (if v.truthy = sense then { f with pc := target } else { f with stack := rest }) w
    | [] => .next f w
  | .call args isOpen want _ =>
    let (vs, f) := gather f args isOpen
    let (callee, f) := pop f
    .enter { f with want } callee vs w
  | .tailCall args isOpen _ =>
    let (vs, f) := gather f args isOpen
    let (callee, f) := pop f
    .replace f callee vs w
  | .method obj name origin =>
    let (o, f) := read f w.heap obj
    match (Access.index o (.str name) origin).lift w with
    | .done m w => .next ((f.push m).push o) w
    | .fail e w => .operate f (.fail e w)
    | .ask q resume w =>
      .operate { f with want := .exactly 2 }
        (.ask q (fun a w => (resume a w).bind fun m w => .done [m, o] w) w)
  | .vararg want => .next ({ f with want }.take f.extra) w
  | .return count isOpen =>
    let (vs, f) := gather f count isOpen
    .leave f vs w
  | .closure index =>
    match f.closure.image.protos[index]? with
    | some proto =>
      let c : Closure := ⟨f.closure.image, proto, captures f proto.captures⟩
      let ⟨h, host, meter⟩ := w
      let (id, h) := h.newClosure c
      .next (f.push (.closure id)) ⟨h, host, meter⟩
    | none => .next (f.push .nil) w
  | .newTable =>
    let ⟨h, host, meter⟩ := w
    let (id, h) := h.newTable {}
    .next (f.push (.table id)) ⟨h, host, meter⟩
  | .initField key value =>
    let (k, v, f) := read2 f w.heap key value
    match f.stack with
    | t :: _ => operate0 f w (Access.store t k v .unknown)
    | [] => .next f w
  | .initList first count isOpen =>
    let (vs, f) := gather f count isOpen
    match f.stack with
    | .table id :: _ => .next f (withHeap w (·.setList id vs first))
    | _ => .next f w
  | .numericStart base exit =>
    let (step, f) := pop f
    let (limit, f) := pop f
    let (start, f) := pop f
    match beginLoop w.heap start limit step with
    | .error message => failure f w message
    | .ok .skip => .next { f with pc := exit } w
    | .ok (.integers a s n) =>
      let (f, w) := declareAll f w base [.nat n, .int a, .int s, .int a]
      .next f w
    | .ok (.floats a l s) =>
      let (f, w) := declareAll f w base [.float a, .float l, .float s, .float a]
      .next f w
  | .numericNext base body =>
    let h := w.heap
    match h.cell (f.cellOf base), h.cell (f.cellOf (base + 2)) with
    | .int n, .int s =>
      let left := n.toUInt64
      if left == 0 then .next f w
      else
        let a :=
          match h.cell (f.cellOf (base + 1)) with
          | .int a => a
          | _ => 0
        let w := withHeap w fun h =>
          (h.setCell (f.cellOf base) (.int (n - 1))).setCell (f.cellOf (base + 1)) (.int (a + s))
        let (f, w) := declare f w (base + 3) (.int (a + s))
        .next { f with pc := body } w
    | .float a, .float s =>
      let l :=
        match h.cell (f.cellOf (base + 1)) with
        | .float l => l
        | _ => 0
      let a := a + s
      if (if 0 < s then a ≤ l else l ≤ a) then
        let w := withHeap w (·.setCell (f.cellOf base) (.float a))
        let (f, w) := declare f w (base + 3) (.float a)
        .next { f with pc := body } w
      else .next f w
    | _, _ => .next f w
  | .genericStart base =>
    let (vs, f) := gather f 4 false
    let (f, w) := declareAll f w base vs
    let closing := vs[3]?.getD .nil
    if !closing.truthy then .next f w
    else if (w.heap.metafield closing "__close").isNil then
      failure f w (Text.bytes "variable '(for state)' got a non-closable value")
    else .next { f with toClose := (base + 3) :: f.toClose } w
  | .genericCall base count =>
    let h := w.heap
    .enter { f with want := .exactly (max count 1) } (h.cell (f.cellOf base))
      [h.cell (f.cellOf (base + 1)), h.cell (f.cellOf (base + 2))] w
  | .genericNext base count exit =>
    let (vs, f) := gather f (max count 1) false
    match vs with
    | .nil :: _ | [] => .next { f with pc := exit } w
    | v :: _ =>
      let w := withHeap w (·.setCell (f.cellOf (base + 2)) v)
      let (f, w) := declareAll f w (base + 4) (vs.take count)
      .next f w
  | .toBeClosed slot name =>
    let v := w.heap.cell (f.cellOf slot)
    if !v.truthy then .next f w
    else if (w.heap.metafield v "__close").isNil then
      failure f w (Text.bytes "variable '" ++ name ++ Text.bytes "' got a non-closable value")
    else .next { f with toClose := slot :: f.toClose } w
  | .close slot =>
    match splitClosing slot f.toClose with
    | none => .next f w
    | some (s, rest) =>
      -- the instruction runs again until nothing is left to close
      let v := w.heap.cell (f.cellOf s)
      operate0 { f with toClose := rest, pc := f.pc - 1 } w (closeValue v .nil)

/-! ## Stops -/

/-- The place of the first script on the stack whose name ends in a bracket, or else a native place. -/
def meteredPlace (stack : List (Activation σ)) : Bytes :=
  match stack with
  | .script f :: rest =>
    let name := f.closure.image.shownName
    if name.size ≠ 0 ∧ name[name.size - 1]! = 0x5D then f.place else meteredPlace rest
  | .native { runner := .operation, .. } :: rest => meteredPlace rest
  | _ => Text.bytes "[C]"

/-- The text of an error that a function of the host raises. -/
def hostText (message : String) : Bytes := Text.bytes ("runtime error: " ++ message)

/-- Does a finalizer run? -/
def isFinalizing (stack : List (Activation σ)) : Bool :=
  stack.any fun
    | .native { runner := .collector, .. } => true
    | _ => false

/-- Count an instruction; the one that uses up the allowance does not run, and the allowance begins
anew.  In a finalizer it runs all the same. -/
def tickMeter (stack : List (Activation σ)) (w : World σ) : Bool × World σ :=
  match w with
  | ⟨h, host, some m⟩ =>
    if m.left ≤ 1 then
      if isFinalizing stack then
        (false, ⟨h, host,
          some { m with left := m.limit, ran := m.ran + 1, missed := m.missed + 1 }⟩)
      else (true, ⟨h, host, some { m with left := m.limit, stops := m.stops + 1 }⟩)
    else (false, ⟨h, host, some { m with left := m.left - 1, ran := m.ran + 1 }⟩)
  | w => (false, w)

/-- The error of a used-up allowance. -/
def meterError (stack : List (Activation σ)) (w : World σ) : Thrown × World σ :=
  let message := (w.meter.map (·.message)).getD ""
  let ⟨h, host, meter⟩ := w
  let (id, h) := h.newRaised ⟨hostText message, meteredPlace stack⟩
  ({ value := .raised id }, ⟨h, host, meter⟩)

/-! ## Calls -/

/-- The largest stack. -/
def stackLimit : Nat := 1000000

/-- The largest number of native functions on the stack. -/
def nativeLimit : Nat := 196

/-- Native functions on the stack at which an error in the handling of errors is given up. -/
def handlerLimit : Nat := 216

/-- Room that the stack takes: it doubles when it is full. -/
def stackRoom (depth : Nat) : Nat :=
  if depth < 64 then 1024 else min stackLimit (2 * Nat.pow 2 (Nat.log2 depth)) * 16

/-- Begin a script function. -/
def frameOf (c : Closure) (args : List Value) (w : World σ) : Frame × World σ :=
  let p := c.proto
  let f : Frame :=
    { closure := c, slots := (List.replicate p.slots 0).toArray
      extra := if p.isVararg then args.drop p.params else [] }
  declareAll f w 0 (Frame.exactly p.params args)

/-- Put a script function on the stack. -/
@[inline] def pushScript (s : Stack σ) (f : Frame) : Stack σ :=
  let ⟨top, depth, frames, natives⟩ := s
  ⟨.script f :: top, depth + f.size, frames + 1, natives⟩

/-- Put a native function on the stack. -/
@[inline] def pushNative (s : Stack σ) (p : Pending σ) : Stack σ :=
  let ⟨top, depth, frames, natives⟩ := s
  ⟨.native p :: top, depth, frames, natives + 1⟩

/-- Put a frame back on the stack that it was taken from. -/
@[inline] def withTop (s : Stack σ) (f : Frame) : Stack σ :=
  let ⟨top, depth, frames, natives⟩ := s
  ⟨.script f :: top, depth, frames, natives⟩

/-- The stack without a frame that was taken from it. -/
@[inline] def without (s : Stack σ) (f : Frame) : Stack σ :=
  let ⟨top, depth, frames, natives⟩ := s
  ⟨top, depth - f.size, frames - 1, natives⟩

/-- Call a script function, if the stack has room for it. -/
def enterScript (s : Stack σ) (c : Closure) (args : List Value) (w : World σ) : Machine σ :=
  let noRoom : Bool :=
    match w.heap.limit with
    | some limit => 4096 < s.depth && limit < w.heap.taken + stackRoom s.depth + 64 * s.frames
    | none => false
  if noRoom then ⟨.throw outOfMemory w, s⟩
  -- no function has so many variables that an empty stack is too small for it
  else if 0 < s.depth ∧ stackLimit < s.depth + c.proto.slots then
    ⟨.throw { value := .str (placeAt s.top 0 ++ Text.bytes "stack overflow") } w, s⟩
  else
    let (f, w) := frameOf c args w
    ⟨.execute w, pushScript s f⟩

/-- The text of a call of something that cannot be called. -/
def notCallable (stack : List (Activation σ)) (h : Heap) (f : Value) : Bytes :=
  let suffix :=
    match calledAs stack with
    | some (kind, name) => Text.bytes (" (" ++ kind ++ " '") ++ name ++ Text.bytes "')"
    | none => ByteArray.empty
  placeAt stack 0 ++ Text.bytes "attempt to call a " ++ h.typeName f ++ Text.bytes " value" ++ suffix

/-- Values that an activation holds. -/
def heldBy (h : Heap) : Activation σ → List Value
  | .script f =>
    f.stack ++ f.waiting ++ f.extra ++ (f.slots.toList.map h.cell)
      ++ (f.closure.captured.toList.map h.cell)
  | .native _ => []

/-- Count again what the heap takes: only what can be reached stays. -/
def recount (s : Stack σ) (w : World σ) (args : List Value := []) : World σ :=
  withHeap w fun h =>
    let held := args ++ s.top.flatMap (heldBy h)
    { h with taken := Reach.size h held }

/-- What reading a member of an object may take. -/
def hostRoom : Nat := 256

/-- The world that a function of the host is called in: before a member of an object is read where there may be too
little room, what is taken is counted again. -/
def makeRoom (s : Stack σ) (f : HostFunction) (args : List Value) (w : World σ) : World σ :=
  match f with
  | .member => if w.heap.hasRoom hostRoom then w else recount s w args
  | _ => w

/-- Call a value. -/
def enter (natives : Natives σ) (s : Stack σ) (f : Value) (args : List Value) (w : World σ) :
    Machine σ :=
  match f with
  | .closure id => enterScript s (w.heap.closure id) args w
  | .builtin _ | .matcher _ => ⟨.look (.function f) (natives f args w), s⟩
  | .host g => ⟨.look (.function f) (natives f args (makeRoom s g args w)), s⟩
  | _ =>
    let handler := w.heap.metafield f "__call"
    if handler.isNil then ⟨.throw { value := .str (notCallable s.top w.heap f) } w, s⟩
    else ⟨.call handler (f :: args) w, s⟩

/-- Values of a frame that are to be closed, the latest first. -/
def closing (f : Frame) (h : Heap) : List Value := f.toClose.map fun s => h.cell (f.cellOf s)

/-- Go on after an instruction of a frame that was taken from the stack. -/
def follow (s : Stack σ) (e : Effect σ) : Machine σ :=
  match e with
  | .next f w => ⟨.execute w, withTop s f⟩
  | .operate f o => ⟨.look .operation o, withTop s f⟩
  | .enter f callee args w => ⟨.call callee args w, withTop s f⟩
  | .replace f callee args w =>
    match callee with
    | .closure _ => ⟨.call callee args w, without s f⟩
    -- what anything else gives waits for the instruction to return that follows
    | _ => ⟨.call callee args w, withTop s { f with want := .all }⟩
  | .leave f vs w =>
    match closing f w.heap with
    | [] => ⟨.give vs w, without s f⟩
    | values => ⟨.look .operation ((closeAll values none vs).lift w), without s f⟩

/-- Is there less room than what is taken? -/
def isFull (w : World σ) : Bool :=
  match w.heap.limit with
  | some limit => limit < w.heap.taken
  | none => false

/-- Run the script on top of the stack for an instruction. -/
def execute (s : Stack σ) (w : World σ) : Machine σ :=
  if isFull w then
    let w := recount s w
    if isFull w then ⟨.throw outOfMemory w, s⟩ else ⟨.execute w, s⟩
  else
  match s with
  | ⟨.script f :: rest, depth, frames, natives⟩ =>
    match f.closure.proto.code[f.pc]? with
    | none => follow ⟨rest, depth, frames, natives⟩ (.leave f [] w)
    | some i =>
      let f := { f with pc := f.pc + 1 }
      match tickMeter rest w with
      | (true, w) =>
        let top := .script f :: rest
        let (t, w) := meterError top w
        ⟨.throw t w, ⟨top, depth, frames, natives⟩⟩
      | (false, w) => follow ⟨rest, depth, frames, natives⟩ (instruct f w i)
  | s => ⟨.give [] w, s⟩

/-! ## Finalizers -/

/-- The table that the collector lets go, if that is one whose finalizer has yet to be called. -/
def pick? (collector : Collector) (h : Heap) : Option Nat := (collector h).filter (· ∈ h.marked)

/-- The table that is let go now.  Nothing is collected while a finalizer runs. -/
def letGo? (collector : Collector) (stack : List (Activation σ)) (h : Heap) : Option Nat :=
  (pick? collector h).filter fun _ => !isFinalizing stack

/-- Call the finalizer of a table, if it still has one.  Its errors are lost. -/
def finalize (id : Nat) : Native Unit (List Value) := do
  let finalizer ← Native.heap (·.finalizer id)
  if finalizer.isNil then return []
  let _ ← Native.guarded finalizer [.table id] none
  return []

/-- Let a table go before the next instruction of the script on top of the stack. -/
def interrupt (s : Stack σ) (f : Frame) (id : Nat) (w : World σ) : Machine σ :=
  let w := withHeap w (·.unmark id)
  if s.natives = nativeLimit then ⟨.execute w, withTop s f⟩
  else ⟨.look .collector ((finalize id).lift w), withTop s { f with want := .exactly 0 }⟩

/-- Go on with the script on top of the stack: the collector comes first. -/
def proceed (collector : Collector) (s : Stack σ) (w : World σ) : Machine σ :=
  match s with
  | ⟨.script f :: rest, depth, frames, natives⟩ =>
    match letGo? collector rest w.heap with
    | some id => interrupt ⟨rest, depth, frames, natives⟩ f id w
    | none => execute s w
  | s => execute s w

/-- Let go of tables as the collector says, at most so many. -/
def collect (collector : Collector) : Nat → Native Unit (List Value)
  | 0 => return []
  | n + 1 => do
    match ← Native.heap (pick? collector) with
    | none => return []
    | some id =>
      Native.modifyHeap (·.unmark id)
      let _ ← finalize id
      collect collector n

/-- Call the finalizers of tables in order. -/
def finalizeAll : List Nat → Native Unit (List Value)
  | [] => return []
  | id :: rest => do
    let _ ← finalize id
    finalizeAll rest

/-- The end of a heap: what nothing holds is let go, then every other table that is marked.  What is
marked on the way to the end is not. -/
def close (collector : Collector) : Native Unit (List Value) := do
  let _ ← collect collector (← Native.heap (·.marked.length))
  let marked ← Native.heap (·.marked)
  Native.modifyHeap fun h => { h with marked := [] }
  finalizeAll marked

/-! ## Values and errors -/

/-- Give values to the top of the stack. -/
def give (s : Stack σ) (vs : List Value) (w : World σ) : Machine σ :=
  match s with
  | ⟨[], depth, frames, natives⟩ => ⟨.finished (.values vs) w, ⟨[], depth, frames, natives⟩⟩
  | ⟨.script f :: rest, depth, frames, natives⟩ =>
    ⟨.execute w, ⟨.script (f.take vs) :: rest, depth, frames, natives⟩⟩
  | ⟨.native p :: rest, depth, frames, natives⟩ =>
    ⟨.look p.runner (p.resume (.values vs) w), ⟨rest, depth, frames, natives - 1⟩⟩

/-- Look at what a native function does next. -/
def look (s : Stack σ) (runner : Runner) (o : Outcome σ (List Value)) : Machine σ :=
  match o with
  | .done vs w => ⟨.give vs w, s⟩
  | .fail fault w => ⟨.throw (thrown runner s.top fault) w, s⟩
  | .ask q resume w =>
    if s.natives = nativeLimit then
      ⟨.throw (thrown runner s.top (.here (Text.bytes "C stack overflow"))) w,
        pushNative s { runner, resume }⟩
    else
      match q with
      | .call f args => ⟨.call f args w, pushNative s { runner, resume }⟩
      | .guarded f args handler =>
        ⟨.call f args w, pushNative s { runner, guarded := true, handler, resume }⟩

/-- The handler that sees an error first: that of the nearest guard. -/
def handler? : List (Activation σ) → Option Value
  | [] => none
  | .native p :: rest => if p.guarded then p.handler else handler? rest
  | .script _ :: rest => handler? rest

/-- The error behind the answer of a handler. -/
def handledError (answer : Answer) (w : World σ) : Outcome σ (List Value) :=
  match answer with
  | .values vs => .fail (.rethrow { value := vs.headD .nil, handled := true }) w
  | .raised t => .fail (.rethrow t) w

/-- An error in the handling of errors. -/
def handlerError : Thrown := { value := .text "error in error handling", handled := true }

/-- Leave the top of the stack with an error that the handler has seen. -/
def unwind (s : Stack σ) (t : Thrown) (w : World σ) : Machine σ :=
  match s with
  | ⟨[], depth, frames, natives⟩ => ⟨.finished (.raised t) w, ⟨[], depth, frames, natives⟩⟩
  | ⟨.script f :: rest, depth, frames, natives⟩ =>
    let s := without ⟨rest, depth, frames, natives⟩ f
    match closing f w.heap with
    | [] => ⟨.throw t w, s⟩
    | values => ⟨.look (.function .nil) ((closeAll values (some t) []).lift w), s⟩
  | ⟨.native p :: rest, depth, frames, natives⟩ =>
    let s : Stack σ := ⟨rest, depth, frames, natives - 1⟩
    if p.guarded then ⟨.look p.runner (p.resume (.raised { t with handled := false }) w), s⟩
    else ⟨.throw t w, s⟩

/-- Throw: the handler sees the error before the stack is left. -/
def raise (s : Stack σ) (t : Thrown) (w : World σ) : Machine σ :=
  if t.handled ∨ t.outOfMemory then unwind s t w
  else
    match handler? s.top with
    | none => unwind s { t with handled := true } w
    | some handler =>
      if handlerLimit ≤ s.natives then ⟨.throw handlerError w, s⟩
      else
        ⟨.call handler [t.value] w,
          pushNative s { runner := .function .nil, resume := handledError }⟩

/-- One step. -/
def step (natives : Natives σ) (m : Machine σ) : Machine σ :=
  match m with
  | ⟨.execute w, s⟩ => proceed natives.collector s w
  | ⟨.call f args w, s⟩ => enter natives s f args w
  | ⟨.give vs w, s⟩ => give s vs w
  | ⟨.look r o, s⟩ => look s r o
  | ⟨.throw t w, s⟩ => raise s t w
  | m => m

/-- Steps until nothing is left to do, or until the fuel is used up. -/
def run (natives : Natives σ) : Nat → Machine σ → Machine σ
  | 0, m => m
  | fuel + 1, m =>
    match m.control with
    | .finished .. => m
    | _ => run natives fuel (step natives m)

/-- The world of a machine. -/
def world (m : Machine σ) : World σ :=
  match m.control with
  | .execute w | .call _ _ w | .give _ w | .throw _ w | .finished _ w => w
  | .look _ o =>
    match o with
    | .done _ w | .fail _ w | .ask _ _ w => w

/-- What a machine has come to; `none` while there is something left to do. -/
def answer? (m : Machine σ) : Option Answer :=
  match m.control with
  | .finished a _ => some a
  | _ => none

/-- A machine that calls a value. -/
def ofCall (f : Value) (args : List Value) (w : World σ) : Machine σ := ⟨.call f args w, {}⟩

/-- A machine that does what a native function does. -/
def ofNative (n : Native σ (List Value)) (w : World σ) : Machine σ :=
  ⟨.look (.function .nil) (n w), {}⟩

/-- A machine that ends the heap of a world. -/
def ofClose (collector : Collector) (w : World σ) : Machine σ :=
  ⟨.look .collector ((close collector).lift w), {}⟩

end Machine

end ScriptWarden.Lua
