import ScriptWarden.Lua.Code
import ScriptWarden.Lua.Token
set_option autoImplicit false

/-!
# Lua: from a program to code

Each function is compiled on its own.  Jumps are first written with the number of their label and get
their targets when the whole function is done.
-/

namespace ScriptWarden.Lua.Compiler

/-- The code of a function so far. -/
structure State where
  code : Array Instr := #[]
  lines : Array Nat := #[]
  /-- Where each label stands. -/
  targets : Array Nat
  slots : Nat := 0
  jumps : Array Jump
  deriving Inhabited

/-- Writing code. -/
abbrev Emit := StateM State

/-- Write an instruction. -/
def emit (i : Instr) (line : Nat) : Emit Unit :=
  modify fun s => { s with code := s.code.push i, lines := s.lines.push line }

/-- The position of the next instruction. -/
def here : Emit Nat := return (← get).code.size

/-- A new label. -/
def newLabel : Emit Nat := do
  let n := (← get).targets.size
  modify fun s => { s with targets := s.targets.push 0 }
  return n

/-- Put a label here. -/
def place (label : Nat) : Emit Unit :=
  modify fun s => { s with targets := s.targets.setIfInBounds label s.code.size }

/-- Make room for a slot. -/
def useSlot (slot : Nat) : Emit Unit :=
  modify fun s => { s with slots := max s.slots (slot + 1) }

/-- Write the declaration of a variable whose value is on top of the stack. -/
def declare (slot line : Nat) : Emit Unit := do
  useSlot slot
  emit (.declare slot) line

/-- Is the expression the environment? -/
def isEnv : Expr → Bool
  | .variable _ name => name == Text.bytes "_ENV"
  | _ => false

/-- What messages call the value of an expression. -/
def originOf : Expr → Origin
  | .variable (.slot _) name => .localVar name
  | .variable (.captured _) name => .upvalue name
  | .index obj (.str key) _ => if isEnv obj then .globalVar key else .field key
  | .index _ (.int n) _ =>
    if 1 ≤ n.toInt ∧ n.toInt ≤ 255 then .field (Text.bytes "integer index")
    else .field (Text.bytes "?")
  | .index .. => .field (Text.bytes "?")
  | .method _ name .. => .method name
  | .str s => .constant s
  | .paren (.method ..) => .unknown
  | .paren e => originOf e
  | _ => .unknown

/-- What messages call a function that is called.  What a method gives has no name. -/
def calleeOrigin (e : Expr) : Origin :=
  match e with
  | .method .. => .unknown
  | e => originOf e

/-- What messages call an operand. -/
def operandOrigin (e : Expr) : Origin :=
  match e with
  | .method .. => .unknown
  | e => originOf e

/-- An operand that needs no code. -/
def direct? : Expr → Option Operand
  | .nil => some (.const .nil)
  | .bool b => some (.const (.bool b))
  | .int n => some (.const (.int n))
  | .float x => some (.const (.float x))
  | .str s => some (.const (.str s))
  | .variable (.slot i) _ => some (.slot i)
  | .paren (.variable (.slot i) _) => some (.slot i)
  | _ => none

/-- The environment as an operand; it is read when it is used. -/
def envOperand? : Expr → Option Operand
  | .variable (.captured i) name => if name == Text.bytes "_ENV" then some (.captured i) else none
  | _ => none

/-- An expression as an operand; the code of its value is written unless it needs none. -/
def operandOf (e : Expr) (code : Emit Unit) : Emit Operand := do
  match direct? e with
  | some o => return o
  | none =>
    match envOperand? e with
    | some o => return o
    | none =>
      code
      return .top

mutual

/-- Leave the value of an expression on the stack. -/
def value (e : Expr) (line : Nat) : Emit Unit :=
  match e with
  | .nil => emit (.push (.const .nil)) line
  | .bool b => emit (.push (.const (.bool b))) line
  | .int n => emit (.push (.const (.int n))) line
  | .float x => emit (.push (.const (.float x))) line
  | .str s => emit (.push (.const (.str s))) line
  | .vararg => emit (.vararg (.exactly 1)) line
  | .function index => emit (.closure index) line
  | .variable (.slot i) _ => emit (.push (.slot i)) line
  | .variable (.captured i) _ => emit (.push (.captured i)) line
  | .index obj key l => do
    let o ← operandOf obj (value obj l)
    let k ← operandOf key (value key l)
    emit (.index o k (operandOrigin obj)) l
  | .call f args l => do
    value f l
    let (n, isOpen) ← arguments args 0 l
    emit (.call n isOpen (.exactly 1) (calleeOrigin f)) l
  | .method obj name nameLine args l => do
    let o ← operandOf obj (value obj nameLine)
    emit (.method o name (operandOrigin obj)) nameLine
    let (n, isOpen) ← arguments args 1 l
    emit (.call n isOpen (.exactly 1) (.method name)) l
  | .arith op a b l => do
    if op = .unm ∨ op = .bnot then
      let x ← operandOf a (value a l)
      emit (.arith op x (.const .nil) (operandOrigin a) .unknown) l
    else
      let x ← operandOf a (value a l)
      let y ← operandOf b (value b l)
      emit (.arith op x y (operandOrigin a) (operandOrigin b)) l
  | .concat a b l => do
    value a l
    value b l
    emit (.concat (operandOrigin a) (operandOrigin b)) l
  | .compare op a b l => do
    let x ← operandOf a (value a l)
    let y ← operandOf b (value b l)
    emit (.compare op x y) l
  | .and a b => do
    let done ← newLabel
    value a line
    emit (.keepOr false done) line
    value b line
    place done
  | .or a b => do
    let done ← newLabel
    value a line
    emit (.keepOr true done) line
    value b line
    place done
  | .not a => do
    let x ← operandOf a (value a line)
    emit (.not x) line
  | .len a l => do
    let x ← operandOf a (value a l)
    emit (.len x (operandOrigin a)) l
  | .table items => do
    emit .newTable line
    fields items 1 line
  | .paren e => value e line

/-- Arguments of a call behind `n` that are there already: how many are on the stack, and whether more
wait beside it. -/
def arguments (args : List Expr) (n line : Nat) : Emit (Nat × Bool) :=
  match args with
  | [] => return (n, false)
  | [e] => do
    if ← openValues e line then return (n, true)
    else
      value e line
      return (n + 1, false)
  | e :: rest => do
    value e line
    arguments rest (n + 1) line

/-- Let every value of an expression wait beside the stack, if it can have several. -/
def openValues (e : Expr) (line : Nat) : Emit Bool :=
  match e with
  | .vararg => do
    emit (.vararg .all) line
    return true
  | .call f args l => do
    value f l
    let (n, isOpen) ← arguments args 0 l
    emit (.call n isOpen .all (calleeOrigin f)) l
    return true
  | .method obj name nameLine args l => do
    let o ← operandOf obj (value obj nameLine)
    emit (.method o name (operandOrigin obj)) nameLine
    let (n, isOpen) ← arguments args 1 l
    emit (.call n isOpen .all (.method name)) l
    return true
  | _ => return false

/-- The entries of a constructor; the next positional one has the number `next`. -/
def fields (items : List Item) (next line : Nat) : Emit Unit :=
  match items with
  | [] => return
  | .keyed key v l :: rest => do
    let k ← operandOf key (value key l)
    let x ← operandOf v (value v l)
    emit (.initField k x) l
    fields rest next line
  | [.positional e] => do
    if ← openValues e line then emit (.initList next 0 true) line
    else
      value e line
      emit (.initList next 1 false) line
  | .positional e :: rest => do
    value e line
    emit (.initList next 1 false) line
    fields rest (next + 1) line

end

/-- An expression as an operand; its value is on the stack unless it needs no code. -/
def operand (e : Expr) (line : Nat) : Emit Operand := operandOf e (value e line)

/-- Values for which there is no expression. -/
def nils (count line : Nat) : Emit Unit :=
  match count with
  | 0 => return
  | n + 1 => do
    emit (.push (.const .nil)) line
    nils n line

/-- Exactly `count` values of some expressions on the stack. -/
def adjusted (exprs : List Expr) (count line : Nat) : Emit Unit :=
  match exprs, count with
  | [], n => nils n line
  | [e], 0 => do
    value e line
    emit (.pop 1) line
  | [e], 1 => value e line
  | [e], n + 2 =>
    match e with
    | .vararg => emit (.vararg (.exactly (n + 2))) line
    | .call f args l => do
      value f l
      let (k, isOpen) ← arguments args 0 l
      emit (.call k isOpen (.exactly (n + 2)) (calleeOrigin f)) l
    | .method obj name nameLine args l => do
      let o ← operand obj nameLine
      emit (.method o name (operandOrigin obj)) nameLine
      let (k, isOpen) ← arguments args 1 l
      emit (.call k isOpen (.exactly (n + 2)) (.method name)) l
    | e => do
      value e line
      nils (n + 1) line
  | e :: rest, 0 => do
    value e line
    emit (.pop 1) line
    adjusted rest 0 line
  | e :: rest, n + 1 => do
    value e line
    adjusted rest n line

/-- Declare slots from `first` on; their values are on the stack, the last on top. -/
def declareAll (first count line : Nat) : Emit Unit :=
  match count with
  | 0 => return
  | n + 1 => do
    declare (first + n) line
    declareAll first n line

/-- A target of an assignment whose parts are evaluated. -/
inductive Target where
  | variable (place : Place)
  | field (obj key : Operand) (origin : Origin)

/-- Put the value of an expression into a slot of its own, unless it is a constant. -/
def hold (e : Expr) (free line : Nat) : Emit (Operand × Nat) := do
  match direct? e, envOperand? e with
  | some (.const v), _ => return (.const v, free)
  | _, some o => return (o, free)
  | _, none =>
    value e line
    declare free line
    return (.slot free, free + 1)

/-- Evaluate the parts of targets into slots from `free` on. -/
def targets (es : List Expr) (free line : Nat) : Emit (List Target) :=
  match es with
  | [] => return []
  | e :: rest => do
    match e with
    | .variable place _ => return .variable place :: (← targets rest free line)
    | .index obj key l =>
      let (o, free) ← hold obj free l
      let (k, free) ← hold key free l
      return .field o k (operandOrigin obj) :: (← targets rest free line)
    | _ => targets rest free line

/-- Give the values on the stack to targets, which come last one first. -/
def storeAll (ts : List Target) (line : Nat) : Emit Unit :=
  match ts with
  | [] => return
  | t :: rest => do
    match t with
    | .variable p => emit (.assign p) line
    | .field o k origin => emit (.store o k .top origin) line
    storeAll rest line

/-- An assignment. -/
def assignment (ts exprs : List Expr) (free line : Nat) : Emit Unit :=
  match ts, exprs with
  | [.variable p _], [e] => do
    value e line
    emit (.assign p) line
  | [.index obj key l], [e] => do
    let o ← operand obj l
    let k ← operand key l
    let v ← operand e line
    emit (.store o k v (operandOrigin obj)) line
  | ts, exprs => do
    let ready ← targets ts free line
    adjusted exprs ts.length line
    storeAll ready.reverse line

/-- Jump to a label if a condition does not hold. -/
def jumpUnless (cond : Expr) (label line : Nat) : Emit Unit := do
  let c ← operand cond line
  emit (.branch c false label) line

mutual

/-- A statement. -/
def statement (s : Stat) : Emit Unit :=
  match s with
  | .locals first count exprs line => do
    adjusted exprs count line
    declareAll first count line
  | .toBeClosed slot name line => emit (.toBeClosed slot name) line
  | .assign ts exprs free line => assignment ts exprs free line
  | .call e =>
    match e with
    | .call f args l => do
      value f l
      let (n, isOpen) ← arguments args 0 l
      emit (.call n isOpen (.exactly 0) (calleeOrigin f)) l
    | .method obj name nameLine args l => do
      let o ← operand obj nameLine
      emit (.method o name (operandOrigin obj)) nameLine
      let (n, isOpen) ← arguments args 1 l
      emit (.call n isOpen (.exactly 0) (.method name)) l
    | _ => return
  | .close slot line => emit (.close slot) line
  | .block body => statements body
  | .while cond body exit line => do
    let top ← newLabel
    place top
    jumpUnless cond exit line
    statements body
    emit (.jump top) line
    place exit
  | .repeat body cond level closes exit line => do
    let top ← newLabel
    place top
    statements body
    if closes then
      value cond line
      emit (.close level) line
      emit (.branch .top false top) line
    else jumpUnless cond top line
    place exit
  | .branch cond yes no line => do
    let otherwise ← newLabel
    jumpUnless cond otherwise line
    statements yes
    if no.isEmpty then place otherwise
    else
      let done ← newLabel
      emit (.jump done) line
      place otherwise
      statements no
      place done
  | .numericFor base start limit step body exit line => do
    value start line
    value limit line
    value step line
    useSlot (base + 3)
    emit (.numericStart base exit) line
    let top ← newLabel
    place top
    statements body
    emit (.numericNext base top) line
    place exit
  | .genericFor base count exprs body exit line => do
    adjusted exprs 4 line
    useSlot (base + 3 + count)
    emit (.genericStart base) line
    let top ← newLabel
    let next ← newLabel
    emit (.jump next) line
    place top
    statements body
    place next
    emit (.genericCall base count) line
    emit (.genericNext base count exit) line
    emit (.jump top) line
    place exit
    emit (.close base) line
  | .localFunction slot index line => do
    emit (.push (.const .nil)) line
    declare slot line
    emit (.closure index) line
    emit (.assign (.slot slot)) line
  | .return exprs tail line =>
    match tail, exprs with
    | true, [.call f args l] => do
      value f l
      let (n, isOpen) ← arguments args 0 l
      emit (.tailCall n isOpen (calleeOrigin f)) l
      emit (.return 0 true) l
    | true, [.method obj name nameLine args l] => do
      let o ← operand obj nameLine
      emit (.method o name (operandOrigin obj)) nameLine
      let (n, isOpen) ← arguments args 1 l
      emit (.tailCall n isOpen (.method name)) l
      emit (.return 0 true) l
    | _, exprs => do
      let (n, isOpen) ← arguments exprs 0 line
      emit (.return n isOpen) line
  | .goto id line => do
    match (← get).jumps[id]? with
    | some j =>
      if j.closes then emit (.close j.level) line
      emit (.jump j.label) line
    | none => return
  | .label id => place id

/-- Statements in order. -/
def statements (ss : List Stat) : Emit Unit :=
  match ss with
  | [] => return
  | s :: rest => do
    statement s
    statements rest

end

/-- Replace labels by positions. -/
def link (targets : Array Nat) (i : Instr) : Instr :=
  let at_ := fun label => targets[label]?.getD 0
  match i with
  | .jump l => .jump (at_ l)
  | .branch a sense l => .branch a sense (at_ l)
  | .keepOr sense l => .keepOr sense (at_ l)
  | .numericStart base l => .numericStart base (at_ l)
  | .numericNext base l => .numericNext base (at_ l)
  | .genericNext base count l => .genericNext base count (at_ l)
  | i => i

/-- Write a whole function: a return follows its body. -/
def writeFunction (f : FunctionBody) : Emit Unit := do
  statements f.body
  emit (.return 0 false) f.endLine

theorem code_writeFunction (f : FunctionBody) (s : State) : 0 < ((writeFunction f).run s).2.code.size := by
  change 0 < (((statements f.body).run s).2.code.push _).size
  rw [Array.size_push]
  exact Nat.succ_pos _

/-- The code of a function. -/
def function (f : FunctionBody) : Proto :=
  let start : State :=
    { targets := (List.replicate f.labels 0).toArray, slots := f.params, jumps := f.jumps }
  let s := ((writeFunction f).run start).2
  { code := s.code.map (link s.targets), lines := s.lines, params := f.params
    isVararg := f.isVararg, captures := f.captures, slots := s.slots, line := f.line
    filled := by
      rw [Array.size_map]
      exact code_writeFunction f start }

/-- The code of a program. -/
def compile (p : Program) : Image :=
  { chunk := p.chunk, shownName := chunkId p.chunk, protos := p.functions.map function }

end ScriptWarden.Lua.Compiler
