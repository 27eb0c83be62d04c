import ScriptWarden.Lua.Ast
import ScriptWarden.Lua.Lexer
set_option autoImplicit false

/-!
# Lua: from tokens to a program

One pass over the tokens that also resolves every name.  The first mistake in reading order is the one
that is reported.  Every call of a rule is one level of nesting; `fuel` bounds them by the number of
tokens.
-/

namespace ScriptWarden.Lua.Parser

/-! ## What is known while reading -/

/-- What may be done with a variable. -/
inductive Usage where
  | plain
  | constant
  | close
  deriving DecidableEq, Repr, Inhabited

/-- A variable of the function that is being read. -/
structure Active where
  name : Bytes
  usage : Usage
  deriving Inhabited

/-- A variable of an enclosing function that was captured. -/
structure Capture where
  name : Bytes
  usage : Usage
  place : Place
  deriving Inhabited

/-- A label that can be jumped to. -/
structure Label where
  name : Bytes
  id : Nat
  line : Nat
  level : Nat
  deriving Inhabited

/-- A jump whose label has not been seen yet. -/
structure Pending where
  name : Bytes
  jump : Nat
  line : Nat
  level : Nat
  /-- A block with variables to close was left since. -/
  closes : Bool
  deriving Inhabited

/-- A block: how many variables, labels and pending jumps there were when it began. -/
structure Block where
  level : Nat
  labels : Nat
  pending : Nat
  isLoop : Bool
  /-- It has a variable that must be closed. -/
  closes : Bool
  /-- So has it or a block around it. -/
  insideClose : Bool
  deriving Inhabited

/-- The function that is being read. -/
structure Scope where
  /-- Innermost first. -/
  actives : List Active := []
  captures : Array Capture := #[]
  blocks : List Block := []
  /-- Latest first. -/
  labels : List Label := []
  /-- Latest first. -/
  pending : List Pending := []
  jumps : Array Jump := #[]
  labelCount : Nat := 0
  isVararg : Bool := false
  line : Nat := 0
  deriving Inhabited

/-- The number of variables of a function so far. -/
def Scope.level (s : Scope) : Nat := s.actives.length

/-- The state of reading. -/
structure State where
  current : Lexeme
  rest : List Lexeme
  fault : Option SyntaxFault
  /-- The line of the last token that was taken. -/
  lastLine : Nat := 1
  scope : Scope := {}
  /-- Enclosing functions, innermost first. -/
  outer : List Scope := []
  functions : Array FunctionBody := #[]
  deriving Inhabited

/-- Reading. -/
abbrev Parse := StateT State (Except SyntaxFault)

/-! ## Faults -/

/-- A fault at the current token. -/
def failNear {α : Type} (message : String) : Parse α := fun s =>
  .error ⟨s.current.line, near message s.current.shown⟩

/-- A fault that is not about a token. -/
def failPlain {α : Type} (message : Bytes) : Parse α := fun s =>
  .error ⟨s.current.line, message⟩

/-- Too deep for the fuel: reported like any other fault. -/
def tooDeep {α : Type} : Parse α := failNear "chunk has too many syntax levels"

/-! ## Tokens -/

/-- Take the current token. -/
def advance : Parse Unit := fun s =>
  match s.rest with
  | l :: rest => .ok ((), { s with current := l, rest, lastLine := s.current.line })
  | [] =>
    match s.fault with
    | some e => .error e
    | none => .ok ((), { s with lastLine := s.current.line })

/-- The current token. -/
def peek : Parse Token := return (← get).current.token

/-- The line of the current token. -/
def currentLine : Parse Nat := return (← get).current.line

/-- The line of the last token taken. -/
def lastLine : Parse Nat := return (← get).lastLine

/-- Is the current token this sign? -/
def isSign (s : String) : Parse Bool := do
  match ← peek with
  | .sign t => return t == s
  | _ => return false

/-- Is the current token this reserved word? -/
def isWord (w : String) : Parse Bool := do
  match ← peek with
  | .word t => return t == w
  | _ => return false

/-- Take a sign if it is there. -/
def testSign (s : String) : Parse Bool := do
  if ← isSign s then advance; return true else return false

/-- Take a reserved word if it is there. -/
def testWord (w : String) : Parse Bool := do
  if ← isWord w then advance; return true else return false

/-- Take a sign that must be there. -/
def expectSign (s : String) : Parse Unit := do
  if !(← testSign s) then failNear ("'" ++ s ++ "' expected")

/-- Take a reserved word that must be there. -/
def expectWord (w : String) : Parse Unit := do
  if !(← testWord w) then failNear ("'" ++ w ++ "' expected")

/-- The complaint about something that was opened and not closed. -/
def unclosed {α : Type} (what opener : String) (line : Nat) : Parse α := do
  if line = (← currentLine) then failNear ("'" ++ what ++ "' expected")
  else
    failNear ("'" ++ what ++ "' expected (to close '" ++ opener ++ "' at line " ++ toString line
      ++ ")")

/-- Take the sign that closes another. -/
def closeSign (what opener : String) (line : Nat) : Parse Unit := do
  if !(← testSign what) then unclosed what opener line

/-- Take the word that closes another. -/
def closeWord (what opener : String) (line : Nat) : Parse Unit := do
  if !(← testWord what) then unclosed what opener line

/-- Take a name. -/
def takeName : Parse Bytes := do
  match ← peek with
  | .name s => advance; return s
  | _ => failNear "<name> expected"

/-! ## Variables -/

/-- Change the function that is being read. -/
def modifyScope (f : Scope → Scope) : Parse Unit := modify fun s => { s with scope := f s.scope }

/-- The most variables a function may have at once. -/
def variableLimit : Nat := 200

/-- The most variables a function may capture. -/
def captureLimit : Nat := 255

/-- The complaint about too many of something. -/
def overLimit {α : Type} (what : String) (limit : Nat) (line : Nat) : Parse α :=
  let place := if line = 0 then "main function" else "function at line " ++ toString line
  failNear ("too many " ++ what ++ " (limit is " ++ toString limit ++ ") in " ++ place)

/-- Make variables visible. -/
def activate (vars : List Active) : Parse Unit := do
  let scope := (← get).scope
  if variableLimit < scope.level + vars.length then
    overLimit "local variables" variableLimit scope.line
  else modifyScope fun s => { s with actives := vars.reverse ++ s.actives }

/-- The slot of a name among the variables of a function, and what may be done with it. -/
def Scope.find? (s : Scope) (name : Bytes) : Option (Nat × Usage) :=
  let rec go : List Active → Option (Nat × Usage)
    | [] => none
    | a :: rest => if a.name == name then some (rest.length, a.usage) else go rest
  go s.actives

/-- Where a function itself has a name: among its variables, or among those it captured already. -/
def Scope.own? (s : Scope) (name : Bytes) : Option (Place × Usage) :=
  match s.find? name with
  | some (i, u) => some (.slot i, u)
  | none =>
    (s.captures.findIdx? fun c => c.name == name).map fun i =>
      (.captured i, (s.captures[i]?.map (·.usage)).getD .plain)

/-- Look a name up in a function and those around it; a variable of an outer function is captured by
every function on the way. -/
def findName (name : Bytes) (s : Scope) :
    List Scope → Option (Place × Usage) × Scope × List Scope
  | [] => (s.own? name, s, [])
  | o :: rest =>
    match s.own? name with
    | some found => (some found, s, o :: rest)
    | none =>
      let (found, o, rest) := findName name o rest
      match found with
      | none => (none, s, o :: rest)
      | some (place, u) =>
        (some (.captured s.captures.size, u),
          { s with captures := s.captures.push ⟨name, u, place⟩ }, o :: rest)

/-- The name of the environment. -/
def envName : Bytes := Text.bytes "_ENV"

/-- Where a name lives, if it is a variable. -/
def lookup (name : Bytes) : Parse (Option (Place × Usage)) := do
  let s ← get
  let (found, scope, outer) := findName name s.scope s.outer
  if captureLimit < scope.captures.size then overLimit "upvalues" captureLimit scope.line
  else
    set { s with scope, outer }
    return found

/-- A name as an expression: a variable, or a field of the environment. -/
def nameExpr (name : Bytes) : Parse Expr := do
  match ← lookup name with
  | some (place, _) => return .variable place name
  | none =>
    let line ← lastLine
    match ← lookup envName with
    | some (place, _) => return .index (.variable place envName) (.str name) line
    | none => return .nil

/-- Refuse to assign to a constant. -/
def checkAssignable (e : Expr) : Parse Unit := do
  match e with
  | .variable _ name =>
    match ← lookup name with
    | some (_, .plain) | none => return
    | some _ =>
      failPlain (Text.bytes "attempt to assign to const variable '" ++ name ++ Text.bytes "'")
  | _ => return

/-! ## Blocks and jumps -/

/-- Begin a block. -/
def enterBlock (isLoop : Bool) : Parse Unit :=
  modifyScope fun s =>
    let inside := match s.blocks with
      | b :: _ => b.insideClose
      | [] => false
    { s with blocks :=
        ⟨s.level, s.labels.length, s.pending.length, isLoop, false, inside⟩ :: s.blocks }

/-- Give a number to a label that nobody can name. -/
def freshLabel : Parse Nat := do
  let n := (← get).scope.labelCount
  modifyScope fun s => { s with labelCount := n + 1 }
  return n

/-- Give a number to a jump. -/
def freshJump (j : Jump) : Parse Nat := do
  let n := (← get).scope.jumps.size
  modifyScope fun s => { s with jumps := s.jumps.push j }
  return n

/-- The word that breaks off a loop, as the name of a jump. -/
def breakName : Bytes := Text.bytes "break"

/-- The variable in a slot. -/
def Scope.nameOf (s : Scope) (slot : Nat) : Bytes :=
  ((s.actives.reverse[slot]?).map (·.name)).getD (Text.bytes "?")

/-- Send a pending jump to its label. -/
def settle (label : Label) (p : Pending) : Parse Unit := do
  let scope := (← get).scope
  if p.level < label.level then
    failPlain (Text.bytes "<goto " ++ label.name ++ Text.bytes "> at line "
      ++ Text.bytes (toString p.line) ++ Text.bytes " jumps into the scope of local '"
      ++ scope.nameOf p.level ++ Text.bytes "'")
  else
    modifyScope fun s =>
      { s with jumps := s.jumps.setIfInBounds p.jump ⟨label.id, label.level, p.closes⟩ }

/-- Send every jump of the current block that waits for a label to it. -/
def settlePending (label : Label) : Parse Unit := do
  let scope := (← get).scope
  let first := match scope.blocks with
    | b :: _ => b.pending
    | [] => 0
  let mine := scope.pending.take (scope.pending.length - first)
  let older := scope.pending.drop (scope.pending.length - first)
  let (hits, misses) := mine.partition fun p => p.name == label.name
  for p in hits.reverse do
    settle label p
  modifyScope fun s => { s with pending := misses ++ older }

/-- Leave a block: its variables and labels go out of sight, and its pending jumps become those of the
block around it.  `exit` is the label behind a loop, to which its breaks go. -/
def leaveBlock (exit : Option Nat) : Parse Unit := do
  let scope := (← get).scope
  match scope.blocks with
  | [] => return
  | b :: around =>
    let actives := scope.actives.drop (scope.level - b.level)
    match exit with
    | some id =>
      modifyScope fun s => { s with actives }
      settlePending ⟨breakName, id, 0, b.level⟩
    | none => modifyScope fun s => { s with actives }
    let scope := (← get).scope
    let labels := scope.labels.drop (scope.labels.length - b.labels)
    let pending := scope.pending.mapIdx fun i p =>
      if i + b.pending < scope.pending.length then
        { p with level := min p.level b.level, closes := p.closes || b.closes }
      else p
    match around with
    | [] =>
      match pending.reverse with
      | [] => modifyScope fun s => { s with labels, pending, blocks := around }
      | p :: _ =>
        if p.name == breakName then
          failPlain (Text.bytes ("break outside a loop at line " ++ toString p.line))
        else
          failPlain (Text.bytes "no visible label '" ++ p.name
            ++ Text.bytes ("' for <goto> at line " ++ toString p.line))
    | _ :: _ => modifyScope fun s => { s with labels, pending, blocks := around }

/-- Does the current block have a variable that must be closed? -/
def blockCloses : Parse Bool := do
  match (← get).scope.blocks with
  | b :: _ => return b.closes
  | [] => return false

/-- Note that the current block has a variable that must be closed. -/
def noteClose : Parse Unit :=
  modifyScope fun s =>
    match s.blocks with
    | b :: rest => { s with blocks := { b with closes := true, insideClose := true } :: rest }
    | [] => s

/-- A block has ended: the statement that closes its variables, if there are any to close. -/
def closing (level : Nat) : Parse (List Stat) := do
  if ← blockCloses then return [.close level (← lastLine)] else return []

/-! ## Functions -/

/-- Begin to read a function. -/
def openFunction (line : Nat) : Parse Unit := do
  modify fun s => { s with scope := { line }, outer := s.scope :: s.outer }
  enterBlock false

/-- A function has been read; gives its number. -/
def closeFunction (params : Nat) (body : List Stat) : Parse Nat := do
  leaveBlock none
  let s ← get
  let f : FunctionBody :=
    { params, isVararg := s.scope.isVararg
      captures := s.scope.captures.map (·.place)
      body, jumps := s.scope.jumps, labels := s.scope.labelCount
      line := s.scope.line, endLine := s.lastLine }
  let (scope, outer) := match s.outer with
    | o :: rest => (o, rest)
    | [] => (s.scope, [])
  set { s with scope, outer, functions := s.functions.push f }
  return s.functions.size

/-! ## Operators -/

/-- Operators with two operands. -/
inductive Binary where
  | arith (op : Arith)
  | concat
  | compare (op : Comparison)
  | and
  | or
  deriving Inhabited

/-- The operator of a token, with its left and right priority. -/
def binary? : Token → Option (Binary × Nat × Nat)
  | .sign "+" => some (.arith .add, 10, 10)
  | .sign "-" => some (.arith .sub, 10, 10)
  | .sign "*" => some (.arith .mul, 11, 11)
  | .sign "%" => some (.arith .mod, 11, 11)
  | .sign "^" => some (.arith .pow, 14, 13)
  | .sign "/" => some (.arith .div, 11, 11)
  | .sign "//" => some (.arith .idiv, 11, 11)
  | .sign "&" => some (.arith .band, 6, 6)
  | .sign "|" => some (.arith .bor, 4, 4)
  | .sign "~" => some (.arith .bxor, 5, 5)
  | .sign "<<" => some (.arith .shl, 7, 7)
  | .sign ">>" => some (.arith .shr, 7, 7)
  | .sign ".." => some (.concat, 9, 8)
  | .sign "==" => some (.compare .eq, 3, 3)
  | .sign "~=" => some (.compare .ne, 3, 3)
  | .sign "<" => some (.compare .lt, 3, 3)
  | .sign "<=" => some (.compare .le, 3, 3)
  | .sign ">" => some (.compare .gt, 3, 3)
  | .sign ">=" => some (.compare .ge, 3, 3)
  | .word "and" => some (.and, 2, 2)
  | .word "or" => some (.or, 1, 1)
  | _ => none

/-- Operators with one operand. -/
inductive Unary where
  | not
  | minus
  | complement
  | len

/-- The operator of a token. -/
def unary? : Token → Option Unary
  | .word "not" => some .not
  | .sign "-" => some .minus
  | .sign "~" => some .complement
  | .sign "#" => some .len
  | _ => none

/-- The priority of operators with one operand. -/
def unaryPriority : Nat := 12

/-- Put an operator between two operands. -/
def applyBinary (op : Binary) (a b : Expr) (line : Nat) : Expr :=
  match op with
  | .arith op => .arith op a b line
  | .concat => .concat a b line
  | .compare op => .compare op a b line
  | .and => .and a b
  | .or => .or a b

/-- Put an operator in front of its operand.  The minus of a numeral belongs to it. -/
def applyUnary (op : Unary) (a : Expr) (line : Nat) : Expr :=
  match op, a with
  | .not, a => .not a
  | .minus, .int n => .int (-n)
  | .minus, .float x => if x == 0 then .arith .unm a a line else .float (-x)
  | .minus, a => .arith .unm a a line
  | .complement, a => .arith .bnot a a line
  | .len, a => .len a line

/-! ## The grammar -/

/-- Does the current token end a block? -/
def endsBlock (withUntil : Bool) : Parse Bool := do
  match ← peek with
  | .word "else" | .word "elseif" | .word "end" | .eof => return true
  | .word "until" => return withUntil
  | _ => return false

mutual

/-- Expressions between commas, at least one. -/
def exprList (fuel : Nat) : Parse (List Expr) :=
  match fuel with
  | 0 => tooDeep
  | fuel + 1 => do
    let e ← subExpr fuel 0
    if ← testSign "," then return e :: (← exprList fuel) else return [e]

/-- An expression whose operators bind more tightly than `limit`. -/
def subExpr (fuel : Nat) (limit : Nat) : Parse Expr :=
  match fuel with
  | 0 => tooDeep
  | fuel + 1 => do
    let first ←
      match unary? (← peek) with
      | some op =>
        let line ← currentLine
        advance
        let a ← subExpr fuel unaryPriority
        pure (applyUnary op a line)
      | none => simpleExpr fuel
    operators fuel limit first

/-- Operators behind an operand, as long as they bind more tightly than `limit`. -/
def operators (fuel : Nat) (limit : Nat) (a : Expr) : Parse Expr :=
  match fuel with
  | 0 => tooDeep
  | fuel + 1 => do
    match binary? (← peek) with
    | some (op, left, right) =>
      if limit < left then
        let line ← currentLine
        advance
        let b ← subExpr fuel right
        operators fuel limit (applyBinary op a b line)
      else return a
    | none => return a

/-- A literal, a constructor, a function, or an expression with suffixes. -/
def simpleExpr (fuel : Nat) : Parse Expr :=
  match fuel with
  | 0 => tooDeep
  | fuel + 1 => do
    match ← peek with
    | .int n => advance; return .int n
    | .float x => advance; return .float x
    | .str s => advance; return .str s
    | .word "nil" => advance; return .nil
    | .word "true" => advance; return .bool true
    | .word "false" => advance; return .bool false
    | .sign "..." =>
      if (← get).scope.isVararg then advance; return .vararg
      else failNear "cannot use '...' outside a vararg function"
    | .sign "\x7b" => tableExpr fuel
    | .word "function" =>
      let line ← currentLine
      advance
      return .function (← functionBody fuel false line)
    | _ => suffixedExpr fuel

/-- A name or an expression in brackets. -/
def primaryExpr (fuel : Nat) : Parse Expr :=
  match fuel with
  | 0 => tooDeep
  | fuel + 1 => do
    match ← peek with
    | .name s => advance; nameExpr s
    | .sign "(" =>
      let line ← currentLine
      advance
      let e ← subExpr fuel 0
      closeSign ")" "(" line
      return .paren e
    | _ => failNear "unexpected symbol"

/-- An expression with fields, calls and methods behind it. -/
def suffixedExpr (fuel : Nat) : Parse Expr :=
  match fuel with
  | 0 => tooDeep
  | fuel + 1 => do
    let line ← currentLine
    let e ← primaryExpr fuel
    suffixes fuel line e

/-- Fields, calls and methods behind an expression. -/
def suffixes (fuel : Nat) (line : Nat) (e : Expr) : Parse Expr :=
  match fuel with
  | 0 => tooDeep
  | fuel + 1 => do
    match ← peek with
    | .sign "." =>
      advance
      let name ← takeName
      suffixes fuel line (.index e (.str name) (← lastLine))
    | .sign "[" =>
      advance
      let key ← subExpr fuel 0
      expectSign "]"
      suffixes fuel line (.index e key (← lastLine))
    | .sign ":" =>
      advance
      let name ← takeName
      let nameLine ← lastLine
      let args ← callArgs fuel
      suffixes fuel line (.method e name nameLine args line)
    | .sign "(" | .sign "\x7b" | .str _ =>
      let args ← callArgs fuel
      suffixes fuel line (.call e args line)
    | _ => return e

/-- The arguments of a call: in brackets, or one string or constructor. -/
def callArgs (fuel : Nat) : Parse (List Expr) :=
  match fuel with
  | 0 => tooDeep
  | fuel + 1 => do
    match ← peek with
    | .sign "(" =>
      let line ← currentLine
      advance
      if ← testSign ")" then return []
      else
        let args ← exprList fuel
        closeSign ")" "(" line
        return args
    | .sign "\x7b" => return [← tableExpr fuel]
    | .str s => advance; return [.str s]
    | _ => failNear "function arguments expected"

/-- A table constructor. -/
def tableExpr (fuel : Nat) : Parse Expr :=
  match fuel with
  | 0 => tooDeep
  | fuel + 1 => do
    let line ← currentLine
    expectSign "\x7b"
    let items ← tableItems fuel
    closeSign "\x7d" "\x7b" line
    return .table items

/-- The entries of a constructor up to its closing brace. -/
def tableItems (fuel : Nat) : Parse (List Item) :=
  match fuel with
  | 0 => tooDeep
  | fuel + 1 => do
    if ← isSign "\x7d" then return []
    else
      let isField ←
        match ← peek with
        | .name _ =>
          let s ← get
          match s.rest with
          | l :: _ =>
            match l.token with
            | .sign "=" => pure true
            | _ => pure false
          | [] =>
            -- The token behind the name is needed to go on.
            match s.fault with
            | some e => throw e
            | none => pure false
        | _ => pure false
      let item ←
        if isField then
          let name ← takeName
          expectSign "="
          let value ← subExpr fuel 0
          pure (Item.keyed (.str name) value (← lastLine))
        else if ← testSign "[" then
          let key ← subExpr fuel 0
          expectSign "]"
          expectSign "="
          let value ← subExpr fuel 0
          pure (Item.keyed key value (← lastLine))
        else
          pure (Item.positional (← subExpr fuel 0))
      let comma ← testSign ","
      let more ← if comma then pure true else testSign ";"
      if more then return item :: (← tableItems fuel) else return [item]

/-- A function from its parameters to its end; gives its number. -/
def functionBody (fuel : Nat) (isMethod : Bool) (line : Nat) : Parse Nat :=
  match fuel with
  | 0 => tooDeep
  | fuel + 1 => do
    openFunction line
    expectSign "("
    let names ← if ← isSign ")" then pure [] else parameters fuel
    let names := if isMethod then Text.bytes "self" :: names else names
    activate (names.map fun n => ⟨n, .plain⟩)
    expectSign ")"
    let body ← statements fuel
    let close ← closing 0
    closeWord "end" "function" line
    closeFunction names.length (body ++ close)

/-- Parameters between commas; three dots come last. -/
def parameters (fuel : Nat) : Parse (List Bytes) :=
  match fuel with
  | 0 => tooDeep
  | fuel + 1 => do
    match ← peek with
    | .name s =>
      advance
      if ← testSign "," then return s :: (← parameters fuel) else return [s]
    | .sign "..." =>
      advance
      modifyScope fun s => { s with isVararg := true }
      return []
    | _ => failNear "<name> or '...' expected"

/-- Statements up to the end of a block. -/
def statements (fuel : Nat) : Parse (List Stat) :=
  match fuel with
  | 0 => tooDeep
  | fuel + 1 => do
    if ← endsBlock true then return []
    else if ← isWord "return" then return [← returnStat fuel]
    else
      let ss ← statement fuel
      return ss ++ (← statements fuel)

/-- A block of its own. -/
def block (fuel : Nat) (isLoop : Bool) (exit : Option Nat) : Parse (List Stat) :=
  match fuel with
  | 0 => tooDeep
  | fuel + 1 => do
    let level := (← get).scope.level
    enterBlock isLoop
    let body ← statements fuel
    let close ← closing level
    leaveBlock exit
    return body ++ close

/-- One statement. -/
def statement (fuel : Nat) : Parse (List Stat) :=
  match fuel with
  | 0 => tooDeep
  | fuel + 1 => do
    let line ← currentLine
    match ← peek with
    | .sign ";" => advance; return []
    | .word "if" =>
      advance
      return [← ifStat fuel line]
    | .word "while" =>
      advance
      let exit ← freshLabel
      let cond ← subExpr fuel 0
      enterBlock true
      expectWord "do"
      let body ← block fuel false none
      closeWord "end" "while" line
      leaveBlock (some exit)
      return [.while cond body exit line]
    | .word "do" =>
      advance
      let body ← block fuel false none
      closeWord "end" "do" line
      return [.block body]
    | .word "for" =>
      advance
      return [← forStat fuel line]
    | .word "repeat" =>
      advance
      let exit ← freshLabel
      enterBlock true
      let level := (← get).scope.level
      enterBlock false
      let body ← statements fuel
      closeWord "until" "repeat" line
      let cond ← subExpr fuel 0
      let closes ← blockCloses
      leaveBlock none
      leaveBlock (some exit)
      return [.repeat body cond level closes exit line]
    | .word "function" =>
      advance
      functionStat fuel line
    | .word "local" =>
      advance
      if ← testWord "function" then
        let name ← takeName
        let slot := (← get).scope.level
        activate [⟨name, .plain⟩]
        let index ← functionBody fuel false line
        return [.localFunction slot index line]
      else localStat fuel
    | .sign "::" =>
      advance
      let name ← takeName
      labelStat fuel name line
    | .word "return" => return [← returnStat fuel]
    | .word "break" =>
      advance
      let jump ← freshJump default
      let level := (← get).scope.level
      modifyScope fun s => { s with pending := ⟨breakName, jump, line, level, false⟩ :: s.pending }
      return [.goto jump line]
    | .word "goto" =>
      advance
      let name ← takeName
      gotoStat name line
    | _ => exprStat fuel

/-- The branches of a conditional, its first word taken. -/
def ifStat (fuel : Nat) (line : Nat) : Parse Stat :=
  match fuel with
  | 0 => tooDeep
  | fuel + 1 => do
    let cond ← subExpr fuel 0
    expectWord "then"
    let yes ← block fuel false none
    if ← testWord "elseif" then
      let no ← ifStat fuel line
      return .branch cond yes [no] line
    else if ← testWord "else" then
      let no ← block fuel false none
      closeWord "end" "if" line
      return .branch cond yes no line
    else
      closeWord "end" "if" line
      return .branch cond yes [] line

/-- A loop over numbers or over what a function gives, its first word taken. -/
def forStat (fuel : Nat) (line : Nat) : Parse Stat :=
  match fuel with
  | 0 => tooDeep
  | fuel + 1 => do
    let exit ← freshLabel
    enterBlock true
    let name ← takeName
    let base := (← get).scope.level
    let hidden : Active := ⟨Text.bytes "(for state)", .plain⟩
    match ← peek with
    | .sign "=" =>
      advance
      let start ← subExpr fuel 0
      expectSign ","
      let limit ← subExpr fuel 0
      let step ← if ← testSign "," then subExpr fuel 0 else pure (.int 1)
      activate [hidden, hidden, hidden]
      expectWord "do"
      enterBlock false
      activate [⟨name, .plain⟩]
      let body ← block fuel false none
      leaveBlock none
      closeWord "end" "for" line
      leaveBlock (some exit)
      return .numericFor base start limit step body exit line
    | .sign "," | .word "in" =>
      let names ← moreNames fuel
      expectWord "in"
      let exprLine ← currentLine
      let exprs ← exprList fuel
      activate [hidden, hidden, hidden, hidden]
      noteClose
      expectWord "do"
      enterBlock false
      activate ((name :: names).map fun n => ⟨n, .plain⟩)
      let body ← block fuel false none
      leaveBlock none
      closeWord "end" "for" line
      leaveBlock (some exit)
      return .genericFor base (names.length + 1) exprs body exit exprLine
    | _ => failNear "'=' or 'in' expected"

/-- Further names behind commas. -/
def moreNames (fuel : Nat) : Parse (List Bytes) :=
  match fuel with
  | 0 => tooDeep
  | fuel + 1 => do
    if ← testSign "," then
      let name ← takeName
      return name :: (← moreNames fuel)
    else return []

/-- A function with a name, its first word taken. -/
def functionStat (fuel : Nat) (line : Nat) : Parse (List Stat) :=
  match fuel with
  | 0 => tooDeep
  | fuel + 1 => do
    let first ← takeName
    let target ← functionName fuel (← nameExpr first)
    let (target, isMethod) ←
      if ← testSign ":" then
        let name ← takeName
        pure (Expr.index target (.str name) (← lastLine), true)
      else pure (target, false)
    let index ← functionBody fuel isMethod line
    checkAssignable target
    return [.assign [target] [.function index] (← get).scope.level line]

/-- Fields behind the name of a function. -/
def functionName (fuel : Nat) (e : Expr) : Parse Expr :=
  match fuel with
  | 0 => tooDeep
  | fuel + 1 => do
    if ← testSign "." then
      let name ← takeName
      functionName fuel (.index e (.str name) (← lastLine))
    else return e

/-- New variables, the word in front taken. -/
def localStat (fuel : Nat) : Parse (List Stat) :=
  match fuel with
  | 0 => tooDeep
  | fuel + 1 => do
    let vars ← localNames fuel none 0
    let exprs ← if ← testSign "=" then exprList fuel else pure []
    let line ← lastLine
    let first := (← get).scope.level
    activate vars
    match vars.findIdx? fun v => v.usage == .close with
    | some i =>
      noteClose
      let name := ((vars[i]?).map (·.name)).getD envName
      return [.locals first vars.length exprs line, .toBeClosed (first + i) name line]
    | none => return [.locals first vars.length exprs line]

/-- Names of new variables and what may be done with them; at most one is to be closed. -/
def localNames (fuel : Nat) (closing : Option Nat) (i : Nat) : Parse (List Active) :=
  match fuel with
  | 0 => tooDeep
  | fuel + 1 => do
    let name ← takeName
    let usage ←
      if ← testSign "<" then
        let word ← takeName
        expectSign ">"
        if word == Text.bytes "const" then pure Usage.constant
        else if word == Text.bytes "close" then pure Usage.close
        else
          failPlain (Text.bytes "unknown attribute '" ++ word ++ Text.bytes "'")
      else pure Usage.plain
    let closing ←
      if usage == .close then
        match closing with
        | some _ => failPlain (Text.bytes "multiple to-be-closed variables in local list")
        | none => pure (some i)
      else pure closing
    let var : Active := ⟨name, usage⟩
    if ← testSign "," then return var :: (← localNames fuel closing (i + 1)) else return [var]

/-- A label, its name taken. -/
def labelStat (fuel : Nat) (name : Bytes) (line : Nat) : Parse (List Stat) :=
  match fuel with
  | 0 => tooDeep
  | fuel + 1 => do
    expectSign "::"
    skipVoid fuel
    match (← get).scope.labels.find? fun l => l.name == name with
    | some l =>
      failPlain (Text.bytes "label '" ++ name ++ Text.bytes "' already defined on line "
        ++ Text.bytes (toString l.line))
    | none =>
      let id ← freshLabel
      let last ← endsBlock false
      let scope := (← get).scope
      -- At the end of its block a label is outside the scope of the block's variables.
      let level := match last, scope.blocks with
        | true, b :: _ => b.level
        | _, _ => scope.level
      let label : Label := ⟨name, id, line, level⟩
      modifyScope fun s => { s with labels := label :: s.labels }
      settlePending label
      return [.label id]

/-- Statements that do nothing, behind a label. -/
def skipVoid (fuel : Nat) : Parse Unit :=
  match fuel with
  | 0 => tooDeep
  | fuel + 1 => do
    if ← testSign ";" then skipVoid fuel else return

/-- A jump, its label's name taken. -/
def gotoStat (name : Bytes) (line : Nat) : Parse (List Stat) := do
  let scope := (← get).scope
  match scope.labels.find? fun l => l.name == name with
  | some l =>
    let inner := scope.blocks.any fun b => b.closes
    let jump ← freshJump ⟨l.id, l.level, inner⟩
    return [.goto jump line]
  | none =>
    let jump ← freshJump default
    modifyScope fun s =>
      { s with pending := ⟨name, jump, line, s.level, false⟩ :: s.pending }
    return [.goto jump line]

/-- The values a function gives back. -/
def returnStat (fuel : Nat) : Parse Stat :=
  match fuel with
  | 0 => tooDeep
  | fuel + 1 => do
    let line ← currentLine
    advance
    let ended ← endsBlock true
    let exprs ← if ended then pure [] else if ← isSign ";" then pure [] else exprList fuel
    let _ ← testSign ";"
    let inside := match (← get).scope.blocks with
      | b :: _ => b.insideClose
      | [] => false
    let tail := match exprs with
      | [.call ..] | [.method ..] => !inside
      | _ => false
    return .return exprs tail line

/-- A call or an assignment. -/
def exprStat (fuel : Nat) : Parse (List Stat) :=
  match fuel with
  | 0 => tooDeep
  | fuel + 1 => do
    let e ← suffixedExpr fuel
    let assigns ← if ← isSign "=" then pure true else isSign ","
    if assigns then
      let targets ← assignTargets fuel e
      let exprs ← exprList fuel
      return [.assign targets exprs (← get).scope.level (← lastLine)]
    else
      match e with
      | .call .. | .method .. => return [.call e]
      | _ => failNear "syntax error"

/-- The targets of an assignment up to and with the equals sign. -/
def assignTargets (fuel : Nat) (e : Expr) : Parse (List Expr) :=
  match fuel with
  | 0 => tooDeep
  | fuel + 1 => do
    match e with
    | .variable .. | .index .. =>
      checkAssignable e
      if ← testSign "," then
        let next ← suffixedExpr fuel
        return e :: (← assignTargets fuel next)
      else
        expectSign "="
        return [e]
    | _ => failNear "syntax error"

end

/-- The main function of a program: it takes any arguments, and captures the environment. -/
def mainFunction (fuel : Nat) : Parse Unit := do
  modifyScope fun s => { s with
    isVararg := true, captures := #[⟨envName, .plain, .slot 0⟩] }
  enterBlock false
  let body ← statements fuel
  let close ← closing 0
  match ← peek with
  | .eof => pure ()
  | _ => failNear "<eof> expected"
  let _ ← closeFunction 0 (body ++ close)

/-- The program of a text. -/
def parse (chunk source : Bytes) : Except SyntaxFault Program := do
  let (lexemes, fault) := Lexer.scan source
  match lexemes, fault with
  | [], some e => .error e
  | [], none => .error ⟨1, Text.bytes "no program"⟩
  | l :: rest, fault =>
    let start : State := { current := l, rest, fault }
    let (_, s) ← (mainFunction (8 * lexemes.length + 64)).run start
    return { chunk, functions := s.functions }

end ScriptWarden.Lua.Parser
