import ScriptWarden.Lua.Value
set_option autoImplicit false

/-!
# Lua: programs

A program is a list of functions, the main one last.  Names are already resolved: a variable is a slot of
its function, a variable of an enclosing function that was captured, or a field of the environment.
-/

namespace ScriptWarden.Lua

/-- Where a variable lives. -/
inductive Place where
  /-- A slot of the running function. -/
  | slot (i : Nat)
  /-- One of the captured variables of the running function. -/
  | captured (i : Nat)
  deriving DecidableEq, Repr, Inhabited

/-- Comparisons. -/
inductive Comparison where
  | eq
  | ne
  | lt
  | le
  | gt
  | ge
  deriving DecidableEq, Repr, Inhabited

mutual

/-- An expression.  Lines are those that an error in its evaluation is reported for. -/
inductive Expr where
  | nil
  | bool (b : Bool)
  | int (n : Int64)
  | float (x : Float)
  | str (s : Bytes)
  | vararg
  /-- A function of the program, by its number. -/
  | function (index : Nat)
  | variable (place : Place) (name : Bytes)
  | index (obj key : Expr) (line : Nat)
  | call (f : Expr) (args : List Expr) (line : Nat)
  | method (obj : Expr) (name : Bytes) (nameLine : Nat) (args : List Expr) (line : Nat)
  | arith (op : Arith) (a b : Expr) (line : Nat)
  | concat (a b : Expr) (line : Nat)
  | compare (op : Comparison) (a b : Expr) (line : Nat)
  | and (a b : Expr)
  | or (a b : Expr)
  | not (a : Expr)
  | len (a : Expr) (line : Nat)
  | table (items : List Item)
  /-- Brackets: exactly one value. -/
  | paren (e : Expr)

/-- An entry of a table constructor. -/
inductive Item where
  | positional (e : Expr)
  | keyed (key value : Expr) (line : Nat)

end

instance : Inhabited Expr := ⟨.nil⟩

/-- Can the expression have other than one value? -/
def Expr.isOpen : Expr → Bool
  | .call .. | .method .. | .vararg => true
  | _ => false

/-- A jump: where to, and whether to-be-closed variables are left on the way. -/
structure Jump where
  label : Nat
  /-- Variables from this slot on are left. -/
  level : Nat
  closes : Bool
  deriving Repr, Inhabited

/-- A statement. -/
inductive Stat where
  /-- New variables in slots from `first` on. -/
  | locals (first count : Nat) (exprs : List Expr) (line : Nat)
  /-- The variable must be closed when its block is left. -/
  | toBeClosed (slot : Nat) (name : Bytes) (line : Nat)
  | assign (targets exprs : List Expr) (free line : Nat)
  | call (e : Expr)
  /-- Close variables from the slot on. -/
  | close (slot line : Nat)
  | block (body : List Stat)
  | while (cond : Expr) (body : List Stat) (exit line : Nat)
  | repeat (body : List Stat) (cond : Expr) (level : Nat) (closes : Bool) (exit line : Nat)
  | branch (cond : Expr) (yes no : List Stat) (line : Nat)
  /-- Three hidden slots and the variable from `base` on. -/
  | numericFor (base : Nat) (start limit step : Expr) (body : List Stat) (exit line : Nat)
  /-- Four hidden slots and the variables from `base` on. -/
  | genericFor (base count : Nat) (exprs : List Expr) (body : List Stat) (exit line : Nat)
  | localFunction (slot index line : Nat)
  | return (exprs : List Expr) (tail : Bool) (line : Nat)
  | goto (id line : Nat)
  | label (id : Nat)

instance : Inhabited Stat := ⟨.block []⟩

/-- A function of a program. -/
structure FunctionBody where
  params : Nat
  isVararg : Bool
  /-- Where its captured variables come from, seen from the function around it. -/
  captures : Array Place
  body : List Stat
  /-- The label that each jump of the body leads to. -/
  jumps : Array Jump
  labels : Nat
  line : Nat
  endLine : Nat
  deriving Inhabited

/-- A program under its name; the last function is the main one. -/
structure Program where
  chunk : Bytes
  functions : Array FunctionBody
  deriving Inhabited

end ScriptWarden.Lua
