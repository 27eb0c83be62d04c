import ScriptWarden.Lua.Ast
set_option autoImplicit false

/-!
# Lua: code

What a function is run as: instructions that work on the slots of the function and on a stack of
intermediate values.  An operand is read when the instruction runs, so that a variable that an operand
on its right changes is seen with its new value.
-/

namespace ScriptWarden.Lua

/-- What an operand is called in messages. -/
inductive Origin where
  | unknown
  | localVar (name : Bytes)
  | upvalue (name : Bytes)
  | globalVar (name : Bytes)
  | field (name : Bytes)
  | method (name : Bytes)
  | constant (name : Bytes)
  | iterator
  deriving Inhabited

/-- The kind of an origin, and the name it has. -/
def Origin.parts? : Origin → Option (String × Bytes)
  | .unknown => none
  | .localVar n => some ("local", n)
  | .upvalue n => some ("upvalue", n)
  | .globalVar n => some ("global", n)
  | .field n => some ("field", n)
  | .method n => some ("method", n)
  | .constant n => some ("constant", n)
  | .iterator => some ("for iterator", Text.bytes "for iterator")

/-- An origin behind the description of a value. -/
def Origin.suffix (o : Origin) : Bytes :=
  match o.parts? with
  | none => ByteArray.empty
  | some (kind, name) => Text.bytes (" (" ++ kind ++ " '") ++ name ++ Text.bytes "')"

/-- An operand. -/
inductive Operand where
  | const (v : Value)
  | slot (i : Nat)
  | captured (i : Nat)
  /-- The top of the stack, which it leaves. -/
  | top
  deriving Inhabited

/-- How many values are wanted. -/
inductive Want where
  | exactly (n : Nat)
  /-- As many as there are; they wait beside the stack for the next instruction. -/
  | all
  deriving DecidableEq, Repr, Inhabited

/-- An instruction. -/
inductive Instr where
  | push (a : Operand)
  | pop (n : Nat)
  /-- A new variable in a slot, with the value on top of the stack. -/
  | declare (slot : Nat)
  /-- Change a variable to the value on top of the stack. -/
  | assign (place : Place)
  | index (obj key : Operand) (origin : Origin)
  | store (obj key value : Operand) (origin : Origin)
  | arith (op : Arith) (a b : Operand) (oa ob : Origin)
  | concat (oa ob : Origin)
  | compare (op : Comparison) (a b : Operand)
  | not (a : Operand)
  | len (a : Operand) (origin : Origin)
  | jump (target : Nat)
  /-- Jump if an operand is as true as `sense`. -/
  | branch (a : Operand) (sense : Bool) (target : Nat)
  /-- Jump and keep the top of the stack if it is as true as `sense`, else drop it. -/
  | keepOr (sense : Bool) (target : Nat)
  /-- Call the function below `args` arguments, and the waiting ones if `isOpen`. -/
  | call (args : Nat) (isOpen : Bool) (want : Want) (origin : Origin)
  | tailCall (args : Nat) (isOpen : Bool) (origin : Origin)
  /-- Push a method of an object and the object. -/
  | method (obj : Operand) (name : Bytes) (origin : Origin)
  | vararg (want : Want)
  | return (count : Nat) (isOpen : Bool)
  | closure (index : Nat)
  | newTable
  /-- Set a field of the table under the operands, which stays. -/
  | initField (key value : Operand)
  /-- Set the fields from `first` on of the table under the values, which stays. -/
  | initList (first count : Nat) (isOpen : Bool)
  /-- Begin a loop over numbers: start, limit and step are on the stack. -/
  | numericStart (base exit : Nat)
  | numericNext (base body : Nat)
  /-- Begin a loop over what a function gives: four values are on the stack. -/
  | genericStart (base : Nat)
  /-- Call the function of a loop. -/
  | genericCall (base count : Nat)
  /-- Take what it gave, or leave the loop. -/
  | genericNext (base count exit : Nat)
  | toBeClosed (slot : Nat) (name : Bytes)
  | close (slot : Nat)
  deriving Inhabited

/-- A function ready to run. -/
structure Proto where
  code : Array Instr
  /-- The line of each instruction. -/
  lines : Array Nat
  params : Nat
  isVararg : Bool
  captures : Array Place
  slots : Nat
  line : Nat
  /-- There is something to run, if only the return at the end. -/
  filled : 0 < code.size := by decide

instance : Inhabited Proto :=
  ⟨{ code := #[.return 0 false], lines := #[0], params := 0, isVararg := false, captures := #[], slots := 0
     line := 0 }⟩

/-- A program ready to run; the last function is the main one. -/
structure Image where
  chunk : Bytes
  /-- How positions name the chunk. -/
  shownName : Bytes
  protos : Array Proto
  deriving Inhabited

end ScriptWarden.Lua
