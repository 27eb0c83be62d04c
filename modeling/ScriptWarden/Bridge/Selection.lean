import ScriptWarden.Bridge.Argument
import ScriptWarden.Bridge.Signature
set_option autoImplicit false

/-!
# Bridge: choosing a signature

Each signature that accepts the arguments has a score, and the highest score wins if only one signature
has it.  If none accepts them, the report is about the signature that got furthest.
-/

namespace ScriptWarden.Bridge

/-- The score of an argument of just the right type. -/
def exactScore : Nat := 2

/-- The score of an argument that is converted. -/
def convertedScore : Nat := 1

/-- How well an argument fits a type. -/
def matchScore? : ArgType → Argument → Option Nat
  | .integer, .integer _ => some exactScore
  | .integer, .number x => if Argument.isWhole x then some convertedScore else none
  | .number, .number _ => some exactScore
  | .number, .integer _ => some convertedScore
  | .boolean, .boolean _ => some exactScore
  | .string, .string _ => some exactScore
  | .string, .integer _ => some convertedScore
  | .string, .number _ => some convertedScore
  | .vec3, .table (some [_, _, _]) => some exactScore
  | .vec4, .table (some [_, _, _, _]) => some exactScore
  | .object type, .object found _ => if found = type then some exactScore else none
  | .function, .function _ => some exactScore
  | .any, a => if a.isNil then none else some convertedScore
  | _, _ => none

/-- Why a signature does not accept the arguments. -/
inductive Mismatch where
  | tooMany (most got : Nat)
  | missing (index : Nat) (param : Param)
  | wrongType (index : Nat) (param : Param) (got : String)
  deriving DecidableEq, Repr, Inhabited

namespace Mismatch

/-- How far the signature got: the number of the argument that fails, or zero for too many. -/
def place : Mismatch → Nat
  | .tooMany .. => 0
  | .missing index _ => index
  | .wrongType index _ _ => index

/-- The words for a mismatch in a call of a method. -/
def message (method : String) : Mismatch → String
  | .tooMany most got =>
    "bad argument #" ++ toString (most + 1) ++ " to '" ++ method ++ "' (expected at most "
      ++ toString most ++ " arguments, got " ++ toString got ++ ")"
  | .missing index param =>
    "bad argument #" ++ toString index ++ " '" ++ param.name ++ "' to '" ++ method ++ "' (expected "
      ++ param.type.label ++ ", got no value)"
  | .wrongType index param got =>
    "bad argument #" ++ toString index ++ " '" ++ param.name ++ "' to '" ++ method ++ "' (expected "
      ++ param.type.label ++ ", got " ++ got ++ ")"

end Mismatch

/-- The score of the parameters from number `index` on for the arguments left. -/
def scoreFrom (index : Nat) : Signature → List Argument → Except Mismatch Nat
  | [], _ => .ok 0
  | p :: ps, args =>
    let a := args.headD .nil
    if a.isNil then
      if p.isOptional then scoreFrom (index + 1) ps args.tail else .error (.missing index p)
    else
      match matchScore? p.type a with
      | none => .error (.wrongType index p a.label)
      | some n => (scoreFrom (index + 1) ps args.tail).map (n + ·)

/-- The score of a signature, or why it does not accept the arguments. -/
def score (s : Signature) (args : List Argument) : Except Mismatch Nat :=
  if s.length < args.length then .error (.tooMany s.length args.length) else scoreFrom 1 s args

/-- Why no signature is chosen. -/
inductive Refusal where
  | mismatch (m : Mismatch)
  /-- Two signatures, counted from zero, fit equally well. -/
  | ambiguous (first second : Nat)
  /-- There is no signature. -/
  | empty
  deriving DecidableEq, Repr, Inhabited

/-- The words for a refusal of a call of a method. -/
def Refusal.message (method : String) : Refusal → String
  | .mismatch m => m.message method
  | .ambiguous first second =>
    "ambiguous call to '" ++ method ++ "': overloads " ++ toString (first + 1) ++ " and "
      ++ toString (second + 1) ++ " both match"
  | .empty => "no overload of '" ++ method ++ "' accepts these arguments"

/-- The scores of the signatures that accept the arguments, by their number. -/
def accepted (ss : List Signature) (args : List Argument) : List (Nat × Nat) :=
  ss.zipIdx.filterMap fun (s, i) =>
    match score s args with
    | .ok n => some (i, n)
    | .error _ => none

/-- The first of the mismatches that got furthest. -/
def furthest (found : Option Mismatch) : List Mismatch → Option Mismatch
  | [] => found
  | m :: rest =>
    match found with
    | some best => furthest (some (if best.place < m.place then m else best)) rest
    | none => furthest (some m) rest

/-- Why each signature that does not accept the arguments fails. -/
def mismatches (ss : List Signature) (args : List Argument) : List Mismatch :=
  ss.filterMap fun s =>
    match score s args with
    | .ok _ => none
    | .error m => some m

/-- The signature that fits best. -/
def select (ss : List Signature) (args : List Argument) : Except Refusal Nat :=
  let scores := accepted ss args
  let best := scores.foldl (fun n p => max n p.2) 0
  match scores.filter fun p => p.2 = best with
  | [] =>
    match furthest none (mismatches ss args) with
    | some m => .error (.mismatch m)
    | none => .error .empty
  | [(i, _)] => .ok i
  | (i, _) :: (j, _) :: _ => .error (.ambiguous i j)

/-- Arguments without the empty ones at the end. -/
def trimmed (args : List Argument) : List Argument := (args.reverse.dropWhile (·.isNil)).reverse

end ScriptWarden.Bridge
