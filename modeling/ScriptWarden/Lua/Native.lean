import ScriptWarden.Lua.Heap
set_option autoImplicit false

/-!
# Lua: native functions

A native function works on the heap and on the state of the host, and it may ask for a call of another
function.  It does not make the call: it says what it wants and how it goes on with the answer, so that
the machine keeps every activation on one stack.
-/

namespace ScriptWarden.Lua

/-- How many instructions may run. -/
structure Meter where
  limit : Nat
  /-- Instructions up to the next stop, that one included. -/
  left : Nat
  /-- What a stop says. -/
  message : String
  /-- Instructions that ran. -/
  ran : Nat := 0
  /-- How often there was a stop. -/
  stops : Nat := 0
  /-- How often a stop came due while a finalizer ran, which nothing stops. -/
  missed : Nat := 0
  deriving Repr, Inhabited

/-- Everything that a function can change: the heap, and the state `host` of the program around it. -/
structure World (σ : Type) where
  heap : Heap
  host : σ
  /-- Without a meter scripts run on. -/
  meter : Option Meter := none

/-- Something that was thrown. -/
structure Thrown where
  value : Value
  /-- There was no room left. -/
  outOfMemory : Bool := false
  /-- The handler of messages has seen it. -/
  handled : Bool := false
  deriving Inhabited

/-- What stops a native function. -/
inductive Fault where
  | value (v : Value)
  /-- The text follows the place of the function that runs, if it is a script. -/
  | here (message : Bytes)
  /-- The text follows the place of a caller, counted from one. -/
  | above (level : Nat) (message : Bytes)
  /-- An argument is refused. -/
  | argument (index : Nat) (message : Bytes)
  | memory
  | rethrow (t : Thrown)
  deriving Inhabited

/-- A call that a native function asks for. -/
inductive Query where
  | call (f : Value) (args : List Value)
  /-- A call whose errors come back as answers; a handler sees them first. -/
  | guarded (f : Value) (args : List Value) (handler : Option Value)
  deriving Inhabited

/-- What became of a call. -/
inductive Answer where
  | values (vs : List Value)
  | raised (t : Thrown)
  deriving Inhabited

/-- What a native function does next. -/
inductive Outcome (σ α : Type) where
  | done (a : α) (w : World σ)
  | fail (fault : Fault) (w : World σ)
  | ask (query : Query) (resume : Answer → World σ → Outcome σ α) (w : World σ)

/-- Go on with the result. -/
def Outcome.bind {σ α β : Type} (o : Outcome σ α) (k : α → World σ → Outcome σ β) : Outcome σ β :=
  match o with
  | .done a w => k a w
  | .fail f w => .fail f w
  | .ask q resume w => .ask q (fun answer w => (resume answer w).bind k) w

/-- What a function does next that knows nothing of a host, in a program with a host and a meter. -/
def Outcome.lift {σ α : Type} (host : σ) (meter : Option Meter) (o : Outcome Unit α) : Outcome σ α :=
  match o with
  | .done a ⟨h, _, _⟩ => .done a ⟨h, host, meter⟩
  | .fail f ⟨h, _, _⟩ => .fail f ⟨h, host, meter⟩
  | .ask q resume ⟨h, _, _⟩ =>
    .ask q (fun answer ⟨h, host, meter⟩ => (resume answer ⟨h, (), none⟩).lift host meter)
      ⟨h, host, meter⟩

/-- A native function. -/
def Native (σ α : Type) : Type := World σ → Outcome σ α

namespace Native

variable {σ α : Type}

instance : Monad (Native σ) where
  pure a := fun w => .done a w
  bind x k := fun w => (x w).bind k

/-- A function that knows nothing of a host, in a program with one: it sees the heap alone. -/
def lift (n : Native Unit α) : Native σ α := fun w =>
  let ⟨h, host, meter⟩ := w
  (n ⟨h, (), none⟩).lift host meter

/-- Look something up in the heap. -/
@[inline] def heap (f : Heap → α) : Native σ α := fun w => .done (f w.heap) w

/-- Change the heap. -/
@[inline] def modifyHeap (f : Heap → Heap) : Native σ Unit := fun w =>
  let ⟨h, host, meter⟩ := w
  .done () ⟨f h, host, meter⟩

/-- Make something new in the heap. -/
@[inline] def create (f : Heap → α × Heap) : Native σ α := fun w =>
  let ⟨h, host, meter⟩ := w
  let (a, h) := f h
  .done a ⟨h, host, meter⟩

/-- Change the state of the host. -/
@[inline] def host (f : σ → α × σ) : Native σ α := fun w =>
  let ⟨h, host, meter⟩ := w
  let (a, host) := f host
  .done a ⟨h, host, meter⟩

/-- Stop. -/
def fail (fault : Fault) : Native σ α := fun w => .fail fault w

/-- Stop with a text behind the place of the running script. -/
def failHere (message : Bytes) : Native σ α := fail (.here message)

/-- Stop with a text behind the place of the calling script. -/
def failText (message : String) : Native σ α := fail (.above 1 (Text.bytes message))

/-- Refuse an argument. -/
def failArgument (index : Nat) (message : String) : Native σ α :=
  fail (.argument index (Text.bytes message))

/-- Call a function. -/
def call (f : Value) (args : List Value) : Native σ (List Value) := fun w =>
  .ask (.call f args) (fun answer w =>
    match answer with
    | .values vs => .done vs w
    | .raised t => .fail (.rethrow t) w) w

/-- Call a function for its first result. -/
def call1 (f : Value) (args : List Value) : Native σ Value := do
  let vs ← call f args
  return vs.headD .nil

/-- Call a function and take its errors as answers. -/
def guarded (f : Value) (args : List Value) (handler : Option Value) : Native σ Answer := fun w =>
  .ask (.guarded f args handler) (fun answer w => .done answer w) w

/-- Make a string of a size that is known before it is made. -/
def makeString (size : Nat) (make : Unit → Bytes) : Native σ Value := fun w =>
  let tooMuch : Bool :=
    match w.heap.limit with
    | some limit => limit < size
    | none => false
  if tooMuch then .fail .memory w
  else
    let s := make ()
    let ⟨h, host, meter⟩ := w
    .done (.str s) ⟨h.noteString s, host, meter⟩

/-- Make a string. -/
def newString (s : Bytes) : Native σ Value := makeString s.size fun _ => s

end Native

end ScriptWarden.Lua
