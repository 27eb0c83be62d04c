import ScriptWarden.Package.Instance
set_option autoImplicit false

/-!
# The fleet

All packages of a host, by name, under one policy.  A failure of one package is reported and stops no
other.  A package that is loaded under the name of another replaces it.
-/

namespace ScriptWarden

open Package (Effect Instance Outcome Source Terms)
open Trust (Policy)

/-- The packages of a host. -/
structure Fleet where
  terms : Terms
  policy : Policy
  packages : Std.ExtTreeMap String Instance := ∅
  /-- The loads so far. -/
  loads : Nat := 0
  /-- What happened for the world outside, the latest first. -/
  outbox : List Effect := []

namespace Fleet

/-! ## The outbox -/

/-- A line for the operator. -/
def note (f : Fleet) (d : Diagnostic) : Fleet := { f with outbox := .notice d :: f.outbox }

/-- Take everything out of the outbox, the oldest first. -/
def drain (f : Fleet) : List Effect × Fleet := (f.outbox.reverse, { f with outbox := [] })

/-- Put an instance among the packages; what it has for the world outside goes into the outbox. -/
def put (f : Fleet) (i : Instance) : Fleet :=
  let ⟨terms, policy, packages, loads, outbox⟩ := f
  let ⟨source, stage, heap, services, lastError⟩ := i
  let (effects, services) := services.drain
  ⟨terms, policy, packages.insert source.name ⟨source, stage, heap, services, lastError⟩, loads,
    effects.reverse ++ outbox⟩

/-- Say what an instance has for the world outside, and forget it. -/
def bury (f : Fleet) (i : Instance) : Fleet :=
  { f with outbox := i.services.drain.1.reverse ++ f.outbox }

/-- Take a package out. -/
def take (f : Fleet) (name : String) : Option Instance × Fleet :=
  match f.packages[name]? with
  | some i => (some i, { f with packages := f.packages.erase name })
  | none => (none, f)

/-! ## Loading -/

/-- A host without packages. -/
def new (terms : Terms) (policy : Policy) : Fleet :=
  let f : Fleet := { terms, policy }
  f.note (.info ("[engine] bridge ready with " ++ toString Api.surface.types.size ++ " type(s)"))

/-- Unload a package and forget it. -/
def unload (f : Fleet) (name : String) : Except Failure Unit × Fleet :=
  match f.take name with
  | (some i, f) => (.ok (), f.bury (i.unload (f.terms.setting f.policy)))
  | (none, f) => (.error (.unknownPackage name), f)

/-- Unload every package. -/
def unloadAll (f : Fleet) : Fleet :=
  f.packages.keys.foldl (fun f name => (f.unload name).2) f

/-- Load a package and start it.  It is kept even if it fails, to be asked what went wrong. -/
def load (f : Fleet) (source : Source) : Except Failure Unit × Fleet :=
  let f :=
    if f.packages.contains source.name then
      ((f.note (.info ("[engine] reloading '" ++ source.name ++ "'"))).unload source.name).2
    else f
  let (result, i) := (Instance.new f.terms f.policy f.loads source).start f.terms f.policy
  (result, { f with loads := f.loads + 1 }.put i)

/-! ## Events -/

/-- Do something with one package if it runs; adds to the failures. -/
def onRunning (run : Instance → Outcome) (name : String) (acc : List Failure × Fleet) :
    List Failure × Fleet :=
  let (failures, f) := acc
  match f.take name with
  | (some i, f) =>
    if i.stage = .running then
      match run i with
      | (.ok (), i) => (failures, f.put i)
      | (.error e, i) => (failures ++ [e], f.put i)
    else (failures, f.put i)
  | (none, f) => (failures, f)

/-- Do something with every running package, by name; gives the failures. -/
def onEach (f : Fleet) (run : Terms → Policy → Instance → Outcome) : List Failure × Fleet :=
  let run := run f.terms f.policy
  f.packages.keys.foldl (fun acc name => onRunning run name acc) ([], f)

/-- One tick. -/
def tick (f : Fleet) : List Failure × Fleet := f.onEach Instance.tick

/-- One frame. -/
def render (f : Fleet) (delta : Float) : List Failure × Fleet :=
  f.onEach fun terms policy i => i.render terms policy delta

/-- A tick and a frame that starts with it; the operator hears of every failure. -/
def round (f : Fleet) : Fleet :=
  let (ticked, f) := f.tick
  let (rendered, f) := f.render 0
  (ticked ++ rendered).foldl (fun f e => f.note (.warn ("[engine] " ++ e.message))) f

/-! ## Answers to requests -/

/-- The load that sent a request, as long as it is there. -/
def sender? (f : Fleet) (t : Host.Token) : Option Instance :=
  match f.packages[t.package]? with
  | some i => if i.services.generation = t.generation then some i else none
  | none => none

/-- Does the sender of a request still run? -/
def isLive (f : Fleet) (t : Host.Token) : Bool := (f.sender? t).any fun i => i.services.alive

/-- Answer a request; tells if the answer was taken. -/
def answer (f : Fleet) (t : Host.Token) (status : Nat) (body : String) : Bool × Fleet :=
  match f.sender? t with
  | some i =>
    let (taken, mailbox) := i.services.mailbox.deliver ⟨t.request, status, body⟩
    (taken, f.put { i with services := { i.services with mailbox } })
  | none => (false, f)

/-! ## Questions -/

/-- A package by name. -/
def find (f : Fleet) (name : String) : Except Failure Instance :=
  match f.packages[name]? with
  | some i => .ok i
  | none => .error (.unknownPackage name)

/-- The latest lines of a package's log, at most so many. -/
def log (f : Fleet) (name : String) (most : Nat) : Except Failure (List Package.LogEntry) := do
  let entries := (← f.find name).services.log
  return entries.drop (entries.length - most)

end Fleet

end ScriptWarden
