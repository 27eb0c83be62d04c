import ScriptWarden.Event
import ScriptWarden.Script.Error
set_option autoImplicit false

/-!
# Script: running

The host runs a chunk or the functions registered for an event, with or without an allowance of
instructions.
-/

namespace ScriptWarden.Script

open Bridge (Registry)
open Lua (Bytes Collector Machine Natives Thrown Value World)
open Package (Services)
open Trust (Effective Policy)

variable {κ : Type}

/-- The world that a script of a package runs in. -/
abbrev Vm (κ : Type) := World (Services κ)

/-- What running gives. -/
abbrev Result (κ α : Type) := Except Error α × Vm κ

/-- What a script runs under: the types it meets, the trust in force, how many steps are made before a
run is given up, and the collector. -/
structure Setting (κ : Type) where
  registry : Registry κ
  policy : Policy
  fuel : Nat
  collector : Collector := fun _ => none

/-- What native functions do in a setting. -/
def Setting.natives (s : Setting κ) : Natives (Services κ) :=
  Bridge.natives s.registry s.policy s.collector

/-! ## Calls -/

/-- Errors in finding the text of an error that are followed. -/
def textDepth : Nat := 16

/-- A machine that finds the text of a value that was thrown. -/
def textMachine (v : Value) (w : Vm κ) : Machine (Services κ) :=
  Machine.ofNative (do return [.str (← (Lua.Access.text v).lift)]) w

/-- What the host learns of something that was thrown. -/
def errorOf (s : Setting κ) (depth : Nat) (t : Thrown) (w : Vm κ) : Error × Vm κ :=
  if t.outOfMemory then (.memory, w)
  else
    match t.value with
    | .raised id =>
      let e := w.heap.raised[id]?.getD default
      (.refused (Text.lossy e.message) (Text.lossy e.origin), w)
    | v =>
      match depth with
      | 0 => (.exhausted, w)
      | depth + 1 =>
        let m := Machine.run s.natives s.fuel (textMachine v w)
        match m.answer? with
        | some (.values vs) =>
          let text := (vs.headD .nil).toBytes?.getD ByteArray.empty
          (.raised (Text.lossy (Bridge.beforeZero text)), m.world)
        | some (.raised t) => errorOf s depth t m.world
        | none => (.exhausted, m.world)

/-- Run a machine to its end. -/
def finish (s : Setting κ) (m : Machine (Services κ)) : Result κ (List Value) :=
  let m := Machine.run s.natives s.fuel m
  match m.answer? with
  | some (.values vs) => (.ok vs, m.world)
  | some (.raised t) =>
    let (e, w) := errorOf s textDepth t m.world
    (.error e, w)
  | none => (.error .exhausted, m.world)

/-- Call a value. -/
def call (s : Setting κ) (f : Value) (args : List Value) (w : Vm κ) : Result κ (List Value) :=
  finish s (Machine.ofCall f args w)

/-- Run a chunk. -/
def chunk (s : Setting κ) (name source : Bytes) (w : Vm κ) : Result κ (List Value) :=
  match Bridge.nameFault? name with
  | some message => (.error (.host ("runtime error: " ++ message)), w)
  | none =>
    let ⟨h, host, meter⟩ := w
    match Lua.Library.loadSource name source none h with
    | (.error message, h) => (.error (.malformed (Text.lossy message)), ⟨h, host, meter⟩)
    | (.ok f, h) => call s f [] ⟨h, host, meter⟩

/-- Start a module of the package. -/
def startModule (s : Setting κ) (given : String) (w : Vm κ) : Result κ Unit :=
  let name := Bridge.moduleOf given
  let ⟨h, host, meter⟩ := w
  let (source, host) := Bridge.takeModule name host
  match source with
  | none => (.error (.host ("runtime error: " ++ Bridge.unknownModule name)), ⟨h, host, meter⟩)
  | some source =>
    let (r, w) := chunk s (Text.bytes name) (Text.bytes source) ⟨h, host, meter⟩
    (r.map fun _ => (), w)

/-- Let go of everything that a world holds.  No allowance bounds what finalizers do; without any nothing runs. -/
def release (s : Setting κ) (w : Vm κ) : Result κ Unit :=
  if w.heap.marked.isEmpty then (.ok (), w)
  else
    let m := Machine.run s.natives s.fuel (Machine.ofClose s.collector w)
    (if m.answer?.isSome then .ok () else .error .exhausted, m.world)

/-! ## Allowances -/

/-- The instructions that a value of trust allows: at least the one that is not run. -/
def allowance : Effective → Nat
  | some n => if 0 < n then n.toNat else 1
  | none => 1

/-- The meter of a phase. -/
def meterOf (phase : Phase) (budget : Effective) : Lua.Meter :=
  let limit := allowance budget
  { limit, left := limit
    message := phase.name ++ " instruction limit exceeded (" ++ toString limit ++ ")" }

/-- Do something under an allowance of instructions. -/
def limited {α : Type} (phase : Phase) (budget : Effective) (run : Vm κ → Result κ α) (w : Vm κ) :
    Result κ α :=
  let ⟨h, host, _⟩ := w
  let (r, w) := run ⟨h, host, some (meterOf phase budget)⟩
  let ⟨h, host, _⟩ := w
  (r, ⟨h, host, none⟩)

/-! ## Events -/

/-- Call functions in order, up to the first that fails. -/
def callEach (s : Setting κ) (args : List Value) : List Value → Vm κ → Result κ Unit
  | [], w => (.ok (), w)
  | f :: rest, w =>
    match call s f args w with
    | (.ok _, w) => callEach s args rest w
    | (.error e, w) => (.error e, w)

/-- Call the functions registered for a name; gives their number. -/
def fire (s : Setting κ) (name : String) (args : List Value) (w : Vm κ) : Result κ Nat :=
  let callbacks := w.host.callbacks[name]?.getD []
  match callEach s args callbacks w with
  | (.ok (), w) => (.ok callbacks.length, w)
  | (.error e, w) => (.error e, w)

/-- What the functions of an event are called with. -/
def eventArguments : Event → List Value
  | .tick => []
  | .render delta => [.float delta]
  | .networkResponse id status body =>
    [if id < 0x8000000000000000 then .nat id else .float (Float.ofNat id), .nat status, .text body]

end ScriptWarden.Script
