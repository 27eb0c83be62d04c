import ScriptWarden.Proofs.Bridge.Forward
import ScriptWarden.Proofs.Script.Scope
set_option autoImplicit false

/-!
# Scripts: the ceiling of instructions

The allowance of a scope is what runs up to the first stop.  A stop that no script catches ends the scope with
the error of its phase; after one that is caught the allowance begins anew.
-/

namespace ScriptWarden.Script

open Api (Thing)
open Lua (Machine Meter Value)
open Package (Terms)
open Trust (Effective Policy)

/-! ## The ceiling -/

/-- What the host learns when the allowance of a phase is used up, in a script at some place. -/
def ceilingError (phase : Phase) (budget : Effective) (place : String) : Error :=
  .refused (Text.lossy (Machine.hostText (meterOf phase budget).message)) place

/-- The meter of a state of a scope. -/
theorem Scope.Reaches.meter {t : Terms} {policy : Policy} {phase : Phase} {budget : Effective}
    {scope : Scope} {w : Vm Thing} {m : Machine Api.Services} {left : Nat}
    (h : scope.Reaches (t.setting policy) w m left) (hmeter : w.meter = some (meterOf phase budget)) :
    ∃ meter, m.world.meter = some meter ∧ meter.message = (meterOf phase budget).message := by
  obtain ⟨f, args, w', steps, hcalls, rfl, -⟩ := h
  obtain ⟨before, hbefore, haccount, -, hmessage⟩ :=
    hcalls.keeps _ hmeter (accounted_meterOf phase budget)
  obtain ⟨meter, hmeter, -, -, hmessage'⟩ :=
    run_keeps t policy steps (fun hR => Machine.within_ofCall hR f args w') _ hbefore haccount
  exact ⟨meter, hmeter, hmessage'.trans hmessage⟩

section Uncaught

variable (t : Terms) (policy : Policy) (phase : Phase) (budget : Effective)

/-- There was no stop so far. -/
def Running (w : Vm Thing) : Prop :=
  ∃ m, w.meter = some m ∧ m.Accounted ∧ m.limit = allowance budget ∧
    m.message = (meterOf phase budget).message ∧ m.stops = 0

/-- There was one stop, and nothing ran after it. -/
def Halted (w : Vm Thing) : Prop :=
  ∃ m, w.meter = some m ∧ m.Accounted ∧ m.limit = allowance budget ∧ m.stops = 1 ∧ m.left = m.limit

/-- What follows from a result: there was no stop, or the one stop is the error. -/
def Settled {α : Type} (r : Result Thing α) : Prop :=
  Running phase budget r.2 ∨
    (Halted budget r.2 ∧ ∃ place, r.1 = .error (ceilingError phase budget place))

variable {t policy phase budget}

theorem Settled.running {α : Type} {a : α} {w : Vm Thing}
    (h : Settled phase budget (Except.ok a, w)) : Running phase budget w := by
  obtain hrunning | ⟨-, place, herror⟩ := h
  · exact hrunning
  · cases herror

theorem Settled.map {α β : Type} {r : Result Thing α} (h : Settled phase budget r) (f : α → β) :
    Settled phase budget (r.1.map f, r.2) := by
  obtain hrunning | ⟨hhalted, place, herror⟩ := h
  · exact .inl hrunning
  · exact .inr ⟨hhalted, place, congrArg (Except.map f) herror⟩

variable {scope : Scope} {w : Vm Thing}

end Uncaught

/-- A function without variables that runs some code. -/
def closureOf (code : List Lua.Instr) (filled : 0 < code.toArray.size := by simp) : Lua.Closure :=
  { (default : Lua.Closure) with proto := { (default : Lua.Proto) with code := code.toArray, filled } }

/-- A function that does not end. -/
def endless : Lua.Heap := { closures := #[closureOf [.jump 0]] }

end ScriptWarden.Script
