import ScriptWarden.Proofs.Package.Turn
import ScriptWarden.Proofs.Lua.Stop
set_option autoImplicit false

/-!
# Scripts: scopes

A scope is what runs under one allowance of instructions: an entry module with everything it requires, or the
functions registered for an event.  It runs machines one after another (`Scope.Starts`), keeps the account of
its meter, and ends with the first error of a call.
-/

namespace ScriptWarden.Script

open Api (Thing)
open Lua (KeepsAccount Machine Meter Value)
open Package (AdmitsScripts AdmitsTurns Terms)
open Trust (Effective Policy)

@[simp] theorem fuel_setting (t : Terms) (policy : Policy) : (t.setting policy).fuel = t.fuel := rfl

/-! ## Scopes -/

/-- What runs under one allowance of instructions. -/
inductive Scope where
  /-- The entry module, with everything that it requires. -/
  | entry (name : String)
  /-- The functions registered for an event. -/
  | event (name : String) (args : List Value)

variable {κ : Type}

/-- Run a scope. -/
def Scope.run (s : Setting κ) (scope : Scope) (w : Vm κ) : Result κ Unit :=
  match scope with
  | .entry name => startModule s name w
  | .event name args =>
    let (r, w) := fire s name args w
    (r.map fun _ => (), w)

/-- A scope that starts in the world `w` comes to call a value, in some other world. -/
inductive Scope.Calls (s : Setting κ) (w : Vm κ) : Scope → Value → List Value → Vm κ → Prop
  | entry {name source : String} {f : Value} {h : Lua.Heap}
      (hfound : w.host.modules[Bridge.moduleOf name]? = some source)
      (hname : Bridge.nameFault? (Text.bytes (Bridge.moduleOf name)) = none)
      (hload : Lua.Library.loadSource (Text.bytes (Bridge.moduleOf name)) (Text.bytes source) none
        w.heap = (.ok f, h)) :
      Calls s w (.entry name) f [] ⟨h, (Bridge.takeModule (Bridge.moduleOf name) w.host).2, w.meter⟩
  | event {name : String} {args before after : List Value} {f : Value} {w' : Vm κ}
      (hfound : w.host.callbacks[name]?.getD [] = before ++ f :: after)
      (hbefore : callEach s args before w = (.ok (), w')) : Calls s w (.event name args) f args w'

/-- A machine is a state of a scope that starts in the world `w`, with steps left before its run is given
up. -/
def Scope.Reaches (s : Setting κ) (scope : Scope) (w : Vm κ) (m : Machine (Package.Services κ))
    (left : Nat) : Prop :=
  ∃ f args w' steps, scope.Calls s w f args w' ∧
    m = Machine.run s.natives steps (Machine.ofCall f args w') ∧ steps + left = s.fuel

/-- A scope that starts in the world `w` starts a machine: for a call, or to find the text of a value that
nobody caught. -/
inductive Scope.Starts (s : Setting κ) (w : Vm κ) (scope : Scope) :
    Machine (Package.Services κ) → Prop
  | call {f : Value} {args : List Value} {w' : Vm κ} (h : scope.Calls s w f args w') :
      Starts s w scope (Machine.ofCall f args w')
  | text {m : Machine (Package.Services κ)} {t : Lua.Thrown} (h : Starts s w scope m)
      (hraised : (Machine.run s.natives s.fuel m).answer? = some (.raised t))
      (hvalue : ∀ id, t.value ≠ .raised id) :
      Starts s w scope (textMachine t.value (Machine.run s.natives s.fuel m).world)

theorem admits_account (policy : Policy) : AdmitsScripts policy KeepsAccount where
  toAdmits := Lua.admits_keepsAccount
  tick := Lua.keepsAccount_tickMeter
  turn _ _ _ _ _ := Lua.keepsAccount_of_meter rfl

theorem accounted_meterOf (phase : Phase) (budget : Effective) :
    (meterOf phase budget).Accounted := by
  have hpos : 1 ≤ allowance budget := by
    unfold allowance
    split
    · split <;> omega
    · exact Nat.le_refl 1
  exact ⟨by simp [meterOf], hpos, Nat.le_refl _⟩

/-- The account after some steps of a machine. -/
theorem run_keeps (t : Terms) (policy : Policy) (steps : Nat) {m : Machine Api.Services}
    {w : Vm Thing} (hstart : ∀ {R}, Lua.Admits R → m.Within R w) :
    KeepsAccount w (Machine.run (t.setting policy).natives steps m).world :=
  Package.run_rel t (admits_account policy) steps (hstart (admits_account policy).toAdmits)

theorem Scope.Calls.keeps {t : Terms} {policy : Policy} {scope : Scope} {w w' : Vm Thing} {f : Value}
    {args : List Value} (h : scope.Calls (t.setting policy) w f args w') : KeepsAccount w w' := by
  cases h with
  | entry hfound hname hload => exact Lua.keepsAccount_of_meter rfl
  | @event name args before after f w' hfound hbefore =>
    have hcalls := Package.callEach_rel t (admits_account policy) args before w
    rw [hbefore] at hcalls
    exact hcalls

/-! ## How a scope ends -/

/-- An error of the host needs no script to find its text. -/
theorem errorOf_raised {s : Setting κ} {depth id : Nat} {handled : Bool} {w : Vm κ} {e : Lua.Raised}
    (hid : w.heap.raised[id]? = some e) :
    errorOf s depth { value := .raised id, handled } w =
      (.refused (Text.lossy e.message) (Text.lossy e.origin), w) := by
  unfold errorOf
  simp [hid]

theorem callEach_append {s : Setting κ} {args before rest : List Value} {w w' : Vm κ}
    (h : callEach s args before w = (.ok (), w')) :
    callEach s args (before ++ rest) w = callEach s args rest w' := by
  induction before generalizing w with
  | nil =>
    obtain ⟨-, rfl⟩ := Prod.mk.inj h
    rfl
  | cons f before ih =>
    rw [List.cons_append, callEach]
    rw [callEach] at h
    split at h
    · exact ih h
    · cases h

/-- A call that ends with an error ends its scope. -/
theorem Scope.Calls.error {s : Setting κ} {scope : Scope} {w w' : Vm κ} {f : Value}
    {args : List Value} {e : Error} (h : scope.Calls s w f args w')
    (he : (call s f args w').1 = .error e) :
    (scope.run s w).1 = .error e ∧ (scope.run s w).2.meter = (call s f args w').2.meter := by
  cases h with
  | entry hfound hname hload =>
    simp only [Scope.run, startModule, Bridge.takeModule, hfound, chunk, hname, hload]
    exact ⟨congrArg (Except.map fun _ => ()) he, trivial⟩
  | @event name args before after f w' hfound hbefore =>
    cases hcall : call s f args w' with
    | mk r w'' =>
      rw [hcall] at he
      obtain rfl : r = .error e := he
      simp only [Scope.run, fire, hfound, callEach_append hbefore, callEach, hcall]
      exact ⟨rfl, trivial⟩

end ScriptWarden.Script
