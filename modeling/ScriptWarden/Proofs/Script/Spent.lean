import ScriptWarden.Proofs.Lua.Below
import ScriptWarden.Proofs.Package.Activity
import ScriptWarden.Proofs.Script.Ceiling
set_option autoImplicit false

/-!
# Scripts: allowances that are spent

An allowance of one instruction is spent before it begins: the instruction that uses it up does not run.  A call of a
script function then only ever comes to its own end (`Halting`), with an error.  Whatever runs in the meantime is a
finalizer, and the function waits below it as it was; where no table has one, nothing runs at all, and nothing is left
of the call outside the memory of the scripts.  So it is with the start of a module, whatever its text is, and with an
event whose first function is one of a script.  A function of the host runs no instruction, and no allowance stops it.
-/

namespace ScriptWarden.Script

open Api (Thing)
open Lua (Activation Answer Frame Machine Outcome Pending Runner Thrown Value World)
open Package (Terms)
open Trust (Effective Policy)

/-! ## Machines -/

section Halting

variable {σ : Type}

/-- Outside the memory of the scripts nothing is different, and they have printed nothing and made no finalizer. -/
structure Untouched (w w' : World σ) : Prop where
  host_eq : w'.host = w.host
  printed_eq : w'.heap.printed = w.heap.printed
  marked_eq : w'.heap.marked = w.heap.marked

theorem Untouched.refl (w : World σ) : Untouched w w := ⟨rfl, rfl, rfl⟩

theorem Untouched.trans {w₁ w₂ w₃ : World σ} (h : Untouched w₁ w₂) (h' : Untouched w₂ w₃) : Untouched w₁ w₃ :=
  ⟨h'.host_eq.trans h.host_eq, h'.printed_eq.trans h.printed_eq, h'.marked_eq.trans h.marked_eq⟩

/-- An allowance is spent: the next instruction does not run. -/
def Spent (message : String) (w : World σ) : Prop :=
  ∃ meter, w.meter = some meter ∧ meter.left ≤ 1 ∧ meter.message = message

/-- What is thrown where there is no room or no allowance left. -/
inductive Refusal (message : String) (w : World σ) : Thrown → Prop
  | memory (handled : Bool) : Refusal message w { Machine.outOfMemory with handled }
  | spent {id : Nat} {place : Lua.Bytes} (handled : Bool)
    (hid : w.heap.raised[id]? = some ⟨Machine.hostText message, place⟩) :
    Refusal message w { value := .raised id, handled }

theorem Refusal.handled {message : String} {w : World σ} {t : Thrown} (h : Refusal message w t) :
    Refusal message w { t with handled := true } := by
  cases h with
  | memory handled => exact .memory true
  | spent handled hid => exact .spent true hid

/-- A function that asks for one call at most, and gives nothing whatever comes of it. -/
def Brief (o : Outcome σ (List Value)) : Prop :=
  match o with
  | .done vs _ => vs = []
  | .fail _ _ => False
  | .ask _ resume _ => ∀ answer w, ∃ w', resume answer w = .done [] w'

theorem brief_finalize (id : Nat) (w : World σ) : Brief ((Machine.finalize id).lift w) := by
  obtain ⟨heap, host, meter⟩ := w
  change Brief ((Machine.finalize id ⟨heap, (), none⟩).lift host meter)
  by_cases hnone : (heap.finalizer id).isNil
  · have hdone : Machine.finalize id ⟨heap, (), none⟩ = .done [] ⟨heap, (), none⟩ := congrFun (if_pos hnone) _
    rw [hdone]
    rfl
  · have hasks : Machine.finalize id ⟨heap, (), none⟩ =
        .ask (.guarded (heap.finalizer id) [.table id] none) (fun _ w => .done [] w) ⟨heap, (), none⟩ :=
      congrFun (if_neg hnone) _
    rw [hasks]
    exact fun answer w => ⟨_, rfl⟩

/-- A frame that has not begun, and that nothing is owed to. -/
structure Unbegun (f : Frame) : Prop where
  pc : f.pc = 0
  toClose : f.toClose = []

/-- The states of a machine that calls a script function in the world `w₀` while the allowance is spent.  As long as no
table has a finalizer, the call leaves no trace.  Otherwise the function may have to wait for finalizers. -/
inductive Halting (message : String) (w₀ : World σ) : Machine σ → Prop
  | called (id : Nat) (args : List Value) : Halting message w₀ ⟨.call (.closure id) args w₀, {}⟩
  | entered {f : Frame} {w : World σ} {depth frames natives : Nat} (hf : Unbegun f)
    (hsame : w₀.heap.marked = [] → Untouched w₀ w) :
    Halting message w₀ ⟨.execute w, ⟨[.script f], depth, frames, natives⟩⟩
  /-- The function is interrupted. -/
  | interrupted {f : Frame} {runner : Runner} {o : Outcome σ (List Value)} {depth frames natives : Nat}
    (hmarked : w₀.heap.marked ≠ []) (hf : Unbegun f) (hwant : f.want = .exactly 0) (ho : Brief o) :
    Halting message w₀ ⟨.look runner o, ⟨[.script f], depth, frames, natives⟩⟩
  /-- A finalizer runs. -/
  | finalizing {f : Frame} {p : Pending σ} {m : Machine σ} (hmarked : w₀.heap.marked ≠ []) (hf : Unbegun f)
    (hwant : f.want = .exactly 0) (hp : ∀ answer w, ∃ w', p.resume answer w = .done [] w')
    (habove : m.Above [.native p, .script f]) : Halting message w₀ m
  /-- It is over, and the function goes on. -/
  | finalized {f : Frame} {w : World σ} {depth frames natives : Nat} (hmarked : w₀.heap.marked ≠ []) (hf : Unbegun f)
    (hwant : f.want = .exactly 0) : Halting message w₀ ⟨.give [] w, ⟨[.script f], depth, frames, natives⟩⟩
  | thrown {t : Thrown} {w : World σ} {f : Frame} {depth frames natives : Nat} (hclose : f.toClose = [])
    (hrefused : w₀.heap.marked = [] → Untouched w₀ w ∧ Refusal message w t) :
    Halting message w₀ ⟨.throw t w, ⟨[.script f], depth, frames, natives⟩⟩
  | left {t : Thrown} {w : World σ} {depth frames natives : Nat}
    (hrefused : w₀.heap.marked = [] → Untouched w₀ w ∧ Refusal message w t) :
    Halting message w₀ ⟨.throw t w, ⟨[], depth, frames, natives⟩⟩
  | finished {t : Thrown} {w : World σ} {s : Lua.Stack σ}
    (hrefused : w₀.heap.marked = [] → Untouched w₀ w ∧ Refusal message w t) :
    Halting message w₀ ⟨.finished (.raised t) w, s⟩

variable {message : String} {w₀ w : World σ} {natives : Lua.Natives σ}

/-! ### Steps -/

/-- The parameters of a function are put into new variables, and nothing else happens. -/
theorem declareAll_begins (f : Frame) (w : World σ) (slot : Nat) (vs : List Value) :
    Untouched w (Machine.declareAll f w slot vs).2 ∧ (Machine.declareAll f w slot vs).1.pc = f.pc ∧
      (Machine.declareAll f w slot vs).1.toClose = f.toClose := by
  induction vs generalizing f w slot with
  | nil => exact ⟨.refl w, rfl, rfl⟩
  | cons v vs ih =>
    obtain ⟨hsame, hpc, hclose⟩ := ih (Machine.declare f w slot v).1 (Machine.declare f w slot v).2 (slot + 1)
    have hdeclared : Untouched w (Machine.declare f w slot v).2 := ⟨rfl, rfl, rfl⟩
    exact ⟨hdeclared.trans hsame, hpc, hclose⟩

/-- An empty stack has room for every function. -/
theorem halting_enterScript (c : Lua.Closure) (args : List Value) :
    Halting message w (Machine.enterScript {} c args w) := by
  obtain ⟨hbegun, hpc, hclose⟩ := declareAll_begins
    { closure := c, slots := (List.replicate c.proto.slots 0).toArray
      extra := if c.proto.isVararg then args.drop c.proto.params else [] } w 0 (Frame.exactly c.proto.params args)
  have hentered : Machine.enterScript {} c args w =
      ⟨.execute (Machine.frameOf c args w).2, Machine.pushScript {} (Machine.frameOf c args w).1⟩ := by
    unfold Machine.enterScript
    cases w.heap.limit <;> rfl
  rw [hentered]
  exact .entered ⟨hpc, hclose⟩ fun _ => hbegun

section Stack

variable {f : Frame} {depth frames count : Nat}

theorem halting_execute (hf : Unbegun f) (hsame : w₀.heap.marked = [] → Untouched w₀ w) (hspent : Spent message w) :
    Halting message w₀ (Machine.execute ⟨[.script f], depth, frames, count⟩ w) := by
  have hrecounted (hmarked : w₀.heap.marked = []) :
      Untouched w₀ (Machine.recount ⟨[.script f], depth, frames, count⟩ w) := (hsame hmarked).trans ⟨rfl, rfl, rfl⟩
  unfold Machine.execute
  split
  · simp only
    split
    · exact .thrown hf.toClose fun hmarked => ⟨hrecounted hmarked, .memory false⟩
    · exact .entered hf hrecounted
  · obtain ⟨i, hi⟩ : ∃ i, f.closure.proto.code[f.pc]? = some i := by
      rw [hf.pc]
      exact ⟨_, Array.getElem?_eq_getElem f.closure.proto.filled⟩
    obtain ⟨heap, host, meter⟩ := w
    obtain ⟨meter, rfl, hleft, rfl⟩ := hspent
    have htick : Machine.tickMeter [] (⟨heap, host, some meter⟩ : World σ) =
        (true, ⟨heap, host, some meter.stopped⟩) := by
      simp only [Machine.tickMeter, if_pos hleft]
      rfl
    simp only [hi, htick]
    refine .thrown hf.toClose fun hmarked => ⟨?_, .spent false Array.getElem?_push_size⟩
    exact (hsame hmarked).trans ⟨rfl, rfl, rfl⟩

theorem halting_proceed (hf : Unbegun f) (hsame : w₀.heap.marked = [] → Untouched w₀ w) (hspent : Spent message w) :
    Halting message w₀ (Machine.proceed natives.collector ⟨[.script f], depth, frames, count⟩ w) := by
  unfold Machine.proceed
  simp only
  split
  · next id hpicked =>
    have hmarked : w₀.heap.marked ≠ [] := by
      intro hnone
      have hkept := Machine.letGo?_of_unmarked natives.collector ([] : List (Activation σ))
        ((hsame hnone).marked_eq.trans hnone)
      rw [hkept] at hpicked
      cases hpicked
    unfold Machine.interrupt
    simp only
    split
    · exact .entered hf fun hnone => absurd hnone hmarked
    · exact .interrupted hmarked ⟨hf.pc, hf.toClose⟩ rfl (brief_finalize id _)
  · exact halting_execute hf hsame hspent

theorem halting_look (hmarked : w₀.heap.marked ≠ []) (hf : Unbegun f) (hwant : f.want = .exactly 0) (runner : Runner)
    {o : Outcome σ (List Value)} (ho : Brief o) :
    Halting message w₀ (Machine.look ⟨[.script f], depth, frames, count⟩ runner o) := by
  cases o with
  | done vs w =>
    obtain rfl : vs = [] := ho
    exact .finalized hmarked hf hwant
  | fail fault w => exact ho.elim
  | ask q resume w =>
    have habove (m : Machine σ) (hrunning : m.answer? = none) (guarded : Bool) (handler : Option Value)
        (htop : m.stack.top = [.native ⟨runner, guarded, handler, resume⟩, .script f]) : Halting message w₀ m := by
      refine .finalizing (p := ⟨runner, guarded, handler, resume⟩) hmarked hf hwant ho ⟨?_, hrunning⟩
      exact htop ▸ List.suffix_rfl
    unfold Machine.look
    simp only
    split
    · exact habove _ rfl false none rfl
    · cases q with
      | call callee args => exact habove _ rfl false none rfl
      | guarded callee args handler => exact habove _ rfl true handler rfl

theorem halting_unwind {t : Thrown} (hclose : f.toClose = [])
    (hrefused : w₀.heap.marked = [] → Untouched w₀ w ∧ Refusal message w t) :
    Halting message w₀ (Machine.unwind ⟨[.script f], depth, frames, count⟩ t w) := by
  have hclosing : Machine.closing f w.heap = [] := by
    rw [Machine.closing, hclose, List.map_nil]
  unfold Machine.unwind
  simp only [hclosing]
  exact .left hrefused

end Stack

/-- A finalizer goes on, or its table is let go and the function below goes on. -/
theorem halting_finalizing {f : Frame} {p : Pending σ} {m : Machine σ} (hmarked : w₀.heap.marked ≠ [])
    (hf : Unbegun f) (hwant : f.want = .exactly 0) (hp : ∀ answer w, ∃ w', p.resume answer w = .done [] w')
    (habove : m.Above [.native p, .script f]) : Halting message w₀ (m.step natives) := by
  obtain hstill | hanswered := habove.step natives
  · exact .finalizing hmarked hf hwant hp hstill
  · generalize m.step natives = m' at hanswered
    cases hanswered with
    | @looks answer w s htop =>
      obtain ⟨top, depth, frames, count⟩ := s
      obtain rfl : top = [.script f] := htop
      obtain ⟨w', hdone⟩ := hp answer w
      rw [hdone]
      exact .interrupted hmarked hf hwant rfl
    | @throws t w s htop =>
      obtain ⟨top, depth, frames, count⟩ := s
      obtain rfl : top = [.script f] := htop
      exact .thrown hf.toClose fun hnone => absurd hnone hmarked

/-- Whatever such a machine does next, it halts, as long as the allowance is spent. -/
theorem Halting.step {m : Machine σ} (h : Halting message w₀ m) (hspent : Spent message m.world) :
    Halting message w₀ (m.step natives) := by
  cases h with
  | called id args => exact halting_enterScript _ args
  | entered hf hsame => exact halting_proceed hf hsame hspent
  | interrupted hmarked hf hwant ho => exact halting_look hmarked hf hwant _ ho
  | finalizing hmarked hf hwant hp habove => exact halting_finalizing hmarked hf hwant hp habove
  | @finalized f w depth frames count hmarked hf hwant =>
    have htaken : f.take [] = f := by
      simp only [Frame.take, hwant]
    change Halting message w₀ ⟨.execute w, ⟨[.script (f.take [])], depth, frames, count⟩⟩
    rw [htaken]
    exact .entered hf fun hnone => absurd hnone hmarked
  | thrown hclose hrefused =>
    change Halting message w₀ (Machine.raise _ _ _)
    unfold Machine.raise
    split
    · exact halting_unwind hclose hrefused
    · exact halting_unwind hclose fun hnone => ⟨(hrefused hnone).1, (hrefused hnone).2.handled⟩
  | left hrefused =>
    change Halting message w₀ (Machine.raise _ _ _)
    unfold Machine.raise
    split
    · exact .finished hrefused
    · exact .finished fun hnone => ⟨(hrefused hnone).1, (hrefused hnone).2.handled⟩
  | finished hrefused => exact .finished hrefused

theorem Halting.run {m : Machine σ} (h : Halting message w₀ m) (fuel : Nat)
    (hspent : ∀ steps, Spent message (m.run natives steps).world) : Halting message w₀ (m.run natives fuel) := by
  induction fuel generalizing m with
  | zero => exact h
  | succ fuel ih =>
    cases hanswer : m.answer? with
    | some answer =>
      rw [Machine.run_of_answer _ (by simp [hanswer])]
      exact h
    | none =>
      rw [Machine.run_succ fuel hanswer]
      refine ih (h.step (hspent 0)) fun steps => ?_
      rw [← Machine.run_succ steps hanswer]
      exact hspent (steps + 1)

/-- What such a machine has come to is no result, and leaves no trace if no table had a finalizer. -/
theorem Halting.untouched {m : Machine σ} (h : Halting message w₀ m) :
    (w₀.heap.marked = [] → Untouched w₀ m.world) ∧ ∀ answer, m.answer? = some answer →
      ∃ t, answer = .raised t ∧ (w₀.heap.marked = [] → Refusal message m.world t) := by
  cases h with
  | finished hrefused =>
    refine ⟨fun hnone => (hrefused hnone).1, fun answer hanswer => ⟨_, (Option.some.inj hanswer).symm, ?_⟩⟩
    exact fun hnone => (hrefused hnone).2
  | called id args => exact ⟨fun _ => .refl w₀, nofun⟩
  | entered hf hsame => exact ⟨hsame, nofun⟩
  | interrupted hmarked => exact ⟨fun hnone => absurd hnone hmarked, nofun⟩
  | finalized hmarked => exact ⟨fun hnone => absurd hnone hmarked, nofun⟩
  | finalizing hmarked hf hwant hp habove =>
    refine ⟨fun hnone => absurd hnone hmarked, fun answer hanswer => ?_⟩
    rw [habove.running] at hanswer
    cases hanswer
  | thrown hclose hrefused => exact ⟨fun hnone => (hrefused hnone).1, nofun⟩
  | left hrefused => exact ⟨fun hnone => (hrefused hnone).1, nofun⟩

end Halting

/-! ## Allowances of one instruction -/

section Barred

variable {κ : Type} {message : String} {w : Vm κ}

/-- A value of trust that allows nothing: it is undefined, zero or negative. -/
def AllowsNothing (v : Effective) : Prop := ∀ n, v = some n → n ≤ 0

theorem allowsNothing_none : AllowsNothing none := by
  intro n hn
  cases hn

theorem allowance_eq_one {v : Effective} (h : AllowsNothing v) : allowance v = 1 := by
  cases v with
  | none => rfl
  | some n => exact if_neg (Int.not_lt.2 (h n rfl))

theorem limited_of_nothing {α : Type} {v : Effective} (h : AllowsNothing v) (phase : Phase)
    (run : Vm κ → Result κ α) : limited phase v run = limited phase none run := by
  have hmeter : meterOf phase v = meterOf phase none := by
    rw [meterOf, allowance_eq_one h]
    rfl
  funext w
  simp only [limited, hmeter]

/-- The meter never allows an instruction, however often it stops a script. -/
def Barred (message : String) (w : Vm κ) : Prop :=
  ∃ meter, w.meter = some meter ∧ meter.Accounted ∧ meter.limit = 1 ∧ meter.message = message

theorem barred_meterOf {v : Effective} (h : AllowsNothing v) (phase : Phase) (heap : Lua.Heap)
    (host : Package.Services κ) : Barred (meterOf phase v).message ⟨heap, host, some (meterOf phase v)⟩ :=
  ⟨_, rfl, accounted_meterOf phase v, allowance_eq_one h, rfl⟩

theorem Barred.spent (h : Barred message w) : Spent message w := by
  obtain ⟨meter, hmeter, haccount, hlimit, hmessage⟩ := h
  exact ⟨meter, hmeter, hlimit ▸ haccount.left_le, hmessage⟩

theorem Barred.keeps (h : Barred message w) {w' : Vm κ} (hkeeps : Lua.KeepsAccount w w') : Barred message w' := by
  obtain ⟨meter, hmeter, haccount, hlimit, hmessage⟩ := h
  obtain ⟨meter', hmeter', haccount', hlimit', hmessage'⟩ := hkeeps meter hmeter haccount
  exact ⟨meter', hmeter', haccount', hlimit'.trans hlimit, hmessage'.trans hmessage⟩

/-- Only finalizers ran. -/
theorem Barred.ran_eq (h : Barred message w) : ∃ meter, w.meter = some meter ∧ meter.ran = meter.missed := by
  obtain ⟨meter, hmeter, haccount, hlimit, -⟩ := h
  have hran := haccount.ran_eq
  have hpos := haccount.left_pos
  have hle := haccount.left_le
  rw [hlimit, Nat.sub_self, Nat.mul_zero, Nat.mul_one] at hran
  exact ⟨meter, hmeter, by omega⟩

end Barred

/-! ## Calls -/

section Calls

variable (t : Terms) (policy : Policy) {message : String} {w : Vm Thing}

/-- Why a call ends where there is no room or no allowance left. -/
def StopError (message : String) (e : Error) : Prop :=
  e = .memory ∨ e = .exhausted ∨ ∃ place, e = .refused (Text.lossy (Machine.hostText message)) place

/-- A result is an error.  If no table had a finalizer, it is of that kind, and outside the memory of the scripts
nothing is different. -/
def Stops {α : Type} (message : String) (w : Vm Thing) (r : Result Thing α) : Prop :=
  ∃ e w', r = (.error e, w') ∧ (w.heap.marked = [] → StopError message e ∧ Untouched w w')

theorem stopError_of_refusal {s : Setting Thing} {t : Thrown} (h : Refusal message w t) (depth : Nat) :
    (errorOf s depth t w).2 = w ∧ StopError message (errorOf s depth t w).1 := by
  cases h with
  | memory handled =>
    have herror : errorOf s depth { Machine.outOfMemory with handled } w = (.memory, w) := by
      unfold errorOf
      exact if_pos rfl
    rw [herror]
    exact ⟨rfl, .inl rfl⟩
  | spent handled hid =>
    rw [errorOf_raised hid]
    exact ⟨rfl, .inr (.inr ⟨_, rfl⟩)⟩

/-- A script function does not run while the allowance is spent. -/
theorem call_stops (hbarred : Barred message w) (id : Nat) (args : List Value) :
    Stops message w (call (t.setting policy) (.closure id) args w) := by
  have hcalled : Halting message w (Machine.ofCall (.closure id) args w) := .called id args
  have hspent (steps : Nat) :
      Spent message (Machine.run (t.setting policy).natives steps (Machine.ofCall (.closure id) args w)).world :=
    (hbarred.keeps (run_keeps t policy steps fun hR => Machine.within_ofCall hR _ args w)).spent
  obtain ⟨hsame, hanswer⟩ := (hcalled.run t.fuel hspent).untouched
  unfold call finish
  simp only [fuel_setting]
  cases hend : (Machine.run (t.setting policy).natives t.fuel (Machine.ofCall (.closure id) args w)).answer? with
  | none => exact ⟨.exhausted, _, rfl, fun hnone => ⟨.inr (.inl rfl), hsame hnone⟩⟩
  | some answer =>
    obtain ⟨thrown, rfl, hrefused⟩ := hanswer answer hend
    refine ⟨_, _, rfl, fun hnone => ?_⟩
    obtain ⟨hworld, hstop⟩ := stopError_of_refusal (s := t.setting policy) (hrefused hnone) textDepth
    exact ⟨hstop, by rw [hworld]; exact hsame hnone⟩

/-- So the first function of an event is the last if it is one of a script. -/
theorem callEach_stops (hbarred : Barred message w) (id : Nat) (args fs : List Value) :
    Stops message w (callEach (t.setting policy) args (.closure id :: fs) w) := by
  obtain ⟨e, w', hcall, hstop⟩ := call_stops t policy hbarred id args
  unfold callEach
  rw [hcall]
  exact ⟨e, w', rfl, hstop⟩

/-- An event ends with an error if any of its functions is one of a script. -/
theorem callEach_fails (hbarred : Barred message w) (args : List Value) {fs : List Value} {id : Nat}
    (hmem : Value.closure id ∈ fs) : ∃ e, (callEach (t.setting policy) args fs w).1 = .error e := by
  induction fs generalizing w with
  | nil => cases hmem
  | cons f rest ih =>
    have hcall := Package.call_rel t (admits_account policy) f args w
    unfold callEach
    split
    · next vs w' heq =>
      rw [heq] at hcall
      rcases List.mem_cons.1 hmem with rfl | hrest
      · obtain ⟨e, w'', hstops, -⟩ := call_stops t policy hbarred id args
        rw [heq] at hstops
        cases hstops
      · exact ih (hbarred.keeps hcall) hrest
    · next e w' heq => exact ⟨e, rfl⟩

theorem fire_of_error {s : Setting Thing} {name : String} {args : List Value} {e : Error} {w' : Vm Thing}
    (hcalls : callEach s args (w.host.callbacks[name]?.getD []) w = (.error e, w')) :
    fire s name args w = (.error e, w') := by
  simp only [fire, hcalls]

/-- What is loaded is a script function; loading prints nothing and makes no finalizer. -/
theorem loadSource_closure {name source : Lua.Bytes} {h h' : Lua.Heap} {f : Value}
    (hload : Lua.Library.loadSource name source none h = (.ok f, h')) :
    (∃ id, f = .closure id) ∧ h'.printed = h.printed ∧ h'.marked = h.marked := by
  unfold Lua.Library.loadSource at hload
  split at hload
  · cases hload
  · split at hload
    · cases hload
    · simp only at hload
      split at hload
      · cases hload
      · obtain ⟨hf, rfl⟩ := Prod.mk.inj hload
        exact ⟨⟨_, (Except.ok.inj hf).symm⟩, rfl, rfl⟩

/-- No module runs while the allowance is spent.  If no table has a finalizer, it is taken out, and that is all. -/
theorem startModule_stops (hbarred : Barred message w) (given : String) : ∃ e w',
    startModule (t.setting policy) given w = (.error e, w') ∧
      (w.heap.marked = [] → Untouched (Package.taken (Bridge.moduleOf given) w) w') := by
  obtain ⟨h, host, meter⟩ := w
  unfold startModule
  simp only [Bridge.takeModule]
  have htaken : Untouched (Package.taken (Bridge.moduleOf given) ⟨h, host, meter⟩)
      (⟨h, { host with modules := host.modules.erase (Bridge.moduleOf given) }, meter⟩ : Vm Thing) := ⟨rfl, rfl, rfl⟩
  cases host.modules[Bridge.moduleOf given]? with
  | none => exact ⟨_, _, rfl, fun _ => htaken⟩
  | some text =>
    simp only [chunk]
    cases Bridge.nameFault? (Text.bytes (Bridge.moduleOf given)) with
    | some message => exact ⟨_, _, rfl, fun _ => htaken⟩
    | none =>
      simp only
      cases hload : Lua.Library.loadSource (Text.bytes (Bridge.moduleOf given)) (Text.bytes text) none h with
      | mk r h' =>
        cases r with
        | error message =>
          rw [Package.heap_of_loadFault hload]
          exact ⟨_, _, rfl, fun _ => htaken⟩
        | ok f =>
          obtain ⟨⟨id, rfl⟩, hprinted, hmarked⟩ := loadSource_closure hload
          have hbarred' : Barred message
              (⟨h', { host with modules := host.modules.erase (Bridge.moduleOf given) }, meter⟩ : Vm Thing) := hbarred
          obtain ⟨e, w', hcall, hstop⟩ := call_stops t policy hbarred' id []
          simp only [hcall]
          have hloaded : Untouched
              (⟨h, { host with modules := host.modules.erase (Bridge.moduleOf given) }, meter⟩ : Vm Thing)
              ⟨h', { host with modules := host.modules.erase (Bridge.moduleOf given) }, meter⟩ :=
            ⟨rfl, hprinted, hmarked⟩
          exact ⟨e, w', rfl, fun hnone => htaken.trans (hloaded.trans (hstop (hmarked.trans hnone)).2)⟩

end Calls

end ScriptWarden.Script
