import ScriptWarden.Package.Instance
import ScriptWarden.Proofs.Lua.Within
import ScriptWarden.Proofs.Bridge.Quiet
set_option autoImplicit false

/-!
# Packages: turns

However long the scripts of a package run, its services change only in *turns*: calls of methods, and a
handful of other things that scripts or the host do.  What an operation on an instance does to the services
is a list of turns (`run_is_play`), all under the trust in force at the operation.
-/

namespace ScriptWarden.Package

open Api (Thing)
open Bridge (Action)
open Lua (Admits Heap HostFunction Native Natives Value World)
open Trust (Capability Policy)

/-! ## Turns -/

/-- One thing that happens to the services of a package. -/
inductive Turn where
  /-- A script calls a method, with the receiver first. -/
  | call (heap : Heap) (type name : String) (args : List Value)
  /-- A script reads a field of an object. -/
  | field (heap : Heap) (type name : String) (state : Nat)
  /-- A script asks for the function of a method. -/
  | method (type name : String)
  /-- A script writes a line of the log, or the host writes one for it. -/
  | log (level message : String)
  /-- A module is taken out of those that have not been started. -/
  | module (name : String)
  /-- The host puts the modules of the package in. -/
  | install (modules : Modules)
  /-- The host makes a global object. -/
  | object (type : String)
  /-- The host asks for a budget of instructions. -/
  | consult (c : Capability)
  /-- The host tells the operator something. -/
  | note (d : Diagnostic)
  /-- What scripts printed goes to the world outside. -/
  | printed (bytes : ByteArray)
  /-- A run is given up. -/
  | unending
  /-- One tick passes for every budget. -/
  | clock
  /-- The answer that waits longest is taken out. -/
  | taken
  /-- An answer is delivered. -/
  | delivered (c : Host.Completion)
  /-- Images that changed are uploaded. -/
  | upload
  /-- The package ends. -/
  | shutdown
  /-- Answers that wait are dropped. -/
  | drained

/-- What a turn does to the services. -/
def Turn.apply (policy : Policy) (turn : Turn) (s : Api.Services) : Api.Services :=
  match turn with
  | .call heap type name args =>
    (Bridge.bridgeCall Api.surface policy type name args ⟨heap, s, none⟩).2.host
  | .field heap type name state =>
    match Api.surface.member? type name with
    | some (.field _ get) => (Bridge.readField get state ⟨heap, s, none⟩).2.host
    | _ => s
  | .method type name =>
    match s.methods[type ++ ":" ++ name]? with
    | some _ => s
    | none => { s with methods := s.methods.insert (type ++ ":" ++ name) (.method type name) }
  | .log level message => s.pushLog level message
  | .module name => (Bridge.takeModule name s).2
  | .install modules => { s with modules }
  | .object type =>
    let (state, s) := s.newState .service
    (s.newObject ⟨type, state⟩).2
  | .consult c => (s.trustValue policy c).2
  | .note d => s.note d
  | .printed bytes => s.emit (.printed bytes)
  | .unending => s.giveUp
  | .clock => s.tickQuotas policy
  | .taken =>
    match s.mailbox.next? with
    | some (_, mailbox) => { s with mailbox }
    | none => s
  | .delivered c => { s with mailbox := (s.mailbox.deliver c).2 }
  | .upload => s.uploadDirty.2
  | .shutdown => s.shutdown
  | .drained => { s with mailbox := s.mailbox.drain.2 }

/-- The services after turns, each under a policy of its own. -/
def play (s : Api.Services) (turns : List (Policy × Turn)) : Api.Services :=
  turns.foldl (fun s (policy, turn) => turn.apply policy s) s

theorem play_append (s : Api.Services) (turns turns' : List (Policy × Turn)) :
    play s (turns ++ turns') = play (play s turns) turns' := List.foldl_append

/-- A turn that leaves the clock and the answers that wait to the host. -/
def Turn.Steady : Turn → Prop
  | .clock | .taken | .delivered _ | .drained => False
  | _ => True

/-- A turn that a script takes without starting a module. -/
def Turn.Called : Turn → Prop
  | .call .. | .field .. | .method .. | .log .. => True
  | _ => False

/-- A turn that a script takes. -/
def Turn.Scripted : Turn → Prop
  | .module _ => True
  | turn => turn.Called

theorem Turn.Called.scripted {turn : Turn} (h : turn.Called) : turn.Scripted := by
  cases turn with
  | module name => exact trivial
  | _ => exact h

theorem Turn.Scripted.steady {turn : Turn} (h : turn.Scripted) : turn.Steady := by
  cases turn with
  | clock | taken | delivered | drained => exact h
  | _ => exact trivial

/-- A turn of scripts that are let go: one of theirs, the handing over of what they printed, or the giving up. -/
def Turn.Last : Turn → Prop
  | .printed _ | .unending => True
  | turn => turn.Scripted

theorem Turn.Scripted.last {turn : Turn} (h : turn.Scripted) : turn.Last := by
  cases turn with
  | printed | unending => exact trivial
  | _ => exact h

theorem Turn.Last.steady {turn : Turn} (h : turn.Last) : turn.Steady := by
  cases turn with
  | printed | unending => exact trivial
  | _ => exact Turn.Scripted.steady h

/-- The services went through turns of a kind under one policy. -/
def Turns (kind : Turn → Prop) (policy : Policy) (s s' : Api.Services) : Prop :=
  ∃ turns : List Turn, (∀ turn ∈ turns, kind turn) ∧ s' = play s (turns.map (policy, ·))

namespace Turns

variable {kind : Turn → Prop} {policy : Policy} {s s' s₁ s₂ s₃ : Api.Services}

theorem refl (s : Api.Services) : Turns kind policy s s := ⟨[], fun _ hturn => absurd hturn List.not_mem_nil, rfl⟩

theorem trans (h : Turns kind policy s₁ s₂) (h' : Turns kind policy s₂ s₃) : Turns kind policy s₁ s₃ := by
  obtain ⟨turns, hkind, rfl⟩ := h
  obtain ⟨turns', hkind', rfl⟩ := h'
  refine ⟨turns ++ turns', fun turn hturn => ?_, by rw [List.map_append, play_append]⟩
  exact (List.mem_append.1 hturn).elim (hkind turn) (hkind' turn)

theorem one (turn : Turn) (hturn : kind turn) (s : Api.Services) : Turns kind policy s (turn.apply policy s) :=
  ⟨[turn], fun _ hmem => (List.mem_singleton.1 hmem) ▸ hturn, rfl⟩

/-- A relation that each turn of the kind keeps to holds between the first state and the last. -/
theorem closed {R : Api.Services → Api.Services → Prop} (hrefl : ∀ s, R s s)
    (htrans : ∀ {s₁ s₂ s₃}, R s₁ s₂ → R s₂ s₃ → R s₁ s₃)
    (hturn : ∀ turn s, kind turn → R s (turn.apply policy s)) (h : Turns kind policy s s') : R s s' := by
  obtain ⟨turns, hkind, rfl⟩ := h
  induction turns generalizing s with
  | nil => exact hrefl s
  | cons turn rest ih =>
    have hfirst : R s (turn.apply policy s) := hturn turn s (hkind turn List.mem_cons_self)
    exact htrans hfirst (ih fun turn hmem => hkind turn (List.mem_cons_of_mem _ hmem))

theorem mono {kind' : Turn → Prop} (h : Turns kind policy s s') (hkind : ∀ turn, kind turn → kind' turn) :
    Turns kind' policy s s' := by
  obtain ⟨turns, hturns, hplay⟩ := h
  exact ⟨turns, fun turn hturn => hkind turn (hturns turn hturn), hplay⟩

/-- Of whatever kind turns are, they are turns. -/
theorem any (h : Turns kind policy s s') : Turns (fun _ => True) policy s s' := h.mono fun _ _ => trivial

end Turns

/-! ## Packages that have ended -/

section Ended

variable {α : Type} {f : Api.Services → α} (policy : Policy) {s s' : Api.Services}

/-- Nobody calls a method of a package that has ended. -/
theorem bridgeCall_of_ended (hended : s.alive = false) (heap : Heap) (type name : String) (args : List Value) :
    (Bridge.bridgeCall Api.surface policy type name args ⟨heap, s, none⟩).2.host = s := by
  unfold Bridge.bridgeCall
  cases args with
  | nil => rfl
  | cons this values =>
    simp only [Action.bind_apply, Bridge.seenAll, List.map_cons, List.headD_cons]
    cases Bridge.seen ⟨heap, s, none⟩ this with
    | object found state =>
      simp only
      split
      · simp only [Bridge.callMethod, Bridge.checkAlive, Action.bind_apply, Action.look, hended]
        rfl
      · rfl
    | _ => rfl

theorem readField_of_ended (hended : s.alive = false) (heap : Heap) (get : Nat → Action Thing Value) (state : Nat) :
    (Bridge.readField get state ⟨heap, s, none⟩).2.host = s := by
  simp only [Bridge.readField, Bridge.checkAlive, Action.bind_apply, Action.look, hended]
  rfl

variable (hlog : ∀ (s : Api.Services) level message, f (s.pushLog level message) = f s)
  (hmethods : ∀ (s : Api.Services) methods, f { s with methods } = f s)
  (hmodules : ∀ (s : Api.Services) modules, f { s with modules } = f s)
  (hemit : ∀ (s : Api.Services) e, f (s.emit e) = f s)

include hlog hmethods hmodules hemit

/-- Once a package has ended, its scripts can still write, and take modules. -/
theorem Turn.Last.keeps {turn : Turn} (hturn : turn.Last) (hended : s.alive = false) :
    f (turn.apply policy s) = f s := by
  cases turn with
  | call heap type name args => exact congrArg f (bridgeCall_of_ended policy hended heap type name args)
  | field heap type name state =>
    simp only [Turn.apply]
    split
    · exact congrArg f (readField_of_ended hended heap _ state)
    · rfl
  | method type name =>
    unfold Turn.apply
    simp only
    split
    · rfl
    · exact hmethods s _
  | log level message => exact hlog s level message
  | module name => exact hmodules s _
  | printed bytes => exact hemit s _
  | unending => exact hemit s _
  | _ => exact hturn.elim

/-- All else stays as it is while the scripts of a package that has ended are let go. -/
theorem turns_keep_ended (h : Turns Turn.Last policy s s') (hended : s.alive = false) : f s' = f s := by
  have hboth : f s' = f s ∧ s'.alive = false := by
    obtain ⟨turns, hturns, rfl⟩ := h
    induction turns generalizing s with
    | nil => exact ⟨rfl, hended⟩
    | cons turn rest ih =>
      have hturn := hturns turn List.mem_cons_self
      have halive : (turn.apply policy s).alive = false :=
        (hturn.keeps policy (f := Services.alive) (fun _ _ _ => rfl) (fun _ _ => rfl) (fun _ _ => rfl)
          (fun _ _ => rfl) hended).trans hended
      obtain ⟨hrest, hstill⟩ := ih halive fun turn hmem => hturns turn (List.mem_cons_of_mem _ hmem)
      exact ⟨hrest.trans (hturn.keeps policy hlog hmethods hmodules hemit hended), hstill⟩
  exact hboth.1

end Ended

/-! ## Native functions -/

/-- A relation between worlds that admits changes of the heap, and under a policy every turn that a script takes
without starting a module. -/
structure AdmitsCalls (policy : Policy) (R : World Api.Services → World Api.Services → Prop) : Prop
    extends Admits R where
  turn : ∀ (turn : Turn), turn.Called → ∀ heap services meter,
    R ⟨heap, services, meter⟩ ⟨heap, turn.apply policy services, meter⟩

/-- A relation between worlds that admits changes of the heap, and every turn that a script takes under a policy. -/
structure AdmitsTurns (policy : Policy) (R : World Api.Services → World Api.Services → Prop) : Prop
    extends Admits R where
  turn : ∀ (turn : Turn), turn.Scripted → ∀ heap services meter,
    R ⟨heap, services, meter⟩ ⟨heap, turn.apply policy services, meter⟩

theorem AdmitsTurns.calls {policy : Policy} {R : World Api.Services → World Api.Services → Prop}
    (hR : AdmitsTurns policy R) : AdmitsCalls policy R where
  toAdmits := hR.toAdmits
  turn turn hturn := hR.turn turn hturn.scripted

/-- It admits scripts if counting an instruction is admitted, too. -/
structure AdmitsScripts (policy : Policy) (R : World Api.Services → World Api.Services → Prop) : Prop
    extends AdmitsTurns policy R where
  tick : ∀ stack w, R w (Lua.Machine.tickMeter stack w).2

/-- Turns of a kind that scripts take. -/
theorem admits_turns {kind : Turn → Prop} (hkind : ∀ turn, turn.Scripted → kind turn) (policy : Policy) :
    AdmitsScripts policy (fun w w' => Turns kind policy w.host w'.host) where
  refl w := .refl w.host
  trans h h' := h.trans h'
  heap _ _ services _ := .refl services
  tick stack w := by
    rw [(Lua.Machine.tickMeter_eq stack w).2]
    exact .refl w.host
  turn turn hturn _ services _ := .one turn (hkind turn hturn) services

/-- Two worlds between which the services went through turns. -/
def TurnsBetween (policy : Policy) (w w' : World Api.Services) : Prop := Turns Turn.Steady policy w.host w'.host

theorem admits_turnsBetween (policy : Policy) : AdmitsScripts policy (TurnsBetween policy) :=
  admits_turns (fun _ h => h.steady) policy

section Natives

variable {α : Type} {R : World Api.Services → World Api.Services → Prop}

section Plain

variable (hR : Admits R)

include hR

theorem raiseHost_within (e : Lua.Raised) :
    (Bridge.raiseHost e : Native Api.Services α).Within R :=
  .bind hR (Native.within_create hR _) fun _ => Native.within_fail hR _

theorem raiseText_within (message : String) :
    (Bridge.raiseText message : Native Api.Services α).Within R := raiseHost_within hR _

theorem raisedOf_within (t : Lua.Thrown) :
    (Bridge.raisedOf t : Native Api.Services Lua.Raised).Within R := by
  unfold Bridge.raisedOf
  split
  · exact Native.within_pure hR _
  · split
    · exact Native.within_heap hR _
    · exact .bind hR (Native.within_lift hR _) fun _ => Native.within_pure hR _

theorem callBack_within (f : Value) (args : List Value) :
    (Bridge.callBack f args : Native Api.Services (List Value)).Within R := by
  refine .bind hR (Native.within_guarded hR _ _ _) fun answer => ?_
  cases answer with
  | values vs => exact Native.within_pure hR _
  | raised t => exact .bind hR (raisedOf_within hR t) fun e => raiseHost_within hR e

theorem textOf_within (v : Value) (lead : String) :
    (Bridge.textOf v lead : Native Api.Services String).Within R := by
  unfold Bridge.textOf
  split
  · exact Native.within_pure hR _
  · exact raiseHost_within hR _

theorem load_within (name source : Lua.Bytes) :
    (Bridge.load name source : Native Api.Services Value).Within R := by
  unfold Bridge.load
  split
  · exact raiseText_within hR _
  · refine .bind hR (Native.within_create hR _) fun r => ?_
    cases r with
    | error message => exact raiseHost_within hR _
    | ok f => exact Native.within_pure hR _

/-- An action whose services go through a turn. -/
theorem perform_within {a : Action Thing α}
    (h : ∀ heap services meter, R ⟨heap, services, meter⟩
      ⟨heap, (a ⟨heap, services, none⟩).2.host, meter⟩) : (Bridge.perform a).Within R := by
  intro w
  have hw := h w.heap w.host w.meter
  unfold Bridge.perform
  simp only
  generalize a ⟨w.heap, w.host, none⟩ = result at hw
  obtain ⟨r, ⟨heap, services, meter⟩⟩ := result
  cases r with
  | ok x => exact hR.trans hw (hR.heap _ _ _ _)
  | error message =>
    exact (raiseText_within hR message _).of_rel hR (hR.trans hw (hR.heap _ _ _ _))

end Plain

section Calls

variable {policy : Policy} (hR : AdmitsCalls policy R)

include hR

theorem output_within (level : String) (args : List Value) :
    (Bridge.output level args : Native Api.Services (List Value)).Within R := by
  refine .bind hR.toAdmits (Native.within_heap hR.toAdmits _) fun stringifier => ?_
  refine .bind hR.toAdmits (callBack_within hR.toAdmits _ _) fun vs => ?_
  refine .bind hR.toAdmits (textOf_within hR.toAdmits _ _) fun message => ?_
  exact .bind hR.toAdmits (Native.within_host (hR.turn (.log level message) trivial))
    fun _ => Native.within_pure hR.toAdmits _

theorem methodFunction_within (type name : String) :
    (Bridge.methodFunction type name : Native Api.Services Value).Within R := by
  refine Native.within_host fun heap services meter => ?_
  have h := hR.turn (.method type name) trivial heap services meter
  unfold Turn.apply at h
  simp only at h ⊢
  split at h
  · next heq => simpa [heq] using h
  · next heq => simpa [heq] using h

theorem findMember_within (args : List Value) :
    (Bridge.findMember Api.surface args).Within R := by
  refine .bind hR.toAdmits (fun w => hR.refl w) fun (o, name) => ?_
  simp only
  split
  · exact .bind hR.toAdmits (methodFunction_within hR _ _) fun _ => Native.within_pure hR.toAdmits _
  · next type get hmember =>
    refine .bind hR.toAdmits (perform_within hR.toAdmits fun heap services meter => ?_) fun _ =>
      Native.within_pure hR.toAdmits _
    have h := hR.turn (.field heap o.type name o.state) trivial heap services meter
    simpa [Turn.apply, hmember] using h
  · exact raiseText_within hR.toAdmits _

theorem readMember_within (args : List Value) :
    (Bridge.readMember Api.surface args).Within R := by
  refine .bind hR.toAdmits (Native.within_heap hR.toAdmits _) fun hasRoom => ?_
  cases hasRoom with
  | true => exact findMember_within hR args
  | false => exact raiseHost_within hR.toAdmits _

/-- All functions of the host but one leave the modules of a package alone. -/
theorem hostFunctions_within_calls {f : HostFunction} (hf : f ≠ .require) (args : List Value) :
    (Bridge.hostFunctions Api.surface policy f args).Within R := by
  cases f with
  | output level => exact output_within hR level args
  | outputCall =>
    refine .bind hR.toAdmits (Native.within_guarded hR.toAdmits _ _ _) fun answer => ?_
    cases answer with
    | values vs => exact Native.within_pure hR.toAdmits _
    | raised t => exact .bind hR.toAdmits (raisedOf_within hR.toAdmits t) fun e => raiseHost_within hR.toAdmits e
  | require => exact absurd rfl hf
  | method type name =>
    exact perform_within hR.toAdmits fun heap => hR.turn (.call heap type name args) trivial heap
  | member => exact readMember_within hR args
  | setMember =>
    refine .bind hR.toAdmits (fun w => hR.refl w) fun (o, name) => ?_
    simp only
    split <;> exact raiseText_within hR.toAdmits _
  | objectText =>
    exact .bind hR.toAdmits (Native.within_host fun _ _ _ => hR.refl _) fun _ => Native.within_pure hR.toAdmits _
  | sameObject =>
    unfold Bridge.hostFunctions Bridge.sameObject
    refine Native.within_host fun heap services meter => ?_
    split <;> exact hR.refl _

/-- Whatever a native function does to the services it does in turns, the start of modules apart. -/
theorem natives_within_calls (collector : Lua.Collector) {f : Value} (hf : f ≠ .host .require)
    (args : List Value) : (Bridge.natives Api.surface policy collector f args).Within R := by
  unfold Bridge.natives Lua.Library.natives
  simp only
  split
  · exact Native.within_lift hR.toAdmits _
  · exact Native.within_lift hR.toAdmits _
  · exact hostFunctions_within_calls hR (fun heq => hf (congrArg Value.host heq)) _
  · exact Native.within_pure hR.toAdmits _

end Calls

variable {policy : Policy} (hR : AdmitsTurns policy R)

include hR

theorem startModule_within (given : String) :
    (Bridge.startModule given : Native Api.Services (List Value)).Within R := by
  refine .bind hR.toAdmits (Native.within_host (hR.turn (.module (Bridge.moduleOf given)) trivial)) fun source => ?_
  cases source with
  | none => exact raiseText_within hR.toAdmits _
  | some source => exact .bind hR.toAdmits (load_within hR.toAdmits _ _) fun f => callBack_within hR.toAdmits _ _

/-- Whatever a native function does to the services it does in turns. -/
theorem natives_within (collector : Lua.Collector) (f : Value) (args : List Value) :
    (Bridge.natives Api.surface policy collector f args).Within R := by
  by_cases hf : f = .host .require
  · subst hf
    exact .bind hR.toAdmits (textOf_within hR.toAdmits _ _) fun name => startModule_within hR name
  · exact natives_within_calls hR.calls collector hf args

end Natives

/-! ## Scripts -/

section Scripts

open Script (Result Setting)

variable (t : Terms) {policy : Policy} {R : World Api.Services → World Api.Services → Prop}
  (hR : AdmitsScripts policy R)

include hR

omit hR in
theorem textMachine_within (hR : Admits R) (v : Value) (w : Script.Vm Thing) :
    (Script.textMachine v w).Within R w := by
  have htext : ((Lua.Access.text v).lift >>= fun s => pure [.str s] :
      Native Api.Services (List Value)).Within R :=
    .bind hR (Native.within_lift hR _) fun _ => Native.within_pure hR _
  exact ⟨htext w, Lua.Machine.Stack.within_nil⟩

theorem run_rel (steps : Nat) {m : Lua.Machine Api.Services} {w : Script.Vm Thing}
    (hm : m.Within R w) : R w (Lua.Machine.run (t.setting policy).natives steps m).world :=
  (Lua.Machine.within_run hR.toAdmits (natives_within hR.toAdmitsTurns _) hR.tick steps hm).world

theorem release_rel (w : Script.Vm Thing) : R w (Script.release (t.setting policy) w).2 := by
  unfold Script.release
  split
  · exact hR.refl w
  · exact run_rel t hR t.fuel (Lua.Machine.within_ofClose hR.toAdmits t.collector w)

theorem errorOf_rel (depth : Nat) (thrown : Lua.Thrown) (w : Script.Vm Thing) :
    R w (Script.errorOf (t.setting policy) depth thrown w).2 := by
  induction depth generalizing thrown w with
  | zero =>
    unfold Script.errorOf
    split
    · exact hR.refl w
    · split <;> exact hR.refl w
  | succ depth ih =>
    unfold Script.errorOf
    split
    · exact hR.refl w
    · split
      · exact hR.refl w
      · have hrun := run_rel t hR t.fuel (textMachine_within hR.toAdmits thrown.value w)
        simp only
        split
        · exact hrun
        · exact hR.trans hrun (ih _ _)
        · exact hrun

theorem call_rel (f : Value) (args : List Value) (w : Script.Vm Thing) :
    R w (Script.call (t.setting policy) f args w).2 := by
  have hrun := run_rel t hR t.fuel (Lua.Machine.within_ofCall hR.toAdmits f args w)
  unfold Script.call Script.finish
  simp only
  split
  · exact hrun
  · exact hR.trans hrun (errorOf_rel t hR _ _ _)
  · exact hrun

theorem chunk_rel (name source : Lua.Bytes) (w : Script.Vm Thing) :
    R w (Script.chunk (t.setting policy) name source w).2 := by
  unfold Script.chunk
  split
  · exact hR.refl w
  · simp only
    split
    · exact hR.heap _ _ _ _
    · exact hR.trans (hR.heap _ _ _ _) (call_rel t hR _ _ _)

theorem startModule_rel (given : String) (w : Script.Vm Thing) :
    R w (Script.startModule (t.setting policy) given w).2 := by
  have htaken := hR.turn (.module (Bridge.moduleOf given)) trivial w.heap w.host w.meter
  unfold Script.startModule
  simp only
  split
  · exact htaken
  · exact hR.trans htaken (chunk_rel t hR _ _ _)

theorem callEach_rel (args fs : List Value) (w : Script.Vm Thing) :
    R w (Script.callEach (t.setting policy) args fs w).2 := by
  induction fs generalizing w with
  | nil => exact hR.refl w
  | cons f rest ih =>
    have hcall := call_rel t hR f args w
    unfold Script.callEach
    split
    · next heq =>
      rw [heq] at hcall
      exact hR.trans hcall (ih _)
    · next heq =>
      rw [heq] at hcall
      exact hcall

theorem fire_rel (name : String) (args : List Value) (w : Script.Vm Thing) :
    R w (Script.fire (t.setting policy) name args w).2 := by
  have hcalls := callEach_rel t hR args (w.host.callbacks[name]?.getD []) w
  unfold Script.fire
  simp only
  split
  · next heq =>
    rw [heq] at hcalls
    exact hcalls
  · next heq =>
    rw [heq] at hcalls
    exact hcalls

omit hR in
theorem limited_turns {α : Type} (phase : Phase) (budget : Trust.Effective)
    {run : Script.Vm Thing → Result Thing α} (hrun : ∀ w, TurnsBetween policy w (run w).2)
    (w : Script.Vm Thing) : TurnsBetween policy w (Script.limited phase budget run w).2 :=
  hrun ⟨w.heap, w.host, some (Script.meterOf phase budget)⟩

end Scripts

/-! ## Setting up -/

section SetUp

variable (t : Terms) (policy : Policy)

theorem object_turns (type : String) (w : Script.Vm Thing) :
    TurnsBetween policy w (Api.create type .service w).2 := .one (.object type) trivial w.host

theorem installObjects_turns (w : Script.Vm Thing) :
    TurnsBetween policy w (Script.installObjects w) := by
  unfold Script.installObjects
  generalize Api.globalObjects = objects
  induction objects generalizing w with
  | nil => exact .refl _
  | cons o rest ih =>
    obtain ⟨name, type⟩ := o
    have hobject := object_turns policy type w
    simp only [List.foldl_cons]
    refine Turns.trans ?_ (ih _)
    split
    · next heq =>
      rw [heq] at hobject
      exact hobject
    · next heq =>
      rw [heq] at hobject
      exact hobject

theorem install_turns (w : Script.Vm Thing) : TurnsBetween policy w (Script.install w).2 := by
  obtain ⟨heap, services, meter⟩ := w
  unfold Script.install
  simp only
  generalize heap.rawGet heap.globals (.text "tostring") = stringifier
  split
  · exact installObjects_turns policy ⟨Script.installOutput stringifier heap, services, meter⟩
  · exact .refl services

theorem setUp_turns (modules : Modules) (services : Api.Services) :
    Turns Turn.Steady policy services
      (Instance.setUp (t.setting policy) t modules services).2.host := by
  have hboot : Turns Turn.Steady policy services
      (Script.boot (t.setting policy) t.sandbox t.memory services).2.host :=
    chunk_rel t (admits_turnsBetween policy) _ _ _
  unfold Instance.setUp
  split
  · next heq =>
    rw [heq] at hboot
    exact hboot
  · next w heq =>
    rw [heq] at hboot
    have hinstall := install_turns policy w
    split
    · next heq =>
      rw [heq] at hinstall
      exact hboot.trans hinstall
    · next heq =>
      rw [heq] at hinstall
      exact (hboot.trans hinstall).trans (.one (.install modules) trivial _)

end SetUp

/-! ## Operations

An operation on an instance is a few steps one after the other, as long as there is no error.  A property of instances
that none of the steps takes away is kept by the operation.
-/

section Steps

variable {P : Instance → Prop} {t : Terms} {policy : Policy} {i : Instance}

theorem during_keeps (h : P i) {stage : Stage} {action : String} {run : Instance → Outcome} (hrun : P (run i).2) :
    P (i.during stage action run).2 := by
  unfold Instance.during
  split
  · exact hrun
  · exact h

/-- A second step is taken unless the first one fails. -/
theorem then_keeps {o : Outcome} {next : Instance → Outcome} (hnext : ∀ i, P i → P (next i).2) :
    P o.2 → P (match o with
      | (.error e, i) => (.error e, i)
      | (.ok (), i) => next i : Outcome).2 := by
  intro h
  obtain ⟨result, i⟩ := o
  cases result with
  | error e => exact h
  | ok _ => exact hnext i h

theorem dispatchWaiting_keeps (htaken : ∀ i c mailbox, i.services.mailbox.next? = some (c, mailbox) → P i →
      P { i with services := { i.services with mailbox } })
    (hdispatch : ∀ i e, P i → P (i.dispatch t policy e).2) (h : P i) (n : Nat) :
    P (Instance.dispatchWaiting t policy n i).2 := by
  induction n generalizing i with
  | zero => exact h
  | succ n ih =>
    unfold Instance.dispatchWaiting
    split
    · exact h
    · next c mailbox hnext => exact then_keeps (fun _ => ih) (hdispatch _ _ (htaken i c mailbox hnext h))

theorem tick_keeps (hclock : ∀ i, P i → P { i with services := i.services.tickQuotas policy })
    (htaken : ∀ i c mailbox, i.services.mailbox.next? = some (c, mailbox) → P i →
      P { i with services := { i.services with mailbox } })
    (hdispatch : ∀ i e, P i → P (i.dispatch t policy e).2) (h : P i) : P (i.tick t policy).2 :=
  during_keeps h (then_keeps (fun i => hdispatch i .tick) (dispatchWaiting_keeps htaken hdispatch (hclock i h) _))

theorem render_keeps (hdispatch : ∀ i e, P i → P (i.dispatch t policy e).2)
    (hupload : ∀ i, P i → P { i with services := i.services.uploadDirty.2 }) (h : P i) (delta : Float) :
    P (i.render t policy delta).2 :=
  during_keeps h (then_keeps hupload (hdispatch i (.render delta) h))

end Steps

/-! ## Instances -/

/-- Memory that is let go is gone, and only the services are others. -/
theorem release_eq (s : Script.Setting Thing) (i : Instance) :
    ∃ services, i.release s = { i with heap := none, services } := by
  obtain ⟨source, stage, heap, services, lastError⟩ := i
  cases heap with
  | none => exact ⟨services, rfl⟩
  | some heap => exact ⟨_, rfl⟩

/-- An instance that said why it fails, before its memory goes. -/
def Instance.blame (e : Script.Error) (i : Instance) : Instance :=
  let i := i.note .error ("faulted: " ++ e.message)
  { i with services := i.services.pushLog "error" e.message }

theorem fault_of_blame (s : Script.Setting Thing) (i : Instance) (e : Script.Error) :
    let left := (i.blame e).release s
    i.fault s e = (.error (.script i.name e.message (Script.errorLine? e.message)),
      { left with services := Instance.heed (.error e) left.services }.fail e.message) := rfl

/-- A package that fails has no memory any more, and tells why. -/
theorem fault_eq (s : Script.Setting Thing) (i : Instance) (e : Script.Error) :
    ∃ services, i.fault s e = (.error (.script i.name e.message (Script.errorLine? e.message)),
      { i with heap := none, services : Instance }.fail e.message) := by
  obtain ⟨services, heq⟩ := release_eq s (i.blame e)
  refine ⟨Instance.heed (.error e) services, ?_⟩
  rw [fault_of_blame, heq]
  rfl

/-- So does one that cannot be set up. -/
theorem failSetup_eq (s : Script.Setting Thing) (i : Instance) (e : Script.Error) :
    ∃ services, i.failSetup s e = (.error (.setup i.name e.message),
      { i with stage := .faulted, heap := none, services, lastError := some e.message }) := by
  obtain ⟨services, heq⟩ := release_eq s ((i.note .error ("setup failed: " ++ e.message)).fail e.message)
  refine ⟨Instance.heed (.error e) services, ?_⟩
  unfold Instance.failSetup
  simp only [heq]
  rfl

section Instances

variable (t : Terms) (policy : Policy) (i : Instance)

theorem handOver_lasts (w : Script.Vm Thing) : Turns Turn.Last policy w.host (Instance.handOver w).2 := by
  unfold Instance.handOver
  simp only
  split
  · exact .refl _
  · exact .one (.printed _) trivial _

theorem handOver_turns (w : Script.Vm Thing) :
    Turns Turn.Steady policy w.host (Instance.handOver w).2 := (handOver_lasts policy w).mono fun _ h => h.steady

theorem heed_lasts (result : Except Script.Error Unit) (services : Api.Services) :
    Turns Turn.Last policy services (Instance.heed result services) := by
  unfold Instance.heed
  split
  · exact .one .unending trivial _
  · exact .refl _

theorem heed_turns (result : Except Script.Error Unit) (services : Api.Services) :
    Turns Turn.Steady policy services (Instance.heed result services) :=
  (heed_lasts policy result services).mono fun _ h => h.steady

theorem fail_turns (reason : String) : Turns Turn.Steady policy i.services (i.fail reason).services :=
  .one .shutdown trivial _

theorem note_turns (line : String → Diagnostic) (text : String) :
    Turns Turn.Steady policy i.services (i.note line text).services := .one (.note _) trivial _

theorem release_lasts :
    Turns Turn.Last policy i.services (i.release (t.setting policy)).services := by
  obtain ⟨source, stage, heap, services, lastError⟩ := i
  cases heap with
  | none => exact .refl _
  | some heap =>
    have hreleased := release_rel t (admits_turns (fun _ h => h.last) policy) ⟨heap, services, none⟩
    exact (hreleased.trans (handOver_lasts policy _)).trans (heed_lasts policy _ _)

theorem release_turns :
    Turns Turn.Steady policy i.services (i.release (t.setting policy)).services :=
  (release_lasts t policy i).mono fun _ h => h.steady

theorem failSetup_turns (e : Script.Error) :
    Turns Turn.Steady policy i.services (i.failSetup (t.setting policy) e).2.services :=
  (((note_turns policy i _ _).trans (fail_turns policy _ _)).trans (release_turns t policy _)).trans
    (heed_turns policy (.error e) _)

theorem fault_turns (e : Script.Error) :
    Turns Turn.Steady policy i.services (i.fault (t.setting policy) e).2.services := by
  have hblamed : Turns Turn.Steady policy i.services (i.blame e).services :=
    (note_turns policy i _ _).trans (.one (.log "error" e.message) trivial _)
  have hleft := (hblamed.trans (release_turns t policy (i.blame e))).trans (heed_turns policy (.error e) _)
  exact hleft.trans (fail_turns policy { (i.blame e).release (t.setting policy) with services := _ } e.message)

theorem runScripts_turns {α : Type} {run : Script.Vm Thing → Script.Result Thing α}
    (hrun : ∀ w, TurnsBetween policy w (run w).2) :
    Turns Turn.Steady policy i.services (i.runScripts (t.setting policy) run).2.services := by
  obtain ⟨source, stage, heap, services, lastError⟩ := i
  cases heap with
  | none => exact .refl _
  | some heap =>
    have hran : Turns Turn.Steady policy services (Instance.handOver (run ⟨heap, services, none⟩).2).2 :=
      (hrun ⟨heap, services, none⟩).trans (handOver_turns policy _)
    unfold Instance.runScripts
    simp only
    split
    · exact hran
    · exact hran.trans (fault_turns t policy _ _)

theorem enter_turns (entry : String) :
    Turns Turn.Steady policy i.services (i.enter t policy entry).2.services := by
  unfold Instance.enter
  generalize hi : i.note .info _ = noted
  have hnoted : Turns Turn.Steady policy i.services noted.services := hi ▸ note_turns policy i _ _
  refine hnoted.trans (.trans (.one (.consult Phase.init.capability) trivial _) ?_)
  exact runScripts_turns t policy { noted with services := _ } fun w =>
    limited_turns _ _ (startModule_rel t (admits_turnsBetween policy) entry) w

theorem start_turns : Turns Turn.Steady policy i.services (i.start t policy).2.services := by
  refine during_keeps (P := fun i' => Turns Turn.Steady policy i.services i'.services) (.refl _) ?_
  split
  · exact note_turns policy i _ _
  · have hready := (setUp_turns t policy i.source.modules i.services).trans
      (handOver_turns policy _)
    simp only
    split
    · exact hready.trans (failSetup_turns t policy _ _)
    · exact hready.trans (enter_turns t policy _ _)

theorem dispatch_turns (e : Event) : Turns Turn.Steady policy i.services (i.dispatch t policy e).2.services := by
  refine during_keeps (P := fun i' => Turns Turn.Steady policy i.services i'.services) (.refl _) ?_
  refine .trans (.one (.consult e.phase.capability) trivial _) ?_
  exact runScripts_turns t policy _ fun w => limited_turns _ _ (fire_rel t (admits_turnsBetween policy) _ _) w

theorem taken_turns {c : Host.Completion} {mailbox : Host.Mailbox}
    (hnext : i.services.mailbox.next? = some (c, mailbox)) :
    Turns (fun _ => True) policy i.services { i.services with mailbox } := by
  have h : Turns (fun _ => True) policy i.services (Turn.taken.apply policy i.services) := .one .taken trivial _
  simpa [Turn.apply, hnext] using h

theorem tick_turns : Turns (fun _ => True) policy i.services (i.tick t policy).2.services :=
  tick_keeps (P := fun i' => Turns (fun _ => True) policy i.services i'.services)
    (fun _ h => h.trans (.one .clock trivial _)) (fun i _ _ hnext h => h.trans (taken_turns policy i hnext))
    (fun i e h => h.trans (dispatch_turns t policy i e).any) (.refl _)

theorem render_turns (delta : Float) :
    Turns Turn.Steady policy i.services (i.render t policy delta).2.services :=
  render_keeps (P := fun i' => Turns Turn.Steady policy i.services i'.services)
    (fun i e h => h.trans (dispatch_turns t policy i e)) (fun _ h => h.trans (.one .upload trivial _)) (.refl _) delta

theorem unload_turns :
    Turns (fun _ => True) policy i.services (i.unload (t.setting policy)).services := by
  unfold Instance.unload
  split
  · exact .refl _
  · have hreleased := release_turns t policy { i with services := i.services.shutdown }
    refine (Turns.one .shutdown trivial _).trans (hreleased.any.trans ?_)
    exact .trans (.one .drained trivial _) (.one (.note _) trivial _)

end Instances

/-! ## Runs -/

/-- Something that the host does with an instance. -/
inductive Operation where
  | start
  | tick
  | render (delta : Float)
  | dispatch (e : Event)
  | answer (c : Host.Completion)
  | unload

/-- The instance after an operation under a policy. -/
def Operation.apply (t : Terms) (policy : Policy) (op : Operation) (i : Instance) : Instance :=
  match op with
  | .start => (i.start t policy).2
  | .tick => (i.tick t policy).2
  | .render delta => (i.render t policy delta).2
  | .dispatch e => (i.dispatch t policy e).2
  | .answer c => { i with services := (Turn.delivered c).apply policy i.services }
  | .unload => i.unload (t.setting policy)

/-- The instance after operations, each under the policy in force when it is done. -/
def afterAll (t : Terms) (i : Instance) (ops : List (Policy × Operation)) : Instance :=
  ops.foldl (fun i (policy, op) => op.apply t policy i) i

/-- The turns of some operations, each under the policy of its operation. -/
def underPolicies (ops : List (Policy × Operation)) (parts : List (List Turn)) :
    List (Policy × Turn) :=
  (ops.zip parts).flatMap fun (op, part) => part.map (op.1, ·)

theorem operation_turns (t : Terms) (policy : Policy) (op : Operation) (i : Instance) :
    Turns (fun _ => True) policy i.services (op.apply t policy i).services := by
  cases op with
  | start => exact (start_turns t policy i).any
  | tick => exact tick_turns t policy i
  | render delta => exact (render_turns t policy i delta).any
  | dispatch e => exact (dispatch_turns t policy i e).any
  | answer c => exact .one (.delivered c) trivial _
  | unload => exact unload_turns t policy i

/-- What operations do to the services of an instance is one list of turns for each operation. -/
theorem run_is_play (t : Terms) (i : Instance) (ops : List (Policy × Operation)) :
    ∃ parts : List (List Turn), parts.length = ops.length ∧
      (afterAll t i ops).services = play i.services (underPolicies ops parts) := by
  induction ops generalizing i with
  | nil => exact ⟨[], rfl, rfl⟩
  | cons o rest ih =>
    obtain ⟨policy, op⟩ := o
    obtain ⟨part, -, hpart⟩ := operation_turns t policy op i
    obtain ⟨parts, hlength, hrest⟩ := ih (op.apply t policy i)
    refine ⟨part :: parts, by simp [hlength], ?_⟩
    have hsplit : underPolicies ((policy, op) :: rest) (part :: parts) =
        part.map (policy, ·) ++ underPolicies rest parts := rfl
    rw [hsplit, play_append, ← hpart, ← hrest]
    rfl

end ScriptWarden.Package
