import ScriptWarden.Proofs.Bridge.Quiet
import ScriptWarden.Proofs.Lua.Library.Install
set_option autoImplicit false

/-!
# Bridge: the host keeps the guard

The host holds functions of scripts as callbacks, and gives values to scripts.  As long as it was given public
values only, it gives nothing else.
-/

namespace ScriptWarden

open Lua (Closure HasPublic Heap IsPublic Native Value Ward World)
open Package (Services)

/-- All registered functions are public. -/
def Package.Services.Public {κ : Type} (s : Services κ) : Prop :=
  ∀ name : String, IsPublic (s.callbacks[name]?.getD [])

/-- What is watched in a package: the guard, and the registered functions. -/
def Package.ward (κ : Type) (guard : Closure) : Ward (Services κ) := ⟨guard, Services.Public⟩

namespace Bridge

/-- A function among the arguments is public. -/
instance : HasPublic Argument where
  Public
    | .function f => IsPublic f
    | _ => True

@[simp] theorem isPublic_function (f : Value) : IsPublic (Argument.function f) ↔ IsPublic f := .rfl

theorem isPublic_ofValue (h : Heap) (objects : Array Object) {v : Value} (hv : IsPublic v) :
    IsPublic (Argument.ofValue h objects v) := by
  unfold Argument.ofValue
  split <;> exact hv

variable {κ α β : Type} [HasPublic α] [HasPublic β] {guard : Closure}

/-! ## Actions -/

/-- An action keeps the guard: it leaves it standing, and its result is public. -/
def Action.Keeps (guard : Closure) (a : Action κ α) : Prop :=
  ∀ shared w, w.Guarded (Package.ward κ guard) shared →
    w.Later (Package.ward κ guard) shared (a w).2 ∧ IsPublic (a w).1

namespace Action

theorem keeps_pure {a : α} (ha : IsPublic a) : (pure a : Action κ α).Keeps guard :=
  fun _ _ hw => ⟨hw.later, (Lua.isPublic_ok a).2 ha⟩

theorem keeps_fail (message : String) : (fail message : Action κ α).Keeps guard :=
  fun _ _ hw => ⟨hw.later, Lua.isPublic_error _⟩

theorem keeps_look {f : Services κ → α} (hf : ∀ s, s.Public → IsPublic (f s)) :
    (look f : Action κ α).Keeps guard :=
  fun _ w hw => ⟨hw.later, (Lua.isPublic_ok _).2 (hf w.host hw.2)⟩

/-- A change of the services that leaves the registered functions alone, or adds public ones. -/
theorem keeps_onServices {f : Services κ → α × Services κ}
    (hf : ∀ s, s.Public → IsPublic (f s).1 ∧ (f s).2.Public) : (onServices f).Keeps guard :=
  fun shared w hw => ⟨⟨shared, .refl shared w.heap, hw.1, (hf w.host hw.2).2⟩,
    (Lua.isPublic_ok _).2 (hf w.host hw.2).1⟩

theorem keeps_onHeap {f : Heap → α × Heap}
    (hf : ∀ shared h, h.Guarded guard shared → IsPublic (f h).1 ∧ (f h).2.Guarded guard shared)
    (hglobals : ∀ h, (f h).2.globals = h.globals) (hcells : ∀ h, (f h).2.cells = h.cells) :
    (onHeap f : Action κ α).Keeps guard := by
  intro shared w hw
  obtain ⟨ha, hguarded⟩ := hf shared w.heap hw.1
  exact ⟨⟨shared, .of_cells (hglobals _) (hcells _), hguarded, hw.2⟩, (Lua.isPublic_ok _).2 ha⟩

theorem Keeps.bind {a : Action κ α} {f : α → Action κ β} (ha : a.Keeps guard)
    (hf : ∀ x, IsPublic x → (f x).Keeps guard) : (a >>= f).Keeps guard := by
  intro shared w hw
  obtain ⟨hlater, hresult⟩ := ha shared w hw
  rw [bind_apply]
  split
  · next x w' heq =>
    rw [heq] at hlater hresult
    have hx := (Lua.isPublic_ok x).1 hresult
    have ⟨shared', _, hw'⟩ := hlater
    exact ⟨hlater.trans fun shared'' hw'' => (hf x hx shared'' w' hw'').1, (hf x hx shared' w' hw').2⟩
  · next e w' heq =>
    rw [heq] at hlater
    exact ⟨hlater, Lua.isPublic_error e⟩

theorem keeps_ite {c : Prop} [Decidable c] {a b : Action κ α} (ha : a.Keeps guard)
    (hb : b.Keeps guard) : (if c then a else b).Keeps guard := by
  split
  · exact ha
  · exact hb

/-- What fails at once leaves everything alone. -/
theorem keeps_lift_bind {γ : Type} {x : Except String γ} {f : γ → Action κ α}
    (hf : ∀ c, x = .ok c → (f c).Keeps guard) : ((liftM x : Action κ γ) >>= f).Keeps guard := by
  cases x with
  | error e => exact keeps_fail e
  | ok c => exact hf c rfl

/-- A look at the services that shows no values. -/
theorem keeps_look_bind {γ : Type} (f : Services κ → γ) {k : γ → Action κ α}
    (hk : ∀ c, (k c).Keeps guard) : (look f >>= k).Keeps guard :=
  fun shared w hw => hk (f w.host) shared w hw

/-- A change of the services that gives no values. -/
theorem keeps_onServices_bind {γ : Type} {f : Services κ → γ × Services κ} {k : γ → Action κ α}
    (hf : ∀ s, s.Public → (f s).2.Public) (hk : ∀ c, (k c).Keeps guard) :
    (onServices f >>= k).Keeps guard :=
  fun shared w hw => hk (f w.host).1 shared ⟨w.heap, (f w.host).2, w.meter⟩ ⟨hw.1, hf w.host hw.2⟩

end Action

/-! ## Errors -/

variable {args : List Value}

theorem keeps_raiseHost (e : Lua.Raised) :
    (raiseHost e : Native (Services κ) α).Keeps (Package.ward κ guard) := by
  refine Native.Keeps.bind (Native.keeps_create fun shared _ hh => ?_) fun id _ => ?_
  · exact ⟨trivial, shared, .of_cells rfl rfl, hh.of_eq rfl rfl rfl rfl rfl⟩
  · exact Native.keeps_fail (Lua.isPublic_raised id)

theorem keeps_raiseText (message : String) :
    (raiseText message : Native (Services κ) α).Keeps (Package.ward κ guard) := keeps_raiseHost _

theorem keeps_perform {a : Action κ α} (ha : a.Keeps guard) :
    (perform a).Keeps (Package.ward κ guard) := by
  intro shared w hw
  obtain ⟨hlater, hresult⟩ := ha shared ⟨w.heap, w.host, none⟩ hw
  unfold perform
  simp only
  generalize a ⟨w.heap, w.host, none⟩ = result at hlater hresult
  obtain ⟨r, heap, services, meter⟩ := result
  have hafter : w.Later (Package.ward κ guard) shared ⟨heap, services, w.meter⟩ := hlater
  cases r with
  | ok x => exact ⟨hafter, (Lua.isPublic_ok x).1 hresult⟩
  | error message => exact .of_later (fun shared' hw' => keeps_raiseText message shared' _ hw') hafter

theorem keeps_raisedOf (t : Lua.Thrown) (ht : IsPublic t) :
    (raisedOf t : Native (Services κ) Lua.Raised).Keeps (Package.ward κ guard) := by
  refine Native.keeps_ite (Native.keeps_pure trivial) ?_
  split
  · exact Native.keeps_look _
  · exact (Lua.Access.keeps_text ht).lift.bind fun _ _ => Native.keeps_pure trivial

theorem keeps_callBack {f : Value} (hf : IsPublic f) (hargs : IsPublic args) :
    (callBack f args : Native (Services κ) (List Value)).Keeps (Package.ward κ guard) := by
  refine (Native.keeps_guarded hf hargs Lua.isPublic_none).bind fun answer hanswer => ?_
  cases answer with
  | values vs => exact Native.keeps_pure hanswer
  | raised t => exact (keeps_raisedOf t hanswer).bind fun e _ => keeps_raiseHost e

/-! ## Output and modules -/

theorem keeps_textOf (v : Value) (lead : String) :
    (textOf v lead : Native (Services κ) String).Keeps (Package.ward κ guard) := by
  unfold textOf
  split
  · exact Native.keeps_pure trivial
  · exact keeps_raiseHost _

theorem isPublic_first (hargs : IsPublic args) : IsPublic [args.headD .nil] :=
  (Lua.isPublic_cons _ _).2 ⟨hargs.headD, Lua.isPublic_emptyList⟩

theorem keeps_output (level : String) (hargs : IsPublic args) :
    (output level args : Native (Services κ) (List Value)).Keeps (Package.ward κ guard) := by
  refine (Native.keeps_heap fun _ _ hh => hh.stringifier).bind fun stringifier hstringifier => ?_
  refine (keeps_callBack hstringifier (isPublic_first hargs)).bind fun vs _ => ?_
  refine (keeps_textOf _ _).bind fun message _ => ?_
  have hlog : (Native.host fun s => ((), s.pushLog level message) :
      Native (Services κ) Unit).Keeps (Package.ward κ guard) := Native.keeps_host fun _ hs => ⟨trivial, hs⟩
  exact hlog.bind fun _ _ => Native.keeps_pure Lua.isPublic_emptyList

theorem keeps_load (name source : Lua.Bytes) :
    (load name source : Native (Services κ) Value).Keeps (Package.ward κ guard) := by
  unfold load
  split
  · exact keeps_raiseText _
  · refine (Native.keeps_create fun _ _ hh =>
      Lua.Library.guarded_loadSource hh name source Lua.isPublic_none).bind fun r hr => ?_
    cases r with
    | error message => exact keeps_raiseHost _
    | ok f => exact Native.keeps_pure ((Lua.isPublic_ok f).1 hr)

theorem keeps_startModule (given : String) :
    (startModule given : Native (Services κ) (List Value)).Keeps (Package.ward κ guard) := by
  have htake : (Native.host (takeModule (moduleOf given)) :
      Native (Services κ) (Option String)).Keeps (Package.ward κ guard) :=
    Native.keeps_host fun _ hs => ⟨fun _ _ => trivial, hs⟩
  refine htake.bind fun source _ => ?_
  cases source with
  | none => exact keeps_raiseText _
  | some source => exact (keeps_load _ _).bind fun f hf => keeps_callBack hf Lua.isPublic_emptyList

theorem keeps_requireModule :
    (requireModule args : Native (Services κ) (List Value)).Keeps (Package.ward κ guard) :=
  (keeps_textOf _ _).bind fun _ _ => keeps_startModule _

/-! ## Objects -/

/-- What holds of every member of a registry whose actions keep the guard. -/
def Member.Keeps (guard : Closure) : Member κ → Prop
  | .method _ run => ∀ c : Call, IsPublic c.this → IsPublic c.arguments → (run c).Keeps guard
  | .field _ get => ∀ state, (get state).Keeps guard

/-- Every member of every type keeps the guard. -/
def Registry.Keeps (guard : Closure) (r : Registry κ) : Prop :=
  r.All fun _ _ m => m.Keeps guard

theorem keeps_checkAlive : (checkAlive : Action κ Unit).Keeps guard := by
  have hstate : (Action.look fun s => (s.alive, s.package) : Action κ (Bool × String)).Keeps guard :=
    Action.keeps_look fun _ _ => ⟨trivial, trivial⟩
  exact hstate.bind fun _ _ => Action.keeps_ite (Action.keeps_fail _) (Action.keeps_pure trivial)

theorem keeps_seenAll {vs : List Value} (hvs : IsPublic vs) :
    (seenAll vs : Action κ (List Argument)).Keeps guard := by
  refine fun _ w hw => ⟨hw.later, (Lua.isPublic_ok _).2 fun a ha => ?_⟩
  obtain ⟨v, hv, rfl⟩ := List.mem_map.1 ha
  exact isPublic_ofValue _ _ (hvs v hv)

theorem keeps_methodFunction (type name : String) :
    (methodFunction type name : Native (Services κ) Value).Keeps (Package.ward κ guard) := by
  refine Native.keeps_host fun s hs => ?_
  simp only
  split
  · exact ⟨Lua.isPublic_host _, hs⟩
  · exact ⟨Lua.isPublic_host _, hs⟩

theorem keeps_memberName :
    (memberName args : Native (Services κ) (Object × String)).Keeps (Package.ward κ guard) :=
  fun _ _ hw => ⟨hw.later, trivial, trivial⟩

variable {r : Registry κ}

theorem keeps_findMember (hr : r.Keeps guard) :
    (findMember r args).Keeps (Package.ward κ guard) := by
  refine keeps_memberName.bind fun (o, name) _ => ?_
  simp only
  split
  · exact (keeps_methodFunction _ _).bind fun v hv => Native.keeps_pure (by simp [hv])
  · next get _ hmember =>
    have hget : (readField get o.state).Keeps guard :=
      keeps_checkAlive.bind fun _ _ => hr o.type name _ hmember o.state
    exact (keeps_perform hget).bind fun v hv => Native.keeps_pure (by simp [hv])
  · exact keeps_raiseText _

theorem keeps_readMember (hr : r.Keeps guard) :
    (readMember r args).Keeps (Package.ward κ guard) := by
  intro shared w hw
  change ((if w.heap.hasRoom _ then findMember r args else raiseHost noRoom) w).Keeps _ shared w
  exact Native.keeps_ite (keeps_findMember hr) (keeps_raiseHost noRoom) shared w hw

theorem keeps_refuseMember : (refuseMember r args).Keeps (Package.ward κ guard) := by
  refine keeps_memberName.bind fun (o, name) _ => ?_
  simp only
  split
  · exact keeps_raiseText _
  · exact keeps_raiseText _

theorem isPublic_trimmed {shown : List Argument} (hshown : IsPublic shown) :
    IsPublic (trimmed shown) := by
  intro a ha
  have hkept : a ∈ shown.reverse.dropWhile (·.isNil) := List.mem_reverse.1 ha
  exact hshown a (List.mem_reverse.1 ((List.dropWhile_sublist _).subset hkept))

theorem keeps_callMethod (hr : r.Keeps guard) (policy : Trust.Policy) (type name : String) {this : Value}
    (hthis : IsPublic this) (values : List Value) (state : Nat) {shown : List Argument}
    (hshown : IsPublic shown) :
    (callMethod r policy type name this values state shown).Keeps guard := by
  refine keeps_checkAlive.bind fun _ _ => ?_
  split
  · next overloads run hmember =>
    simp only
    split
    · exact Action.keeps_fail _
    · exact hr type name _ hmember _ hthis (isPublic_trimmed hshown)
  · exact Action.keeps_fail _

theorem keeps_bridgeCall (hr : r.Keeps guard) (policy : Trust.Policy) (type name : String)
    (hargs : IsPublic args) : (bridgeCall r policy type name args).Keeps guard := by
  unfold bridgeCall
  cases args with
  | nil => exact Action.keeps_fail _
  | cons this values =>
    refine (keeps_seenAll hargs).bind fun shown hshown => ?_
    split
    · refine Action.keeps_ite ?_ (Action.keeps_fail _)
      exact keeps_callMethod hr policy type name ((Lua.isPublic_cons _ _).1 hargs).1 _ _
        (hshown.sublist (List.tail_sublist shown))
    · exact Action.keeps_fail _

/-- The functions of the host keep the guard, if the members that scripts can reach do. -/
theorem keeps_hostFunctions (hr : r.Keeps guard) (policy : Trust.Policy) (f : Lua.HostFunction)
    (hargs : IsPublic args) : (hostFunctions r policy f args).Keeps (Package.ward κ guard) := by
  cases f with
  | output level => exact keeps_output level hargs
  | outputCall =>
    have htail : IsPublic args.tail := hargs.sublist (List.tail_sublist args)
    refine (Native.keeps_guarded (Lua.isPublic_host _) htail Lua.isPublic_none).bind fun answer h => ?_
    cases answer with
    | values vs => exact Native.keeps_pure Lua.isPublic_emptyList
    | raised t => exact (keeps_raisedOf t h).bind fun e _ => keeps_raiseHost e
  | require => exact keeps_requireModule
  | method type name => exact keeps_perform (keeps_bridgeCall hr policy type name hargs)
  | member => exact keeps_readMember hr
  | setMember => exact keeps_refuseMember
  | objectText =>
    have htype : (Native.host fun s => ((objectOf s (args.headD .nil)).type, s) :
        Native (Services κ) String).Keeps (Package.ward κ guard) :=
      Native.keeps_host fun _ hs => ⟨trivial, hs⟩
    exact htype.bind fun _ _ => Native.keeps_pure (by simp)
  | sameObject =>
    unfold hostFunctions sameObject
    refine Native.keeps_host fun s hs => ?_
    split
    · exact ⟨by simp, hs⟩
    · exact ⟨by simp, hs⟩

/-- Every public function of a package keeps the guard. -/
theorem keeps_natives (hr : r.Keeps guard) (policy : Trust.Policy) (collector : Lua.Collector) {f : Value}
    (hf : IsPublic f) (hargs : IsPublic args) :
    (natives r policy collector f args).Keeps (Package.ward κ guard) :=
  Lua.Library.keeps_natives collector (fun f _ hargs => keeps_hostFunctions hr policy f hargs) hf hargs

end Bridge

end ScriptWarden
