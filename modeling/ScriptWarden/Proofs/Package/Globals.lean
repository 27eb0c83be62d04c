import ScriptWarden.Proofs.Package.Activity
import ScriptWarden.Proofs.Script.SetUp
set_option autoImplicit false

/-!
# Packages: the metatable of the global table

The sandbox keeps scripts from giving the global table a metatable: the function that does so is behind a guard.  The
guard itself is a script, and works with the global variables `_G` and `error` as it finds them.  Where they have
their first values whenever the guard is at work on the global table, that table never has a metatable, whatever the
scripts do and whatever else they have changed before (`no_metatable_unless_disturbed`).  A script that takes `_G` away
first gets past the guard (`rerouted_without_name`).
-/

namespace ScriptWarden.Package

open Api (Thing)
open Lua (IsPublic Machine Value World)
open Relation (ReflTransGen)
open Script (Vm sandboxGuard)

/-- What is watched from the sandbox script on. -/
def sandboxWard : Lua.Ward Api.Services := ward Thing sandboxGuard

/-! ## States that keep the guard -/

/-- The guard stands, and what is called next is public. -/
def Activity.Guarded : Activity → Prop
  | .idle todo w => IsPublic todo ∧ ∃ shared, w.Guarded sandboxWard shared
  | .running todo m => IsPublic todo ∧ m.Guarded sandboxWard

/-- If the guard is at work on the global table, the names that it relies on have their first values. -/
def Activity.Undisturbed : Activity → Prop
  | .idle _ _ => True
  | .running _ m => m.Guarding sandboxGuard → m.world.heap.Intact

theorem Activity.Guarded.world {a : Activity} (ha : a.Guarded) : ∃ shared, a.world.Guarded sandboxWard shared := by
  cases a with
  | idle todo w => exact ha.2
  | running todo m => exact ha.2.world

/-! ## Machines that begin -/

section Machines

variable {w : Vm Thing} {shared : Nat → Prop}

theorem guarded_ofCall (hw : w.Guarded sandboxWard shared) {f : Value} (hf : IsPublic f)
    {args : List Value} (hargs : IsPublic args) : (Machine.ofCall f args w).Guarded sandboxWard :=
  .call hw .nil hf hargs

theorem guarded_textMachine (hw : w.Guarded sandboxWard shared) {v : Value} (hv : IsPublic v) :
    (Script.textMachine v w).Guarded sandboxWard := by
  have htext : (do return [.str (← (Lua.Access.text v).lift)] :
      Lua.Native Api.Services (List Value)).Keeps sandboxWard :=
    (Lua.Access.keeps_text hv).lift.bind fun _ _ => Lua.Native.keeps_pure (by simp)
  exact .look hw .nil (htext shared w hw)

theorem guarded_ofClose (hw : w.Guarded sandboxWard shared) (collector : Lua.Collector) :
    (Machine.ofClose collector w).Guarded sandboxWard :=
  .look hw .nil ((Machine.keeps_close collector).lift shared w hw)

/-- What a machine raises is public. -/
theorem guarded_of_raised {m : Machine Api.Services} (hm : m.Guarded sandboxWard) {thrown : Lua.Thrown}
    (hraised : m.answer? = some (.raised thrown)) :
    ∃ shared, m.world.Guarded sandboxWard shared ∧ IsPublic thrown.value := by
  obtain ⟨control, stack⟩ := m
  cases hm with
  | finished guarded isPublic =>
    cases hraised
    exact ⟨_, guarded, isPublic⟩
  | _ => cases hraised

/-- What an event is told is public. -/
theorem public_eventArguments (e : Event) : IsPublic (Script.eventArguments e) := by
  cases e with
  | tick => exact Lua.isPublic_emptyList
  | render delta => simp [Script.eventArguments]
  | networkResponse id status body =>
    have hid : IsPublic (if id < 0x8000000000000000 then Value.nat id else .float (Float.ofNat id)) := by
      split
      · exact Lua.isPublic_nat id
      · exact Lua.isPublic_float _
    simpa [Script.eventArguments] using hid

theorem public_registered (hw : w.Guarded sandboxWard shared) (name : String) {args : List Value}
    (hargs : IsPublic args) : IsPublic (registered w name args) := by
  intro pair hpair
  obtain ⟨f, hf, rfl⟩ := List.mem_map.1 hpair
  exact ⟨hw.2 name f hf, hargs⟩

end Machines

/-! ## Steps and runs -/

/-- Whatever happens to the scripts of a package keeps the guard, unless the guard is at work on the global table
while a name it relies on was changed. -/
theorem guarded_of_moves {t : Terms} {a b : Activity} (ha : a.Guarded) (hundisturbed : a.Undisturbed)
    (hmoves : Moves t a b) : b.Guarded := by
  cases hmoves with
  | @load todo w name source f h hload =>
    obtain ⟨htodo, shared, hw⟩ := ha
    obtain ⟨hf, shared', -, hheap⟩ := Lua.Library.guarded_loadSource hw.1 _ _ Lua.isPublic_none
    rw [hload] at hf hheap
    have hloaded : World.Guarded sandboxWard shared' ⟨_, w.host, w.meter⟩ := ⟨hheap, hw.2⟩
    exact ⟨htodo, guarded_ofCall hloaded ((Lua.isPublic_ok _).1 hf) Lua.isPublic_emptyList⟩
  | event e =>
    obtain ⟨htodo, shared, hw⟩ := ha
    exact ⟨public_registered hw e.name (public_eventArguments e), shared, hw⟩
  | call =>
    obtain ⟨htodo, shared, hw⟩ := ha
    obtain ⟨⟨hf, hargs⟩, hrest⟩ := (Lua.isPublic_cons _ _).1 htodo
    exact ⟨hrest, guarded_ofCall hw hf hargs⟩
  | step policy =>
    obtain ⟨htodo, hm⟩ := ha
    exact ⟨htodo, Machine.guarded_step (Script.confined_natives t policy) hm hundisturbed⟩
  | text hraised =>
    obtain ⟨htodo, hm⟩ := ha
    obtain ⟨shared, hw, hthrown⟩ := guarded_of_raised hm hraised
    exact ⟨htodo, guarded_textMachine hw hthrown⟩
  | release =>
    obtain ⟨htodo, shared, hw⟩ := ha
    exact ⟨htodo, guarded_ofClose hw t.collector⟩
  | ended =>
    obtain ⟨htodo, hm⟩ := ha
    exact ⟨htodo, hm.world⟩
  | host hheap hcallbacks =>
    obtain ⟨htodo, shared, hw⟩ := ha
    refine ⟨htodo, shared, ?_, ?_⟩
    · rw [hheap]
      exact hw.1.of_eq rfl rfl rfl rfl rfl
    · intro name
      rw [hcallbacks]
      exact hw.2 name

/-- What scripts come to keeps the guard, unless the guard was disturbed on the way. -/
theorem guarded_or_disturbed {t : Terms} {a b : Activity} (ha : a.Guarded) (hreaches : ReflTransGen (Moves t) a b) :
    b.Guarded ∨ ∃ c, ReflTransGen (Moves t) a c ∧ ¬ c.Undisturbed ∧ ReflTransGen (Moves t) c b := by
  induction hreaches with
  | refl => exact .inl ha
  | @tail b b' hreaches hmoves ih =>
    obtain hb | ⟨c, hbefore, hdisturbed, hafter⟩ := ih
    · by_cases hundisturbed : b.Undisturbed
      · exact .inl (guarded_of_moves hb hundisturbed hmoves)
      · exact .inr ⟨b, hreaches, hundisturbed, .single hmoves⟩
    · exact .inr ⟨c, hbefore, hdisturbed, hafter.tail hmoves⟩

/-- The guard stands when the first code of a package runs. -/
theorem guarded_of_begins {t : Terms} (hsandbox : t.sandbox = Script.builtinSandbox) {a : Activity}
    (ha : Begins t a) : a.Guarded := by
  cases ha with
  | setUp hfresh hready =>
    refine ⟨Lua.isPublic_emptyList, Script.guarded_setUp hsandbox (fun name => ?_) hready⟩
    rw [hfresh]
    exact Lua.isPublic_emptyList

/-- The metatable of the global table, if it has one. -/
def Activity.globalMetatable (a : Activity) : Option Nat :=
  (a.world.heap.table a.world.heap.globals).metatable

/-- **The global table has no metatable until the guard is disturbed.**  In every state that the scripts of a package
come to after the sandbox script, the global table has no metatable, unless on the way there the guard was at work on
that very table while `_G` or `error` did not have its first value.  The memory that an instance holds after any
operations is always that of such a state. -/
theorem no_metatable_unless_disturbed (t : Terms) (hsandbox : t.sandbox = Script.builtinSandbox) :
    (∀ a b, Begins t a → ReflTransGen (Moves t) a b → b.globalMetatable = none ∨
      ∃ c, ReflTransGen (Moves t) a c ∧ ¬ c.Undisturbed ∧ ReflTransGen (Moves t) c b) ∧
    ∀ policy generation source ops heap,
      (afterAll t (.new t policy generation source) ops).heap = some heap →
        ∃ a todo, Begins t a ∧ ReflTransGen (Moves t) a
          (.idle todo ⟨heap, (afterAll t (.new t policy generation source) ops).services, none⟩) := by
  refine ⟨fun a b hbegins hreaches => ?_, fun policy generation source ops => ?_⟩
  · have hguarded := guarded_or_disturbed (guarded_of_begins hsandbox hbegins) hreaches
    refine hguarded.imp_left fun hb => ?_
    obtain ⟨shared, hw⟩ := hb.world
    exact hw.1.metatable
  · exact (reached_afterAll t policy generation source ops).heap

/-! ## A script that disturbs the guard -/

/-- Terms without limits, under which a run is given up after two hundred steps. -/
def unlimited : Terms := { limits := default, memory := 0, fuel := 200 }

/-- Services of a package that may do nothing. -/
def idleServices : Api.Services :=
  { package := "", principal := "", limits := default, gate := { budgets := ∅ }, gallery := .empty 0 }

/-- What the sandbox script leaves. -/
def bareBoot : Script.Result Thing (List Value) :=
  Script.call (unlimited.setting default) (.closure 0) []
    ⟨Script.loadedSandbox (Script.emptyHeap 0), idleServices, none⟩

/-- What the host then puts in. -/
def bareInstall : Script.Result Thing Unit := Script.install bareBoot.2

/-- A package without modules that is set up. -/
def bareWorld : Vm Thing :=
  Script.installRequire ⟨bareInstall.2.heap, { bareInstall.2.host with modules := ∅ }, bareInstall.2.meter⟩

/-- A result that is no error. -/
theorem eq_ok_of_toBool {ε β : Type} {r : Except ε Unit × β} (h : r.1.toBool) : r = (.ok (), r.2) := by
  obtain ⟨r, w⟩ := r
  cases r with
  | error e => cases h
  | ok => rfl

/-- A package is set up once the sandbox script has run and the host has put in what scripts may use. -/
theorem setUp_of_install {s : Script.Setting Thing} {t : Terms} {modules : Modules} {services : Api.Services}
    {w w' : Vm Thing} (hboot : Script.boot s t.sandbox t.memory services = (.ok (), w))
    (hinstall : Script.install w = (.ok (), w')) : Instance.setUp s t modules services =
      (.ok (), Script.installRequire ⟨w'.heap, { w'.host with modules }, w'.meter⟩) := by
  unfold Instance.setUp
  rw [hboot]
  simp only [hinstall]

/-- The sandbox script runs to its end if its one call does. -/
theorem boot_of_call {s : Script.Setting Thing} {memory : Nat} {services : Api.Services} {f : Value}
    {r : Script.Result Thing (List Value)} (hf : .closure (Script.emptyHeap memory).closures.size = f)
    (hcall : Script.call s f [] ⟨Script.loadedSandbox (Script.emptyHeap memory), services, none⟩ = r)
    (hr : r.1.toBool) : Script.boot s Script.builtinSandbox memory services = (.ok (), r.2) := by
  subst hf
  have hloaded := Script.boot_of_load s memory services (Script.loadSource_sandbox _)
  rw [hcall] at hloaded
  obtain ⟨r, w⟩ := r
  cases r with
  | error e => cases hr
  | ok => exact hloaded

/-- Nothing stands in the way of a package without modules. -/
theorem bare_ready : (Script.emptyHeap 0).closures.size = 0 ∧ bareBoot.1.toBool ∧ bareInstall.1.toBool := by
  refine ⟨?_, ?_, ?_⟩ <;> decide +kernel

theorem boot_bare : Script.boot (unlimited.setting default) Script.builtinSandbox 0 idleServices =
    (.ok (), bareBoot.2) := by
  obtain ⟨hempty, hbooted, -⟩ := bare_ready
  exact boot_of_call (congrArg Value.closure hempty) (r := bareBoot) (by unfold bareBoot; exact Eq.refl _) hbooted

theorem install_bare : Script.install bareBoot.2 = (.ok (), bareInstall.2) :=
  eq_ok_of_toBool bare_ready.2.2

theorem begins_bareWorld : Begins unlimited (.idle [] bareWorld) := by
  have hready : Instance.setUp (unlimited.setting default) unlimited ∅ idleServices = (.ok (), bareWorld) :=
    setUp_of_install boot_bare install_bare
  exact .setUp rfl hready

/-- A script that takes `_G` away and then gives the global table a metatable. -/
def rerouting : String := "local g = _G
_G = nil
setmetatable(g, {})
"

/-- What a text compiles to, if it is a program. -/
def imageOf (cs : List Char) : Lua.Image :=
  ((Script.parseLexemes ByteArray.empty (Script.scanChars cs)).toOption.map Lua.Compiler.compile).getD default

/-- The function that a text is in a world, and the world with it. -/
def loaded (cs : List Char) (w : Vm Thing) : Value × Vm Thing :=
  let image := imageOf cs
  let proto := image.protos.back?.getD default
  let h := ((w.heap.newCell (.table w.heap.globals)).2.newClosure
    ⟨image, proto, proto.captures.map fun _ => w.heap.cells.size⟩).2
  (.closure w.heap.closures.size, ⟨h, w.host, w.meter⟩)

theorem loadSource_loaded {cs : List Char} (hhead : (Text.utf8 cs).head? ≠ some 0x1B)
    (hparsed : (Script.parseLexemes ByteArray.empty (Script.scanChars cs)).toBool)
    (hmain : (imageOf cs).protos.back?.isSome) (w : Vm Thing) :
    Lua.Library.loadSource ByteArray.empty (Text.bytes (String.ofList cs)) none w.heap =
      (.ok (loaded cs w).1, (loaded cs w).2.heap) := by
  have himage : (Script.parseLexemes ByteArray.empty (Script.scanChars cs)).toOption.map Lua.Compiler.compile =
      some (imageOf cs) := by
    unfold imageOf
    cases hparse : Script.parseLexemes ByteArray.empty (Script.scanChars cs) with
    | error e => simp [hparse, Except.toBool] at hparsed
    | ok program => rfl
  have hback : (imageOf cs).protos.back? = some ((imageOf cs).protos.back?.getD default) := by
    obtain ⟨proto, hproto⟩ := Option.isSome_iff_exists.1 hmain
    rw [hproto]
    rfl
  exact Script.loadSource_ofList hhead himage hback w.heap

/-- A text that the host runs gets as far as its machine. -/
theorem loaded_reaches {t : Terms} (policy : Trust.Policy) {cs : List Char} (hhead : (Text.utf8 cs).head? ≠ some 0x1B)
    (hparsed : (Script.parseLexemes ByteArray.empty (Script.scanChars cs)).toBool)
    (hmain : (imageOf cs).protos.back?.isSome) (w : Vm Thing) (steps : Nat) : ReflTransGen (Moves t) (.idle [] w)
      (.running [] (Machine.run (t.setting policy).natives steps (.ofCall (loaded cs w).1 [] (loaded cs w).2))) :=
  .head (.load (loadSource_loaded hhead hparsed hmain w)) (run_reaches steps _)

/-- Where a script in a package that is set up comes to. -/
def outcomeOf (cs : List Char) : Activity :=
  .running [] (Machine.run (unlimited.setting default).natives 200
    (.ofCall (loaded cs bareWorld).1 [] (loaded cs bareWorld).2))

theorem rerouting_chars : ∃ cs, rerouting = String.ofList cs ∧ (Text.utf8 cs).head? ≠ some 0x1B ∧
    (Script.parseLexemes ByteArray.empty (Script.scanChars cs)).toBool ∧
    (imageOf cs).protos.back?.isSome ∧ (outcomeOf cs).globalMetatable.isSome := by
  refine ⟨_, rfl, ?_, ?_, ?_, ?_⟩ <;> decide +kernel

/-- The global table of a package that is set up gets a metatable from that script. -/
theorem rerouting_reaches : ∃ b, ReflTransGen (Moves unlimited) (.idle [] bareWorld) b ∧
    b.globalMetatable.isSome := by
  obtain ⟨cs, -, hhead, hparsed, hmain, hmetatable⟩ := rerouting_chars
  refine ⟨outcomeOf cs, ?_, hmetatable⟩
  unfold outcomeOf
  exact loaded_reaches default hhead hparsed hmain bareWorld 200

/-- On the way there the guard was at work without one of its names. -/
theorem rerouting_disturbs : ∃ a b c, Begins unlimited a ∧ ReflTransGen (Moves unlimited) a c ∧ ¬ c.Undisturbed ∧
    ReflTransGen (Moves unlimited) c b ∧ b.globalMetatable.isSome := by
  obtain ⟨b, hreaches, hmetatable⟩ := rerouting_reaches
  obtain hnone | ⟨c, hbefore, hdisturbed, hafter⟩ :=
    (no_metatable_unless_disturbed unlimited rfl).1 _ b begins_bareWorld hreaches
  · rw [hnone] at hmetatable
    cases hmetatable
  · exact ⟨_, b, c, begins_bareWorld, hbefore, hdisturbed, hafter, hmetatable⟩

/-- Without the exception there is no such invariant. -/
theorem rerouted_without_name : ¬ ∀ a b, Begins unlimited a → ReflTransGen (Moves unlimited) a b →
    b.globalMetatable = none := by
  intro hnever
  obtain ⟨b, hreaches, hmetatable⟩ := rerouting_reaches
  rw [hnever _ b begins_bareWorld hreaches] at hmetatable
  cases hmetatable

end ScriptWarden.Package
