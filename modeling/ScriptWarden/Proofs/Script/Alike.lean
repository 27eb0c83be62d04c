import ScriptWarden.Proofs.Api.Alike
import ScriptWarden.Script.Sandbox
set_option autoImplicit false

/-!
# Script: looking at one package

The host runs scripts, finds out why they failed, and sets a package up before.  Whether or not one looks at the package
through a view, the same comes of it (`Respects`).
-/

namespace ScriptWarden.Script

open Lua (Machine Thrown Value)
open Package (Services)
open Trust (Policy)

variable {κ α β : Type} {v : View}

/-- Two results that are the same, in worlds that are alike but for what a view leaves out. -/
inductive Alike (v : View) : Result κ α → Result κ α → Prop
  | intro (x : Except Error α) {w w' : Vm κ} (h : w.Alike v.Shows w') : Alike v (x, w) (x, w')

/-- Running something gives the same, and does the same, to what is seen of the services. -/
def Respects (v : View) (run : Vm κ → Result κ α) : Prop := ∀ w w', w.Alike v.Shows w' → Alike v (run w) (run w')

/-- Something is made of the result only. -/
theorem Alike.map {r r' : Result κ α} (h : Alike v r r') (f : Except Error α → Except Error β) :
    Alike v (f r.1, r.2) (f r'.1, r'.2) := by
  obtain ⟨x, hw⟩ := h
  exact .intro _ hw

section Runs

variable {s : Setting κ} (hs : s.registry.Respects v)

include hs

theorem respects_natives (f : Value) (args : List Value) : (s.natives f args).Respects v.Shows :=
  Bridge.native_natives hs s.policy s.collector f args

omit hs in
theorem alike_textMachine (x : Value) {w w' : Vm κ} (hw : w.Alike v.Shows w') :
    (textMachine x w).Alike v.Shows (textMachine x w') :=
  Machine.alike_ofNative (.bind (Lua.Native.respects_lift _) fun _ => Lua.Native.respects_pure _) hw

theorem alike_errorOf (depth : Nat) (t : Thrown) {w w' : Vm κ} (hw : w.Alike v.Shows w') :
    (errorOf s depth t w').1 = (errorOf s depth t w).1 ∧
      (errorOf s depth t w).2.Alike v.Shows (errorOf s depth t w').2 := by
  induction depth generalizing t w w' with
  | zero =>
    unfold errorOf
    rw [hw.heap_eq]
    split
    · exact ⟨rfl, hw⟩
    · split
      · exact ⟨rfl, hw⟩
      · exact ⟨rfl, hw⟩
  | succ depth ih =>
    unfold errorOf
    rw [hw.heap_eq]
    split
    · exact ⟨rfl, hw⟩
    · split
      · exact ⟨rfl, hw⟩
      · have hrun := Machine.alike_run (respects_natives hs) s.fuel (alike_textMachine t.value hw)
        simp only
        rw [hrun.answer_eq]
        split
        · exact ⟨rfl, hrun.world⟩
        · exact ih _ hrun.world
        · exact ⟨rfl, hrun.world⟩

theorem alike_finish {m m' : Machine (Services κ)} (hm : m.Alike v.Shows m') : Alike v (finish s m) (finish s m') := by
  have hrun := Machine.alike_run (respects_natives hs) s.fuel hm
  unfold finish
  simp only
  rw [hrun.answer_eq]
  split
  · exact .intro _ hrun.world
  · next t _ =>
    obtain ⟨hsame, hafter⟩ := alike_errorOf hs textDepth t hrun.world
    rw [hsame]
    exact .intro _ hafter
  · exact .intro _ hrun.world

theorem respects_release : Respects v (release s) := by
  intro w w' hw
  have hrun := Machine.alike_run (respects_natives hs) s.fuel (Machine.alike_ofClose s.collector hw)
  unfold release
  rw [hw.heap_eq]
  split
  · exact .intro _ hw
  · simp only
    rw [hrun.answer_eq]
    exact .intro _ hrun.world

theorem respects_call (f : Value) (args : List Value) : Respects v (call s f args) :=
  fun _ _ hw => alike_finish hs (Machine.alike_ofCall f args hw)

theorem respects_chunk (name source : Lua.Bytes) : Respects v (chunk s name source) := by
  intro w w' hw
  unfold chunk
  split
  · exact .intro _ hw
  · obtain ⟨heap, meter, hshows⟩ := hw
    simp only
    split
    · exact .intro _ (.intro _ meter hshows)
    · exact respects_call hs _ _ _ _ (.intro _ meter hshows)

theorem respects_startModule (given : String) : Respects v (startModule s given) := by
  rintro _ _ @⟨heap, meter, services, services', hshows⟩
  have htaken := hshows.map (f := fun s => (Bridge.takeModule (Bridge.moduleOf given) s).2) (fun _ => rfl) fun _ => rfl
  have hsource : (Bridge.takeModule (Bridge.moduleOf given) services').1 =
      (Bridge.takeModule (Bridge.moduleOf given) services).1 := by
    rw [hshows.seen]
    rfl
  unfold startModule
  simp only
  rw [hsource]
  split
  · exact .intro _ (.intro heap meter htaken)
  · exact (respects_chunk hs _ _ _ _ (.intro heap meter htaken)).map fun r => r.map fun _ => ()

omit hs in
theorem respects_limited (phase : Phase) (budget : Trust.Effective) {run : Vm κ → Result κ α} (hrun : Respects v run) :
    Respects v (limited phase budget run) := by
  rintro _ _ @⟨heap, meter, services, services', hshows⟩
  have hdone := hrun _ _ (.intro heap (some (meterOf phase budget)) hshows)
  unfold limited
  simp only
  generalize run ⟨heap, services, some (meterOf phase budget)⟩ = r,
    run ⟨heap, services', some (meterOf phase budget)⟩ = r' at hdone ⊢
  obtain ⟨x, hafter⟩ := hdone
  obtain ⟨heap, meter, hshows⟩ := hafter
  exact .intro x (.intro heap none hshows)

theorem respects_callEach (args fs : List Value) : Respects v (callEach s args fs) := by
  induction fs with
  | nil => exact fun _ _ hw => .intro _ hw
  | cons f rest ih =>
    intro w w' hw
    have hcall := respects_call hs f args w w' hw
    unfold callEach
    generalize call s f args w = r, call s f args w' = r' at hcall ⊢
    obtain ⟨x, hafter⟩ := hcall
    cases x with
    | ok vs => exact ih _ _ hafter
    | error e => exact .intro _ hafter

theorem respects_fire (name : String) (args : List Value) : Respects v (fire s name args) := by
  intro w w' hw
  have hcallbacks : w'.host.callbacks = w.host.callbacks := by
    obtain ⟨heap, meter, hshows⟩ := hw
    rw [hshows.seen]
    rfl
  unfold fire
  rw [hcallbacks]
  have hcalls := respects_callEach hs args (w.host.callbacks[name]?.getD []) w w' hw
  simp only
  generalize callEach s args (w.host.callbacks[name]?.getD []) w = r,
    callEach s args (w.host.callbacks[name]?.getD []) w' = r' at hcalls ⊢
  obtain ⟨x, hafter⟩ := hcalls
  cases x with
  | ok _ => exact .intro _ hafter
  | error e => exact .intro _ hafter

/-! ## Setting up -/

theorem alike_boot (script : String) (memory : Nat) {services services' : Services κ}
    (hshows : v.Shows services services') :
    Alike v (boot s script memory services) (boot s script memory services') :=
  (respects_chunk hs _ _ _ _ (.intro _ none hshows)).map fun r => r.map fun _ => ()

end Runs

theorem alike_installObjects {w w' : Vm Api.Thing} (hw : w.Alike v.Shows w') :
    (installObjects w).Alike v.Shows (installObjects w') := by
  unfold installObjects
  generalize Api.globalObjects = objects
  induction objects generalizing w w' with
  | nil => exact hw
  | cons o rest ih =>
    obtain ⟨name, type⟩ := o
    obtain ⟨hsame, hafter⟩ := Api.respects_create type .service w w' hw
    rw [List.foldl_cons, List.foldl_cons]
    refine ih ?_
    simp only
    generalize Api.create type .service w = made, Api.create type .service w' = made' at hsame hafter ⊢
    obtain ⟨x, w⟩ := made
    obtain ⟨x', w'⟩ := made'
    cases hsame
    cases x with
    | error e => exact hafter
    | ok object =>
      obtain ⟨heap, meter, hshows⟩ := hafter
      exact .intro _ meter hshows

theorem respects_install : Respects v install := by
  rintro _ _ @⟨heap, meter, services, services', hshows⟩
  unfold install
  simp only
  split
  · exact .intro _ (alike_installObjects (.intro _ meter hshows))
  · exact .intro _ (.intro heap meter hshows)

end ScriptWarden.Script
