import ScriptWarden.Proofs.Lua.Confined
import ScriptWarden.Proofs.Lua.Stop
set_option autoImplicit false

/-!
# Lua: code without surprises

A script that only touches tables without metatables is followed instruction by instruction.  All that can go
otherwise than its code says is that it runs out of memory, or of steps, so what is shown is what holds if it comes
to its end (`Machine.Yields`).  What it takes from the memory does not matter for that, and is left open.
-/

namespace ScriptWarden.Lua

variable {σ : Type}

/-! ## Tables without metatables -/

/-- No table has a metatable, and so none has a finalizer. -/
structure Heap.Plain (h : Heap) : Prop where
  metatable : ∀ id, (h.table id).metatable = none
  unmarked : h.marked = []

theorem Heap.Plain.rawSet {h : Heap} (hh : h.Plain) (id : Nat) (key v : Value) :
    (h.rawSet id key v).Plain := by
  refine ⟨fun i => ?_, hh.unmarked⟩
  have hmeta := hh.metatable i
  rw [table] at hmeta
  rw [table, Heap.rawSet, Array.getElem?_modify]
  split
  · cases hi : h.tables[i]? with
    | none => rfl
    | some t =>
      rw [hi] at hmeta
      exact (Table.metatable_set t key v).trans hmeta
  · exact hmeta

/-- Writing to a table without a metatable asks nobody. -/
theorem Access.store_plain {w : World σ} {id : Nat} (hmeta : (w.heap.table id).metatable = none)
    (name : String) (v : Value) (origin : Origin) :
    (Access.store (.table id) (.text name) v origin).lift w =
      .done () ⟨w.heap.rawSet id (.text name) v, w.host, w.meter⟩ := by
  have hplain : (Access.store (.table id) (.text name) v origin : Native Unit Unit) ⟨w.heap, (), none⟩ =
      .done () ⟨w.heap.rawSet id (.text name) v, (), none⟩ := by
    unfold Access.store Access.chainLimit Access.storeFrom
    simp only [bind, Native.heap, Outcome.bind, hmeta]
    rfl
  unfold Native.lift
  simp only [hplain]
  rfl

namespace Machine

variable {natives : Natives σ} {P : World σ → Prop}

/-! ## Ends -/

/-- If a machine comes to an end without an error, then in a world of this kind. -/
def Yields (natives : Natives σ) (m : Machine σ) (P : World σ → Prop) : Prop :=
  ∀ fuel vs, (run natives fuel m).answer? = some (.values vs) → P (run natives fuel m).world

theorem Yields.of_step {m : Machine σ} (hm : m.answer? = none) (h : Yields natives (step natives m) P) :
    Yields natives m P := by
  intro fuel vs hvs
  cases fuel with
  | zero =>
    rw [run, hm] at hvs
    cases hvs
  | succ fuel =>
    rw [run_succ fuel hm] at hvs ⊢
    exact h fuel vs hvs

theorem yields_finished {vs : List Value} {w : World σ} (s : Stack σ) (h : P w) :
    Yields natives ⟨.finished (.values vs) w, s⟩ P := by
  intro fuel _ _
  rw [run_of_answer fuel (by simp [answer?])]
  exact h

theorem yields_raised {t : Thrown} {w : World σ} (s : Stack σ) :
    Yields natives ⟨.finished (.raised t) w, s⟩ P := by
  intro fuel vs hvs
  rw [run_of_answer fuel (by simp [answer?])] at hvs
  cases hvs

/-- A function that gives its values to nobody ends the machine. -/
theorem yields_give {vs : List Value} {w : World σ} (depth frames count : Nat) (h : P w) :
    Yields natives ⟨.give vs w, ⟨[], depth, frames, count⟩⟩ P :=
  .of_step rfl (yields_finished _ h)

/-- Nothing comes of a script that runs out of memory. -/
theorem yields_outOfMemory {f : Frame} (hclose : f.toClose = []) (w : World σ)
    (depth frames count : Nat) :
    Yields natives ⟨.throw outOfMemory w, ⟨[.script f], depth, frames, count⟩⟩ P := by
  have hclosing : closing f w.heap = [] := by rw [closing, hclose, List.map_nil]
  have hraise : raise ⟨[.script f], depth, frames, count⟩ outOfMemory w =
      ⟨.throw outOfMemory w, without ⟨[], depth, frames, count⟩ f⟩ := by
    have hfinal : outOfMemory.handled = true ∨ outOfMemory.outOfMemory = true := .inr rfl
    unfold raise
    rw [if_pos hfinal]
    unfold unwind
    simp only [hclosing]
  refine .of_step rfl ?_
  change Yields natives (raise _ outOfMemory w) P
  rw [hraise]
  exact .of_step rfl (yields_raised _)

/-! ## Instructions -/

variable {f f' : Frame} {h h' : Heap} {host : σ}

/-- A script that runs alone, with nobody counting its instructions, comes to an end in a world of this kind,
whatever it has taken from the memory. -/
def YieldsAt (natives : Natives σ) (f : Frame) (h : Heap) (host : σ) (P : World σ → Prop) : Prop :=
  ∀ taken, Yields natives ⟨.execute ⟨{ h with taken }, host, none⟩, ⟨[.script f], f.size, 1, 0⟩⟩ P

/-- What follows an instruction decides about the end of the script. -/
theorem yieldsAt_instruct {i : Instr} (hplain : h.Plain) (hi : f.closure.proto.code[f.pc]? = some i)
    (hclose : f.toClose = []) (hnext : ∀ taken, Yields natives
      (follow ⟨[], f.size, 1, 0⟩ (instruct { f with pc := f.pc + 1 } ⟨{ h with taken }, host, none⟩ i)) P) :
    YieldsAt natives f h host P := by
  have hproceed : ∀ taken, step natives
      ⟨.execute ⟨{ h with taken }, host, none⟩, ⟨[.script f], f.size, 1, 0⟩⟩ =
      execute ⟨[.script f], f.size, 1, 0⟩ ⟨{ h with taken }, host, none⟩ := fun taken => by
    simp only [step, proceed, letGo?_of_unmarked natives.collector [] (h := { h with taken }) hplain.unmarked]
  have hroom : ∀ taken, isFull (⟨{ h with taken }, host, none⟩ : World σ) = false →
      Yields natives ⟨.execute ⟨{ h with taken }, host, none⟩, ⟨[.script f], f.size, 1, 0⟩⟩ P := by
    intro taken hfull
    refine .of_step rfl ?_
    rw [hproceed]
    unfold execute
    rw [hfull]
    simp only [Bool.false_eq_true, if_false, hi]
    exact hnext taken
  intro taken
  by_cases hfull : isFull (⟨{ h with taken }, host, none⟩ : World σ) = true
  · -- what is taken is counted again, and may still be too much
    refine .of_step rfl ?_
    rw [hproceed]
    unfold execute
    rw [if_pos hfull]
    simp only
    split
    · exact yields_outOfMemory hclose _ _ _ _
    · next hcounted => exact hroom _ (Bool.not_eq_true _ ▸ hcounted)
  · exact hroom taken (by simpa using hfull)

/-- An instruction that changes the frame and the heap only. -/
theorem yieldsAt_next {i : Instr} (hplain : h.Plain) (hi : f.closure.proto.code[f.pc]? = some i)
    (hclose : f.toClose = []) (hnext : YieldsAt natives f' h' host P) (hsize : f'.size = f.size)
    (heffect : ∀ taken, ∃ taken', instruct { f with pc := f.pc + 1 } ⟨{ h with taken }, host, none⟩ i =
      .next f' ⟨{ h' with taken := taken' }, host, none⟩) : YieldsAt natives f h host P := by
  refine yieldsAt_instruct hplain hi hclose fun taken => ?_
  obtain ⟨taken', heq⟩ := heffect taken
  rw [heq, ← hsize]
  exact hnext taken'

/-- Operands do not depend on what is taken. -/
theorem read_taken (f : Frame) (h : Heap) (taken : Nat) (a : Operand) :
    read f { h with taken } a = read f h a := by
  cases a <;> rfl

theorem size_read (f : Frame) (h : Heap) (a : Operand) : (read f h a).2.size = f.size := by
  cases a with
  | top =>
    unfold read
    simp only
    split <;> rfl
  | _ => rfl

variable {obj value : Operand} {name : String} {origin : Origin} {f₁ : Frame} {id : Nat} {v : Value}

/-- Reading a field of a table. -/
theorem yieldsAt_index (hi : f.closure.proto.code[f.pc]? = some (.index obj (.const (.text name)) origin))
    (hclose : f.toClose = []) (hobj : read { f with pc := f.pc + 1 } h obj = (.table id, f'))
    (hplain : h.Plain) (hv : h.rawGet id (.text name) = v) (hnext : YieldsAt natives (f'.push v) h host P) :
    YieldsAt natives f h host P := by
  have hsize := size_read { f with pc := f.pc + 1 } h obj
  rw [hobj] at hsize
  refine yieldsAt_next hplain hi hclose hnext hsize fun taken => ⟨taken, ?_⟩
  have hmeta : (Heap.table { h with taken } id).metatable = none := hplain.metatable id
  have hread : read { f with pc := f.pc + 1 } { h with taken } obj = (.table id, f') :=
    (read_taken _ h taken obj).trans hobj
  have hkey : read { f with pc := f.pc + 1 } { h with taken } (.const (.text name)) =
      (.text name, { f with pc := f.pc + 1 }) := rfl
  have hindex := index_plain (w := (⟨{ h with taken }, host, none⟩ : World σ)) hmeta (.text name) origin
  unfold instruct read2 operate1
  simp only [hkey, hread, hindex]
  rw [← hv]
  rfl

/-- Writing a field of a table. -/
theorem yieldsAt_store
    (hi : f.closure.proto.code[f.pc]? = some (.store obj (.const (.text name)) value origin))
    (hclose : f.toClose = []) (hvalue : read { f with pc := f.pc + 1 } h value = (v, f₁))
    (hobj : read f₁ h obj = (.table id, f')) (hplain : h.Plain)
    (hnext : YieldsAt natives f' (h.rawSet id (.text name) v) host P) : YieldsAt natives f h host P := by
  have hsize₁ := size_read { f with pc := f.pc + 1 } h value
  have hsize := size_read f₁ h obj
  rw [hvalue] at hsize₁
  rw [hobj] at hsize
  refine yieldsAt_next hplain hi hclose hnext (hsize.trans hsize₁) fun taken =>
    ⟨(Heap.rawSet { h with taken } id (.text name) v).taken, ?_⟩
  have hmeta : (Heap.table { h with taken } id).metatable = none := hplain.metatable id
  have hread : read { f with pc := f.pc + 1 } { h with taken } value = (v, f₁) :=
    (read_taken _ h taken value).trans hvalue
  have hread' : read f₁ { h with taken } obj = (.table id, f') :=
    (read_taken _ h taken obj).trans hobj
  have hkey : read f₁ { h with taken } (.const (.text name)) = (.text name, f₁) := rfl
  have hstore := Access.store_plain (w := (⟨{ h with taken }, host, none⟩ : World σ)) hmeta name v origin
  unfold instruct read2 operate0
  simp only [hread, hkey, hread', hstore]
  rfl

/-- Calling a function of the language that gives one value at once. -/
theorem yieldsAt_call {b : Builtin} {argument : Value} {rest : List Value}
    (hplain : h.Plain) (hi : f.closure.proto.code[f.pc]? = some (.call 1 false (.exactly 1) origin))
    (hclose : f.toClose = [])
    (hstack : f.stack = argument :: .builtin b :: rest)
    (hnative : ∀ taken, natives (.builtin b) [argument] ⟨{ h with taken }, host, none⟩ =
      .done [v] ⟨{ h with taken }, host, none⟩)
    (hnext : YieldsAt natives { f with pc := f.pc + 1, stack := v :: rest, want := .exactly 1 } h host P) :
    YieldsAt natives f h host P := by
  refine yieldsAt_instruct hplain hi hclose fun taken => ?_
  have heffect : instruct { f with pc := f.pc + 1 } ⟨{ h with taken }, host, none⟩
      (.call 1 false (.exactly 1) origin) =
      .enter { f with pc := f.pc + 1, stack := rest, want := .exactly 1 } (.builtin b) [argument]
        ⟨{ h with taken }, host, none⟩ := by
    simp only [instruct, gather, pop, hstack]
    rfl
  have henter (s : Stack σ) : step natives ⟨.call (.builtin b) [argument] ⟨{ h with taken }, host, none⟩, s⟩ =
      ⟨.look (.function (.builtin b)) (.done [v] ⟨{ h with taken }, host, none⟩), s⟩ := by
    rw [step, enter, hnative]
  rw [heffect, follow]
  refine .of_step rfl ?_
  rw [henter]
  exact .of_step rfl (.of_step rfl (hnext taken))

end Machine

end ScriptWarden.Lua
