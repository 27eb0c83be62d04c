import ScriptWarden.Proofs.Bridge.Public
import ScriptWarden.Proofs.Lua.Straight
import ScriptWarden.Proofs.Script.Image
set_option autoImplicit false

/-!
# Scripts: the sandbox puts the guard up

The sandbox script is followed instruction by instruction.  Where it comes to its end, the guard stands: the function
that changes metatables is in a variable of the guard alone, and no table, variable or function that later scripts
can reach holds it (`boot_guarded`).
-/

namespace ScriptWarden.Script

open Lua (Closure Frame Heap Instr IsPublic Machine Native Natives Origin Table Value Want World)
open Lua.Machine (Yields YieldsAt)
open Package (Services)

/-! ## What the script works on -/

/-- The main function over its environment. -/
def sandboxMain : Closure := ⟨sandboxImage, sandboxProto, #[Lua.environmentCell]⟩

/-- The guard over its environment and the function that it keeps. -/
def sandboxGuard : Closure := ⟨sandboxImage, Lua.guardProto, #[Lua.environmentCell, Lua.secretCell]⟩

theorem isGuard_sandbox : sandboxGuard.IsGuard := ⟨rfl, rfl⟩

/-- The table of global variables. -/
def globalsTable : Nat := 4

/-- The table of functions on strings. -/
def stringTable : Nat := 0

/-- The metatable of all strings. -/
def stringMetatable : Nat := 1

/-- The limit that a number of bytes stands for. -/
def memoryLimit (memory : Nat) : Option Nat := if memory = 0 then none else some memory

/-- A heap while the script runs. -/
def bootHeap (memory : Nat) (tables : Array Table) (cells : Array Value) (closures : Array Closure) : Heap :=
  { tables, closures, cells, globals := globalsTable, stringMeta := some stringMetatable
    limit := memoryLimit memory }

/-- Set fields of a table. -/
def setFields (id : Nat) (fields : List (String × Value)) (tables : Array Table) : Array Table :=
  fields.foldl (fun tables (name, v) => tables.modify id (·.set (.text name) v)) tables

/-- The global functions that packages must not reach. -/
def forbidden : List (String × Value) :=
  [("dofile", .nil), ("loadfile", .nil), ("load", .nil), ("loadstring", .nil), ("collectgarbage", .nil),
    ("debug", .nil)]

/-- The tables of the library without the functions that packages must not reach. -/
def clearedTables : Array Table :=
  setFields stringTable [("dump", .nil)] (setFields globalsTable forbidden Lua.Library.freshHeap.tables)

/-- The tables with the metatable of strings locked. -/
def lockedTables : Array Table := setFields stringMetatable [("__metatable", .bool false)] clearedTables

/-- The tables with the guard in its place. -/
def guardedTables : Array Table := setFields globalsTable [("setmetatable", .closure 1)] lockedTables

/-- The variables once the script has run: its environment and its two own ones. -/
def sandboxCells : Array Value :=
  #[.nil, .table globalsTable, .table stringMetatable, .builtin .setmetatable]

/-- A frame of the main function. -/
def mainFrame (slots : Array Nat) (stack : List Value) (want : Want) (pc : Nat) : Frame :=
  { closure := sandboxMain, pc, slots, stack, want }

/-! ## What it finds -/

theorem loadedSandbox_empty (memory : Nat) : ∃ taken, loadedSandbox (emptyHeap memory) =
    { bootHeap memory Lua.Library.freshHeap.tables #[.nil, .table globalsTable] #[sandboxMain] with
      taken } := ⟨_, rfl⟩

/-- What the script relies on in the tables of the library, as they are and as it leaves them. -/
structure Finds : Prop where
  plain : ∀ t ∈ Lua.Library.freshHeap.tables.toList, t.metatable = none
  string : ((setFields globalsTable forbidden Lua.Library.freshHeap.tables)[globalsTable]?.getD {}).get
    (.text "string") = .table stringTable
  getmetatable : (clearedTables[globalsTable]?.getD {}).get (.text "getmetatable") = .builtin .getmetatable
  /-- Nothing hides the metatable of strings yet. -/
  unlocked : (clearedTables[stringMetatable]?.getD {}).getText "__metatable" = .nil
  setmetatable : (lockedTables[globalsTable]?.getD {}).get (.text "setmetatable") = .builtin .setmetatable

theorem finds : Finds := by constructor <;> decide +kernel

theorem plain_fresh (memory : Nat) (cells : Array Value) (closures : Array Closure) :
    (bootHeap memory Lua.Library.freshHeap.tables cells closures).Plain := by
  refine ⟨fun id => ?_, rfl⟩
  change (Lua.Library.freshHeap.tables[id]?.getD {}).metatable = none
  cases hid : Lua.Library.freshHeap.tables[id]? with
  | none => rfl
  | some t => exact finds.plain t (Array.mem_toList_iff.2 (Array.mem_of_getElem? hid))

/-! ## What it does -/

section Run

variable {κ : Type} (s : Setting κ) (memory : Nat) (services : Services κ)

/-- The heap that the script leaves. -/
def sandboxedHeap : Heap :=
  bootHeap memory guardedTables sandboxCells #[sandboxMain, sandboxGuard]

/-- The script asks for the metatable of strings. -/
theorem natives_getmetatable {h : Heap} (hmeta : h.stringMeta = some stringMetatable)
    (hplain : (h.table stringMetatable).getText "__metatable" = .nil) :
    s.natives (.builtin .getmetatable) [.text ""] ⟨h, services, none⟩ =
      .done [.table stringMetatable] ⟨h, services, none⟩ := by
  have hfield : (h.metafield (.text "") "__metatable").isNil = true := by
    unfold Heap.metafield Heap.metatable? Value.text
    simp only [hmeta, hplain]
    rfl
  have hshown : h.metatable? (.text "") = some stringMetatable := hmeta
  have hget : (Lua.Library.getMetatable [.text ""] : Native Unit (List Value)) ⟨h, (), none⟩ =
      .done [.table stringMetatable] ⟨h, (), none⟩ := by
    change (if !(h.metafield (.text "") "__metatable").isNil then _ else _ : Native Unit (List Value)) _ = _
    have hlook (k : Option Nat → Native Unit (List Value)) :
        (Native.heap (·.metatable? (.text "")) >>= k) ⟨h, (), none⟩ = k (h.metatable? (.text "")) ⟨h, (), none⟩ := rfl
    rw [hfield, if_neg (by decide), hlook, hshown]
    rfl
  change Native.lift (Lua.Library.getMetatable [.text ""]) ⟨h, services, none⟩ = _
  unfold Native.lift
  simp only [hget]
  rfl

/-- What a run of the script comes to. -/
def Sandboxed (w : Vm κ) : Prop := ∃ taken, w = ⟨{ sandboxedHeap memory with taken }, services, none⟩

end Run

/-! ### Instructions -/

section Instructions

variable {κ : Type} {natives : Natives (Services κ)} {P : World (Services κ) → Prop} {services : Services κ}
  {memory : Nat} {tables : Array Table} {cells : Array Value} {closures : Array Closure} {slots : Array Nat}
  {stack : List Value} {want : Want} {pc : Nat} {name : String} {v : Value}

theorem plain_setFields (hplain : (bootHeap memory tables cells closures).Plain) (id : Nat)
    (fields : List (String × Value)) : (bootHeap memory (setFields id fields tables) cells closures).Plain := by
  induction fields generalizing tables with
  | nil => exact hplain
  | cons field rest ih =>
    obtain ⟨name, v⟩ := field
    have hset := hplain.rawSet id (.text name) v
    exact ih ⟨hset.metatable, rfl⟩

/-- Global variables are set one after the other. -/
theorem yieldsAt_assign (hcell : cells[Lua.environmentCell]?.getD .nil = .table globalsTable)
    (fields : List (String × Value)) (hplain : (bootHeap memory tables cells closures).Plain)
    (hcode : ∀ (i : Nat) name v, fields[i]? = some (name, v) →
      sandboxCode[pc + i]? = some (assignGlobal name (.const v)))
    (hnext : YieldsAt natives (mainFrame slots stack want (pc + fields.length))
      (bootHeap memory (setFields globalsTable fields tables) cells closures) services P) :
    YieldsAt natives (mainFrame slots stack want pc) (bootHeap memory tables cells closures) services P := by
  induction fields generalizing tables pc with
  | nil => exact hnext
  | cons field rest ih =>
    obtain ⟨name, v⟩ := field
    have hcode' (i : Nat) (name' : String) (v' : Value) (hi : rest[i]? = some (name', v')) :
        sandboxCode[pc + 1 + i]? = some (assignGlobal name' (.const v')) := by
      have hlater := hcode (i + 1) name' v' hi
      rwa [Nat.add_comm i 1, ← Nat.add_assoc] at hlater
    rw [List.length_cons, Nat.add_comm rest.length 1, ← Nat.add_assoc] at hnext
    have hrest := ih (plain_setFields hplain globalsTable [(name, v)]) hcode' hnext
    refine Machine.yieldsAt_store (hcode 0 name v rfl) rfl rfl ?_ hplain hrest
    exact Prod.ext hcell rfl

/-- A global variable is read. -/
theorem yieldsAt_read (hplain : (bootHeap memory tables cells closures).Plain)
    (hcell : cells[Lua.environmentCell]?.getD .nil = .table globalsTable)
    (hi : sandboxCode[pc]? = some (readGlobal name))
    (hv : (tables[globalsTable]?.getD {}).get (.text name) = v)
    (hnext : YieldsAt natives (mainFrame slots (v :: stack) want (pc + 1))
      (bootHeap memory tables cells closures) services P) :
    YieldsAt natives (mainFrame slots stack want pc) (bootHeap memory tables cells closures) services P := by
  have hobj : Machine.read (mainFrame slots stack want (pc + 1)) (bootHeap memory tables cells closures)
      (.captured 0) = (.table globalsTable, mainFrame slots stack want (pc + 1)) := Prod.ext hcell rfl
  exact Machine.yieldsAt_index hi rfl hobj hplain hv hnext

end Instructions

/-! ### The whole run -/

section Run

variable {κ : Type} (s : Setting κ) (memory : Nat) (services : Services κ)

/-- The guard is made: it captures its environment and the second variable. -/
theorem instruct_guard (taken : Nat) : ∃ taken',
    Machine.instruct (mainFrame #[2, 3] [] (.exactly 1) 17)
      ⟨{ bootHeap memory lockedTables sandboxCells #[sandboxMain] with taken }, services, none⟩ (.closure 0) =
      .next (mainFrame #[2, 3] [.closure 1] (.exactly 1) 17)
        ⟨{ bootHeap memory lockedTables sandboxCells #[sandboxMain, sandboxGuard] with taken := taken' },
          services, none⟩ := by
  have hcaptures : Machine.captures (mainFrame #[2, 3] [] (.exactly 1) 17) Lua.guardProto.captures =
      #[Lua.environmentCell, Lua.secretCell] := by
    simp [Machine.captures, Lua.guardProto, Machine.cellAt, mainFrame, sandboxMain, Frame.cellOf, Lua.secretCell]
  have hproto : (mainFrame #[2, 3] [] (.exactly 1) 17).closure.image.protos[0]? = some Lua.guardProto := rfl
  unfold Machine.instruct
  simp only [hproto, hcaptures]
  exact ⟨_, rfl⟩

/-- The end of the script: the metatable of strings is locked, and the guard takes its place. -/
theorem yieldsAt_guard :
    YieldsAt s.natives (mainFrame #[0, 0] [] (.exactly 0) 8)
      (bootHeap memory clearedTables #[.nil, .table globalsTable] #[sandboxMain]) services
      (Sandboxed memory services) := by
  have hplain (cells closures) : (bootHeap memory clearedTables cells closures).Plain :=
    plain_setFields (plain_setFields (plain_fresh memory cells closures) _ _) _ _
  have hlocked (cells closures) : (bootHeap memory lockedTables cells closures).Plain :=
    plain_setFields (hplain cells closures) _ _
  have hguarded (cells closures) : (bootHeap memory guardedTables cells closures).Plain :=
    plain_setFields (hlocked cells closures) _ _
  refine yieldsAt_read (hplain _ _) rfl rfl finds.getmetatable ?_
  refine Machine.yieldsAt_next (hplain _ _) rfl rfl
    (?_ : YieldsAt s.natives (mainFrame #[0, 0] [.text "", .builtin .getmetatable] (.exactly 0) 10) _ _ _)
    rfl fun taken => ⟨taken, rfl⟩
  refine Machine.yieldsAt_call (hplain _ _) rfl rfl rfl
    (fun taken => natives_getmetatable s services rfl finds.unlocked) ?_
  -- the first variable of the script
  refine Machine.yieldsAt_next (hplain _ _) rfl rfl
    (?_ : YieldsAt s.natives (mainFrame #[2, 0] [] (.exactly 1) 12)
      (bootHeap memory clearedTables #[.nil, .table globalsTable, .table stringMetatable] #[sandboxMain]) _ _)
    rfl fun taken => ⟨taken, rfl⟩
  refine Machine.yieldsAt_next (hplain _ _) rfl rfl
    (?_ : YieldsAt s.natives (mainFrame #[2, 0] [] (.exactly 1) 13) _ _ _) rfl fun taken => ⟨taken, rfl⟩
  refine Machine.yieldsAt_store rfl rfl rfl rfl (hplain _ _)
    (?_ : YieldsAt s.natives (mainFrame #[2, 0] [] (.exactly 1) 14)
      (bootHeap memory lockedTables #[.nil, .table globalsTable, .table stringMetatable] #[sandboxMain]) _ _)
  refine yieldsAt_read (hlocked _ _) rfl rfl finds.setmetatable ?_
  -- the second variable, which nobody but the guard shares
  refine Machine.yieldsAt_next (hlocked _ _) rfl rfl
    (?_ : YieldsAt s.natives (mainFrame #[2, 3] [] (.exactly 1) 16)
      (bootHeap memory lockedTables sandboxCells #[sandboxMain]) _ _)
    rfl fun taken => ⟨taken, rfl⟩
  refine Machine.yieldsAt_next (hlocked _ _) rfl rfl
    (?_ : YieldsAt s.natives (mainFrame #[2, 3] [.closure 1] (.exactly 1) 17)
      (bootHeap memory lockedTables sandboxCells #[sandboxMain, sandboxGuard]) _ _)
    rfl fun taken => instruct_guard memory services taken
  refine Machine.yieldsAt_store rfl rfl rfl rfl (hlocked _ _)
    (?_ : YieldsAt s.natives (mainFrame #[2, 3] [] (.exactly 1) 18) (sandboxedHeap memory) _ _)
  refine Machine.yieldsAt_instruct (hguarded _ _) rfl rfl fun taken => ?_
  exact Machine.yields_give _ _ _ ⟨taken, rfl⟩

/-- The whole script: first it takes away what packages must not reach. -/
theorem yieldsAt_sandbox :
    YieldsAt s.natives (mainFrame #[0, 0] [] (.exactly 0) 0)
      (bootHeap memory Lua.Library.freshHeap.tables #[.nil, .table globalsTable] #[sandboxMain]) services
      (Sandboxed memory services) := by
  have hfresh := plain_fresh memory #[.nil, .table globalsTable] #[sandboxMain]
  have hcleared := plain_setFields hfresh globalsTable forbidden
  refine yieldsAt_assign rfl forbidden hfresh ?_ ?_
  · rintro (_ | _ | _ | _ | _ | _ | i) name v hi <;> cases hi <;> rfl
  refine yieldsAt_read hcleared rfl rfl finds.string ?_
  exact Machine.yieldsAt_store rfl rfl rfl rfl hcleared (yieldsAt_guard s memory services)

/-- A call that comes to its end. -/
theorem world_of_finish {m : Machine (Services κ)} {vs : List Value} {w : Vm κ}
    (h : finish s m = (.ok vs, w)) :
    (Machine.run s.natives s.fuel m).answer? = some (.values vs) ∧
      (Machine.run s.natives s.fuel m).world = w := by
  unfold finish at h
  simp only at h
  split at h
  · next vs' hvs =>
    obtain ⟨hresult, hworld⟩ := Prod.mk.inj h
    cases hresult
    exact ⟨hvs, hworld⟩
  · cases h
  · cases h

/-- The script is called without anything on the stack, so there is room for it. -/
theorem enterScript_main (w : Vm κ) : Machine.enterScript {} sandboxMain [] w =
    ⟨.execute w, ⟨[.script (mainFrame #[0, 0] [] (.exactly 0) 0)], 6, 1, 0⟩⟩ := by
  obtain ⟨h, host, meter⟩ := w
  unfold Machine.enterScript
  cases hlimit : h.limit with
  | none =>
    simp only [Bool.false_eq_true, if_false]
    rfl
  | some limit =>
    have hempty : ¬ 4096 < 0 := Nat.not_lt_zero 4096
    simp only [hempty, decide_false, Bool.false_and, Bool.false_eq_true, if_false]
    rfl

/-- A chunk that loads is called. -/
theorem chunk_of_load {name source : Lua.Bytes} {w : Vm κ} {f : Value} {h : Heap}
    (hname : Bridge.nameFault? name = none)
    (hload : Lua.Library.loadSource name source none w.heap = (.ok f, h)) :
    chunk s name source w = call s f [] ⟨h, w.host, w.meter⟩ := by
  unfold chunk
  simp only [hname, hload]

theorem boot_of_load {script : String} {f : Value} {h : Heap}
    (hload : Lua.Library.loadSource sandboxChunk (Text.bytes script) none (emptyHeap memory) = (.ok f, h)) :
    boot s script memory services =
      ((call s f [] ⟨h, services, none⟩).1.map fun _ => (), (call s f [] ⟨h, services, none⟩).2) := by
  have hname : Bridge.nameFault? sandboxChunk = none := by decide +kernel
  rw [boot, chunk_of_load s hname hload]

theorem yields_sandbox : Yields s.natives (Machine.ofCall (.closure 0) []
    ⟨loadedSandbox (emptyHeap memory), services, none⟩) (Sandboxed memory services) := by
  obtain ⟨taken, hloaded⟩ := loadedSandbox_empty memory
  rw [hloaded]
  refine .of_step rfl ?_
  have hstep (w : Vm κ) (hmain : w.heap.closure 0 = sandboxMain) :
      Machine.step s.natives (Machine.ofCall (.closure 0) [] w) = Machine.enterScript {} sandboxMain [] w := by
    rw [← hmain]
    rfl
  rw [hstep _ rfl, enterScript_main]
  exact yieldsAt_sandbox s memory services taken

/-- A run of the script that comes to its end. -/
theorem sandboxed_of_boot {w : Vm κ}
    (h : boot s builtinSandbox memory services = (.ok (), w)) : Sandboxed memory services w := by
  rw [boot_of_load s memory services (loadSource_sandbox _)] at h
  cases hcall : call s (.closure (emptyHeap memory).closures.size) []
    ⟨loadedSandbox (emptyHeap memory), services, none⟩ with
  | mk r w' =>
    rw [hcall] at h
    obtain ⟨hresult, rfl⟩ := Prod.mk.inj h
    cases r with
    | error e => cases hresult
    | ok vs =>
      obtain ⟨hvs, rfl⟩ := world_of_finish s hcall
      exact yields_sandbox s memory services _ vs hvs

end Run

/-! ## What it leaves -/

/-- What is left of the tables of the library. -/
structure Leaves : Prop where
  only : ∀ t ∈ guardedTables.toList, t.Only Value.Public
  metatable : (guardedTables[globalsTable]?.getD {}).metatable = none
  placed : globalsTable < guardedTables.size

theorem leaves : Leaves := by constructor <;> decide +kernel

/-- A function that was never made does nothing but return. -/
theorem public_default (shared : Nat → Prop) : (default : Closure).Public shared where
  code i hi := by
    obtain rfl : i = .return 0 false := by simpa using Array.mem_singleton.1 hi
    trivial
  image _ hp := absurd hp (Array.not_mem_empty _)
  captured _ hc := absurd hc (Array.not_mem_empty _)

/-- Only the variable that belongs to nobody is shared once the script has run. -/
theorem guarded_sandboxed {κ : Type} {memory : Nat} {services : Services κ} (hpublic : services.Public)
    {w : Vm κ} (h : Sandboxed memory services w) :
    w.Guarded (Package.ward κ sandboxGuard) (· = 0) := by
  obtain ⟨taken, rfl⟩ := h
  refine ⟨?_, hpublic⟩
  have hsandboxed : (sandboxedHeap memory).Guarded sandboxGuard (· = 0) :=
    { tables := fun id => by
        change (guardedTables[id]?.getD {}).Only Value.Public
        cases hid : guardedTables[id]? with
        | none => exact Table.only_empty
        | some t => exact leaves.only t (Array.mem_toList_iff.2 (Array.mem_of_getElem? hid))
      placed := leaves.placed
      metatable := leaves.metatable
      stringifier := Lua.isPublic_nil
      cells := fun id hid => by
        change IsPublic (sandboxCells[id]?.getD .nil)
        match id, hid with
        | 0, _ => exact Lua.isPublic_nil
        | 1, _ => exact Lua.isPublic_table _
        | 2, _ => exact Lua.isPublic_table _
        | 3, hid => exact absurd rfl hid
        | id + 4, _ => exact Lua.isPublic_nil
      kept := (by decide : 3 < 4)
      secret := rfl
      environment := rfl
      closures := fun id hid => by
        match id, hid with
        | 0, hid => exact absurd rfl hid
        | 1, _ => exact .inl rfl
        | id + 2, _ => exact .inr (public_default _)
      started := (by decide : 0 < 2)
      unused := rfl
      bound := fun id hid => hid ▸ (by decide : 0 < 4)
      apart := by decide }
  exact hsandboxed.of_eq rfl rfl rfl rfl rfl

/-- Where the script that every package starts after comes to its end, the guard stands. -/
theorem boot_guarded {κ : Type} {s : Setting κ} {memory : Nat} {services : Services κ}
    (hpublic : services.Public) {w : Vm κ} (h : boot s builtinSandbox memory services = (.ok (), w)) :
    w.Guarded (Package.ward κ sandboxGuard) (· = 0) :=
  guarded_sandboxed hpublic (sandboxed_of_boot s memory services h)

end ScriptWarden.Script
