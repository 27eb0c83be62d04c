import ScriptWarden.Proofs.Lua.Frame
set_option autoImplicit false

/-!
# Lua: the guard

The guard stands in the place of the function that changes metatables.  It compares the table it is given with the
global variable `_G` and calls the global function `error` if they are the same; otherwise it calls the function that
it keeps.  As long as those two names have their first values (`Heap.Intact`) whenever the guard is at work on the
global table (`Machine.Guarding`), it never gets to the function it keeps with that table.
-/

namespace ScriptWarden.Lua

open Machine

/-- The names that the guard relies on have their first values. -/
structure Heap.Intact (h : Heap) : Prop where
  globals : h.rawGet h.globals (.text "_G") = .table h.globals
  error : h.rawGet h.globals (.text "error") = .builtin .error

/-! ## Code -/

/-- What the guard says. -/
def guardText : String := "cannot replace the metatable of the global table"

/-- The instructions of the guard. -/
def guardCode : Array Instr := #[
  .index (.captured 0) (.const (.text "_G")) (.upvalue (Text.bytes "_ENV")),
  .compare .eq (.slot 0) .top,
  .branch .top false 7,
  .index (.captured 0) (.const (.text "error")) (.upvalue (Text.bytes "_ENV")),
  .push (.const (.text guardText)),
  .push (.const (.int 2)),
  .call 2 false (.exactly 0) (.globalVar (Text.bytes "error")),
  .push (.captured 1),
  .push (.slot 0),
  .push (.slot 1),
  .tailCall 2 false (.upvalue (Text.bytes "rawSetmetatable")),
  .return 0 true,
  .return 0 false]

/-- The guard as a function. -/
def guardProto : Proto where
  code := guardCode
  lines := #[23, 23, 23, 24, 24, 24, 24, 26, 26, 26, 26, 26, 27]
  params := 2
  isVararg := false
  captures := #[.captured 0, .slot 1]
  slots := 2
  line := 22

/-- The guard, with its environment and the function that it keeps. -/
structure Closure.IsGuard (c : Closure) : Prop where
  proto : c.proto = guardProto
  captured : c.captured = #[environmentCell, secretCell]

/-! ## Frames -/

/-- A frame of the guard: its arguments are in the variables `a` and `b`. -/
def guardFrame (guard : Closure) (a b pc : Nat) (stack waiting : List Value) (want : Want) : Frame :=
  { closure := guard, pc, slots := #[a, b], stack, waiting, want }

/-- The variables of a frame of the guard belong to nobody else. -/
structure Heap.Own (shared : Nat → Prop) (h : Heap) (id : Nat) : Prop where
  late : secretCell < id
  bound : id < h.cells.size
  apart : ¬ shared id

theorem Heap.Own.grows {shared shared' : Nat → Prop} {h h' : Heap} {id : Nat} (hid : h.Own shared id)
    (hgrows : Heap.Grows shared shared' h h') : h'.Own shared' id ∧ h'.cell id = h.cell id where
  left := ⟨hid.late, Nat.lt_of_lt_of_le hid.bound hgrows.room,
    fun hshared => hid.apart (hgrows.fresh id hid.bound hshared)⟩
  right := hgrows.steady id hid.bound hid.apart

/-- A frame of the guard that has something to do.  Past the comparison, what it was given is another table, or an
error is on its way. -/
inductive GuardReady (guard : Closure) (h : Heap) (a b : Nat) : Frame → Prop
  | start (want : Want) : GuardReady guard h a b (guardFrame guard a b 0 [] [] want)
  | compare (v : Value) (want : Want) (isPublic : IsPublic v)
    (same : h.cell a = .table h.globals → v = .table h.globals) :
    GuardReady guard h a b (guardFrame guard a b 1 [v] [] want)
  | branch (v : Value) (want : Want) (same : h.cell a = .table h.globals → v.truthy) :
    GuardReady guard h a b (guardFrame guard a b 2 [v] [] want)
  | refuse (want : Want) : GuardReady guard h a b (guardFrame guard a b 3 [] [] want)
  | text (v : Value) (want : Want) (isPublic : IsPublic v)
    (error : h.cell a = .table h.globals → v = .builtin .error) :
    GuardReady guard h a b (guardFrame guard a b 4 [v] [] want)
  | level (v : Value) (want : Want) (isPublic : IsPublic v)
    (error : h.cell a = .table h.globals → v = .builtin .error) :
    GuardReady guard h a b (guardFrame guard a b 5 [.text guardText, v] [] want)
  | raise (v : Value) (want : Want) (isPublic : IsPublic v)
    (error : h.cell a = .table h.globals → v = .builtin .error) :
    GuardReady guard h a b (guardFrame guard a b 6 [.int 2, .text guardText, v] [] want)
  | pass (want : Want) (other : h.cell a ≠ .table h.globals) :
    GuardReady guard h a b (guardFrame guard a b 7 [] [] want)
  | first (want : Want) (other : h.cell a ≠ .table h.globals) :
    GuardReady guard h a b (guardFrame guard a b 8 [.builtin .setmetatable] [] want)
  | second (want : Want) (other : h.cell a ≠ .table h.globals) :
    GuardReady guard h a b (guardFrame guard a b 9 [h.cell a, .builtin .setmetatable] [] want)
  | call (want : Want) (other : h.cell a ≠ .table h.globals) :
    GuardReady guard h a b
      (guardFrame guard a b 10 [h.cell b, h.cell a, .builtin .setmetatable] [] want)
  | done (vs : List Value) (want : Want) (isPublic : IsPublic vs) :
    GuardReady guard h a b (guardFrame guard a b 11 [] vs want)

/-- A frame of the guard that waits for a call. -/
inductive GuardWaits (guard : Closure) (h : Heap) (a b : Nat) : Frame → Prop
  | compared (other : h.cell a ≠ .table h.globals) :
    GuardWaits guard h a b (guardFrame guard a b 2 [] [] (.exactly 1))
  | raised (other : h.cell a ≠ .table h.globals) :
    GuardWaits guard h a b (guardFrame guard a b 7 [] [] (.exactly 0))
  | called : GuardWaits guard h a b (guardFrame guard a b 11 [] [] .all)
  /-- A table is let go between two instructions. -/
  | interrupted {f : Frame} (ready : GuardReady guard h a b f) :
    GuardWaits guard h a b { f with want := .exactly 0 }

/-- The guard is at work on the global table. -/
def Machine.Guarding {σ : Type} (guard : Closure) (m : Machine σ) : Prop :=
  ∃ f rest, m.stack.top = .script f :: rest ∧ f.closure = guard ∧
    m.world.heap.cell (f.cellOf 0) = .table m.world.heap.globals

variable {guard : Closure} {shared shared' : Nat → Prop} {h h' : Heap} {a b : Nat} {f : Frame}

/-- A frame that has something to do is one of the guard, with its arguments. -/
theorem GuardReady.frame (hf : GuardReady guard h a b f) : f.closure = guard ∧ f.cellOf 0 = a := by
  cases hf <;> exact ⟨rfl, rfl⟩

theorem GuardReady.toClose (hf : GuardReady guard h a b f) : f.toClose = [] := by
  cases hf <;> rfl

theorem GuardReady.congr (hf : GuardReady guard h a b f) (ha : h'.cell a = h.cell a)
    (hb : h'.cell b = h.cell b) (hglobals : h'.globals = h.globals) : GuardReady guard h' a b f := by
  cases hf with
  | start want => exact .start want
  | compare v want isPublic same => exact .compare v want isPublic (by rwa [ha, hglobals])
  | branch v want same => exact .branch v want (by rwa [ha, hglobals])
  | refuse want => exact .refuse want
  | text v want isPublic error => exact .text v want isPublic (by rwa [ha, hglobals])
  | level v want isPublic error => exact .level v want isPublic (by rwa [ha, hglobals])
  | raise v want isPublic error => exact .raise v want isPublic (by rwa [ha, hglobals])
  | pass want other => exact .pass want (by rwa [ha, hglobals])
  | first want other => exact .first want (by rwa [ha, hglobals])
  | second want other =>
    rw [← ha]
    exact .second want (by rwa [ha, hglobals])
  | call want other =>
    rw [← ha, ← hb]
    exact .call want (by rwa [ha, hglobals])
  | done vs want isPublic => exact .done vs want isPublic

theorem GuardWaits.toClose (hf : GuardWaits guard h a b f) : f.toClose = [] := by
  cases hf with
  | interrupted ready => exact ready.toClose
  | _ => rfl

theorem GuardWaits.congr (hf : GuardWaits guard h a b f) (ha : h'.cell a = h.cell a)
    (hb : h'.cell b = h.cell b) (hglobals : h'.globals = h.globals) : GuardWaits guard h' a b f := by
  cases hf with
  | compared other => exact .compared (by rwa [ha, hglobals])
  | raised other => exact .raised (by rwa [ha, hglobals])
  | called => exact .called
  | interrupted ready => exact .interrupted (ready.congr ha hb hglobals)

/-- For how many values a frame of the guard waits is of no account as long as it does not wait. -/
theorem GuardReady.withWant (hf : GuardReady guard h a b f) (want : Want) :
    GuardReady guard h a b { f with want } := by
  cases hf with
  | start _ => exact .start want
  | compare v _ isPublic same => exact .compare v want isPublic same
  | branch v _ same => exact .branch v want same
  | refuse _ => exact .refuse want
  | text v _ isPublic error => exact .text v want isPublic error
  | level v _ isPublic error => exact .level v want isPublic error
  | raise v _ isPublic error => exact .raise v want isPublic error
  | pass _ other => exact .pass want other
  | first _ other => exact .first want other
  | second _ other => exact .second want other
  | call _ other => exact .call want other
  | done vs _ isPublic => exact .done vs want isPublic

/-- What a frame of the guard does with the values it waited for. -/
theorem GuardWaits.take (hf : GuardWaits guard h a b f) {vs : List Value} (hvs : IsPublic vs) :
    GuardReady guard h a b (f.take vs) := by
  cases hf with
  | compared other => exact .branch _ _ fun heq => absurd heq other
  | raised other => exact .pass _ other
  | called => exact .done vs _ hvs
  | interrupted ready => exact ready.withWant _

end ScriptWarden.Lua
