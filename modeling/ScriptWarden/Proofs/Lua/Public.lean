import ScriptWarden.Lua.Machine
import ScriptWarden.Proofs.Lua.Table
set_option autoImplicit false

/-!
# Lua: public values

A guard keeps one function of the language to itself, in a variable that no other function shares.  Every other
value is public.  A native function that is called with public values gives public values, asks for calls with
public values, and leaves the guard in place (`Native.Keeps`).
-/

namespace ScriptWarden.Lua

/-! ## Values -/

/-- Any value but the function behind the guard and the script that put the guard up. -/
def Value.Public : Value → Prop
  | .builtin f => f ≠ .setmetatable
  | .closure id => id ≠ 0
  | _ => True

instance : DecidablePred Value.Public := fun v =>
  match v with
  | .builtin f => inferInstanceAs (Decidable (f ≠ .setmetatable))
  | .closure id => inferInstanceAs (Decidable (id ≠ 0))
  | .nil | .bool _ | .int _ | .float _ | .str _ | .table _ | .matcher _ | .host _ | .object _
  | .raised _ => inferInstanceAs (Decidable True)

/-- What it means for a result that all values in it are public. -/
class HasPublic (α : Type) where
  Public : α → Prop

/-- All values in a result are public. -/
def IsPublic {α : Type} [HasPublic α] (a : α) : Prop := HasPublic.Public a

instance (priority := low) noValues (α : Type) : HasPublic α := ⟨fun _ => True⟩

instance : HasPublic Value := ⟨Value.Public⟩

instance {α : Type} [HasPublic α] : HasPublic (List α) := ⟨fun as => ∀ a ∈ as, IsPublic a⟩

instance {α : Type} [HasPublic α] : HasPublic (Option α) := ⟨fun o => ∀ a, o = some a → IsPublic a⟩

instance {α β : Type} [HasPublic α] [HasPublic β] : HasPublic (α × β) :=
  ⟨fun p => IsPublic p.1 ∧ IsPublic p.2⟩

instance {ε α : Type} [HasPublic α] : HasPublic (Except ε α) :=
  ⟨fun r => ∀ a, r = .ok a → IsPublic a⟩

instance : HasPublic Table := ⟨Table.Only Value.Public⟩

instance : HasPublic Thrown := ⟨fun t => IsPublic t.value⟩

instance : HasPublic Answer where
  Public
    | .values vs => IsPublic vs
    | .raised t => IsPublic t

instance : HasPublic Fault where
  Public
    | .value v => IsPublic v
    | .rethrow t => IsPublic t
    | _ => True

instance : HasPublic Query where
  Public
    | .call f args => IsPublic f ∧ IsPublic args
    | .guarded f args handler => IsPublic f ∧ IsPublic args ∧ IsPublic handler

section Results

variable {α β ε : Type}

@[simp] theorem isPublic_noValues (a : α) : @IsPublic α (noValues α) a := trivial

@[simp] theorem isPublic_nil : IsPublic Value.nil := trivial

@[simp] theorem isPublic_bool (b : Bool) : IsPublic (Value.bool b) := trivial

@[simp] theorem isPublic_int (n : Int64) : IsPublic (Value.int n) := trivial

@[simp] theorem isPublic_float (x : Float) : IsPublic (Value.float x) := trivial

@[simp] theorem isPublic_str (s : Bytes) : IsPublic (Value.str s) := trivial

@[simp] theorem isPublic_text (s : String) : IsPublic (Value.text s) := trivial

@[simp] theorem isPublic_nat (n : Nat) : IsPublic (Value.nat n) := trivial

@[simp] theorem isPublic_table (id : Nat) : IsPublic (Value.table id) := trivial

@[simp] theorem isPublic_matcher (id : Nat) : IsPublic (Value.matcher id) := trivial

@[simp] theorem isPublic_host (f : HostFunction) : IsPublic (Value.host f) := trivial

@[simp] theorem isPublic_object (id : Nat) : IsPublic (Value.object id) := trivial

@[simp] theorem isPublic_raised (id : Nat) : IsPublic (Value.raised id) := trivial

@[simp] theorem isPublic_builtin (f : Builtin) :
    IsPublic (Value.builtin f) ↔ f ≠ .setmetatable := .rfl

@[simp] theorem isPublic_closure (id : Nat) : IsPublic (Value.closure id) ↔ id ≠ 0 := .rfl

variable [HasPublic α] [HasPublic β]

@[simp] theorem isPublic_emptyList : IsPublic ([] : List α) := fun _ ha => nomatch ha

@[simp] theorem isPublic_cons (a : α) (as : List α) :
    IsPublic (a :: as) ↔ IsPublic a ∧ IsPublic as := List.forall_mem_cons

@[simp] theorem isPublic_append (as bs : List α) :
    IsPublic (as ++ bs) ↔ IsPublic as ∧ IsPublic bs := List.forall_mem_append

theorem IsPublic.sublist {as bs : List α} (h : IsPublic bs) (hsub : as.Sublist bs) : IsPublic as :=
  fun a ha => h a (hsub.subset ha)

@[simp] theorem isPublic_none : IsPublic (none : Option α) := fun _ ha => nomatch ha

@[simp] theorem isPublic_some (a : α) : IsPublic (some a) ↔ IsPublic a :=
  ⟨fun h => h a rfl, fun h _ ha => Option.some.inj ha ▸ h⟩

@[simp] theorem isPublic_pair (a : α) (b : β) : IsPublic (a, b) ↔ IsPublic a ∧ IsPublic b := .rfl

@[simp] theorem isPublic_ok (a : α) : IsPublic (Except.ok a : Except ε α) ↔ IsPublic a :=
  ⟨fun h => h a rfl, fun h _ ha => Except.ok.inj ha ▸ h⟩

@[simp] theorem isPublic_error (e : ε) : IsPublic (Except.error e : Except ε α) := fun _ ha => nomatch ha

@[simp] theorem isPublic_values (vs : List Value) : IsPublic (Answer.values vs) ↔ IsPublic vs := .rfl

@[simp] theorem isPublic_answerRaised (t : Thrown) :
    IsPublic (Answer.raised t) ↔ IsPublic t.value := .rfl

@[simp] theorem isPublic_thrown (t : Thrown) : IsPublic t ↔ IsPublic t.value := .rfl

@[simp] theorem isPublic_faultValue (v : Value) : IsPublic (Fault.value v) ↔ IsPublic v := .rfl

@[simp] theorem isPublic_here (s : Bytes) : IsPublic (Fault.here s) := trivial

@[simp] theorem isPublic_above (n : Nat) (s : Bytes) : IsPublic (Fault.above n s) := trivial

@[simp] theorem isPublic_argument (n : Nat) (s : Bytes) : IsPublic (Fault.argument n s) := trivial

@[simp] theorem isPublic_memory : IsPublic Fault.memory := trivial

@[simp] theorem isPublic_rethrow (t : Thrown) : IsPublic (Fault.rethrow t) ↔ IsPublic t.value := .rfl

theorem IsPublic.getD {v? : Option Value} (h : IsPublic v?) : IsPublic (v?.getD .nil) := by
  cases v? with
  | none => exact isPublic_nil
  | some v => exact h v rfl

theorem IsPublic.getElem? {as : List α} (h : IsPublic as) (i : Nat) : IsPublic as[i]? :=
  fun a ha => h a (List.mem_of_getElem? ha)

theorem IsPublic.headD {vs : List Value} (h : IsPublic vs) : IsPublic (vs.headD .nil) := by
  cases vs with
  | nil => exact isPublic_nil
  | cons v vs => exact (isPublic_cons v vs).1 h |>.1

end Results

/-! ## Heaps -/

/-- The variable that holds the environment of the guard. -/
def environmentCell : Nat := 1

/-- The variable that holds the function behind the guard. -/
def secretCell : Nat := 3

/-- An operand that is written down in code is public. -/
def Operand.Public : Operand → Prop
  | .const v => v.Public
  | _ => True

/-- The operands of an instruction are public. -/
def Instr.Public : Instr → Prop
  | .push a | .branch a .. | .not a | .len a _ | .method a .. => a.Public
  | .index a b _ | .arith _ a b .. | .compare _ a b | .initField a b => a.Public ∧ b.Public
  | .store a b c _ => a.Public ∧ b.Public ∧ c.Public
  | _ => True

/-- The code of a function is public. -/
def Proto.Public (p : Proto) : Prop := ∀ i ∈ p.code, i.Public

/-- A function works on public values, and its variables are among the shared ones. -/
structure Closure.Public (shared : Nat → Prop) (c : Closure) : Prop where
  code : c.proto.Public
  image : ∀ p ∈ c.image.protos, p.Public
  captured : ∀ id ∈ c.captured, shared id

theorem Closure.Public.mono {shared shared' : Nat → Prop} {c : Closure} (hc : c.Public shared)
    (hmore : ∀ id, shared id → shared' id) : c.Public shared' :=
  { hc with captured := fun id hid => hmore id (hc.captured id hid) }

/-- The guard stands: scripts reach public values only, through variables that the guard does not use, and the
global table has no metatable. -/
structure Heap.Guarded (guard : Closure) (shared : Nat → Prop) (h : Heap) : Prop where
  tables : ∀ id, (h.table id).Only Value.Public
  placed : h.globals < h.tables.size
  metatable : (h.table h.globals).metatable = none
  stringifier : IsPublic h.stringifier
  cells : ∀ id, id ≠ secretCell → IsPublic (h.cell id)
  kept : secretCell < h.cells.size
  secret : h.cell secretCell = .builtin .setmetatable
  environment : h.cell environmentCell = .table h.globals
  closures : ∀ id, id ≠ 0 → h.closure id = guard ∨ (h.closure id).Public shared
  started : 0 < h.closures.size
  unused : shared 0
  bound : ∀ id, shared id → id < h.cells.size
  apart : ¬ shared environmentCell ∧ ¬ shared secretCell

/-- What stays when a heap changes: variables that are not shared keep their values, and only new variables
come to be shared. -/
structure Heap.Grows (shared shared' : Nat → Prop) (h h' : Heap) : Prop where
  globals : h'.globals = h.globals
  room : h.cells.size ≤ h'.cells.size
  more : ∀ id, shared id → shared' id
  fresh : ∀ id, id < h.cells.size → shared' id → shared id
  steady : ∀ id, id < h.cells.size → ¬ shared id → h'.cell id = h.cell id

namespace Heap.Grows

variable {shared₁ shared₂ shared₃ : Nat → Prop} {h₁ h₂ h₃ : Heap}

theorem refl (shared : Nat → Prop) (h : Heap) : Grows shared shared h h :=
  ⟨rfl, Nat.le_refl _, fun _ hid => hid, fun _ _ hid => hid, fun _ _ _ => rfl⟩

theorem trans (h : Grows shared₁ shared₂ h₁ h₂) (h' : Grows shared₂ shared₃ h₂ h₃) :
    Grows shared₁ shared₃ h₁ h₃ where
  globals := h'.globals.trans h.globals
  room := Nat.le_trans h.room h'.room
  more id hid := h'.more id (h.more id hid)
  fresh id hlt hid := h.fresh id hlt (h'.fresh id (Nat.lt_of_lt_of_le hlt h.room) hid)
  steady id hlt hid := by
    have hnot : ¬ shared₂ id := fun hid' => hid (h.fresh id hlt hid')
    rw [h'.steady id (Nat.lt_of_lt_of_le hlt h.room) hnot, h.steady id hlt hid]

/-- The variables stay as they are. -/
theorem of_cells {shared : Nat → Prop} {h h' : Heap} (hglobals : h'.globals = h.globals)
    (hcells : h'.cells = h.cells) : Grows shared shared h h' where
  globals := hglobals
  room := Nat.le_of_eq (by rw [hcells])
  more _ hid := hid
  fresh _ _ hid := hid
  steady id _ _ := by rw [Heap.cell, Heap.cell, hcells]

end Heap.Grows

namespace Heap.Guarded

variable {guard : Closure} {shared : Nat → Prop} {h : Heap}

/-- The guard stands on tables, variables and functions alone. -/
theorem of_eq (hh : h.Guarded guard shared) {h' : Heap} (htables : h'.tables = h.tables)
    (hclosures : h'.closures = h.closures) (hcells : h'.cells = h.cells)
    (hglobals : h'.globals = h.globals) (hstringifier : h'.stringifier = h.stringifier) :
    h'.Guarded guard shared := by
  obtain ⟨tables, closures, cells, matchers, raised, globals, stringMeta, stringifier, printed, random,
    limit, taken, marked⟩ := h
  obtain ⟨tables', closures', cells', matchers', raised', globals', stringMeta', stringifier', printed',
    random', limit', taken', marked'⟩ := h'
  simp only at htables hclosures hcells hglobals hstringifier
  subst htables hclosures hcells hglobals hstringifier
  exact { hh with }

/-! ### Reading -/

theorem public_get (hh : h.Guarded guard shared) (id : Nat) (key : Value) :
    IsPublic ((h.table id).get key) := (hh.tables id).get isPublic_nil key

theorem public_getText (hh : h.Guarded guard shared) (id : Nat) (name : String) :
    IsPublic ((h.table id).getText name) := (hh.tables id).getKey isPublic_nil _

theorem public_metafield (hh : h.Guarded guard shared) (v : Value) (name : String) :
    IsPublic (h.metafield v name) := by
  unfold Heap.metafield
  split
  · split <;> simp
  · split <;> simp
  · split
    · exact hh.public_getText _ _
    · exact isPublic_nil

theorem public_cell (hh : h.Guarded guard shared) {id : Nat} (hid : shared id) :
    IsPublic (h.cell id) := hh.cells id fun heq => hh.apart.2 (heq ▸ hid)

/-! ### Tables -/

theorem withTables (hh : h.Guarded guard shared) {tables : Array Table}
    (htables : ∀ id : Nat, Table.Only Value.Public (tables[id]?.getD {})) (hplaced : h.globals < tables.size)
    (hmeta : (tables[h.globals]?.getD {}).metatable = none) :
    Guarded guard shared { h with tables } :=
  { hh with tables := htables, placed := hplaced, metatable := hmeta }

theorem modify (hh : h.Guarded guard shared) (id : Nat) {f : Table → Table}
    (hf : ∀ t : Table, t.Only Value.Public → (f t).Only Value.Public)
    (hmeta : id = h.globals → ∀ t : Table, t.metatable = none → (f t).metatable = none) :
    Guarded guard shared { h with tables := h.tables.modify id f } := by
  have htable : ∀ i, (h.tables.modify id f)[i]?.getD {} = h.table i ∨
      (id = i ∧ (h.tables.modify id f)[i]?.getD {} = f (h.table i)) := by
    intro i
    rw [Heap.table, Array.getElem?_modify]
    split
    · next heq =>
      cases hi : h.tables[i]? with
      | none => exact .inl rfl
      | some t => exact .inr ⟨heq, rfl⟩
    · exact .inl rfl
  refine hh.withTables (fun i => ?_) ?_ ?_
  · obtain heq | ⟨-, heq⟩ := htable i
    · rw [heq]
      exact hh.tables i
    · rw [heq]
      exact hf _ (hh.tables i)
  · rw [Array.size_modify]
    exact hh.placed
  · obtain heq | ⟨hid, heq⟩ := htable h.globals
    · rw [heq]
      exact hh.metatable
    · rw [heq]
      exact hmeta hid _ hh.metatable

theorem rawSet (hh : h.Guarded guard shared) (id : Nat) {key v : Value} (hkey : IsPublic key)
    (hv : IsPublic v) : (h.rawSet id key v).Guarded guard shared := by
  have hmodified : Guarded guard shared { h with tables := h.tables.modify id fun t => t.set key v } :=
    hh.modify id (fun t ht => ht.set isPublic_nil isPublic_int hkey hv)
      fun _ t ht => (Table.metatable_set t key v).trans ht
  exact hmodified.of_eq rfl rfl rfl rfl rfl

theorem newTable (hh : h.Guarded guard shared) {t : Table} (ht : IsPublic t) :
    (h.newTable t).2.Guarded guard shared := by
  have hpushed : Guarded guard shared { h with tables := h.tables.push t } := by
    refine hh.withTables (fun i => ?_) ?_ ?_
    · rw [Array.getElem?_push]
      split
      · exact ht
      · exact hh.tables i
    · rw [Array.size_push]
      exact Nat.lt_succ_of_lt hh.placed
    · rw [Array.getElem?_push, if_neg (Nat.ne_of_lt hh.placed)]
      exact hh.metatable
  exact hpushed.of_eq rfl rfl rfl rfl rfl

/-- Entries of a constructor, one after the other. -/
theorem only_listed {t : Table} (ht : IsPublic t) {vs : List Value} (hvs : IsPublic vs) (first : Nat) :
    IsPublic (vs.foldl (fun (t, i) v =>
      (if i = t.array.size + 1 then t.append v else t.setInt (Int64.ofNat i) v, i + 1)) (t, first)).1 := by
  induction vs generalizing t first with
  | nil => exact ht
  | cons v vs ih =>
    have hparts := (isPublic_cons v vs).1 hvs
    refine ih ?_ hparts.2 (first + 1)
    split
    · exact ht.append hparts.1
    · exact ht.setKey isPublic_nil _ (isPublic_int (Int64.ofNat first)) hparts.1

theorem metatable_listed (t : Table) (vs : List Value) (first : Nat) :
    (vs.foldl (fun (t, i) v =>
      (if i = t.array.size + 1 then t.append v else t.setInt (Int64.ofNat i) v, i + 1))
      (t, first)).1.metatable = t.metatable := by
  induction vs generalizing t first with
  | nil => rfl
  | cons v vs ih =>
    refine (ih _ (first + 1)).trans ?_
    split
    · rfl
    · exact Table.metatable_setKey t _ _ v

theorem setList (hh : h.Guarded guard shared) (id : Nat) {vs : List Value} (hvs : IsPublic vs)
    (first : Nat) : (h.setList id vs first).Guarded guard shared := by
  have hmodified : Guarded guard shared { h with tables := h.tables.modify id fun t =>
      (vs.foldl (fun (t, i) v =>
        (if i = t.array.size + 1 then t.append v else t.setInt (Int64.ofNat i) v, i + 1)) (t, first)).1 } :=
    hh.modify id (fun t ht => only_listed ht hvs first)
      fun _ t ht => (metatable_listed t vs first).trans ht
  exact hmodified.of_eq rfl rfl rfl rfl rfl

/-! ### Functions and variables -/

theorem newClosure (hh : h.Guarded guard shared) {c : Closure} (hc : c.Public shared) :
    (h.newClosure c).2.Guarded guard shared := by
  have hpushed : Guarded guard shared { h with closures := h.closures.push c } := by
    refine { hh with closures := fun id hid => ?_, started := ?_ }
    · rw [Heap.closure, Array.getElem?_push]
      split
      · exact .inr hc
      · exact hh.closures id hid
    · rw [Array.size_push]
      exact Nat.succ_pos _
  exact hpushed.of_eq rfl rfl rfl rfl rfl

theorem cell_newCell (h : Heap) (v : Value) (id : Nat) :
    (h.newCell v).2.cell id = if id = h.cells.size then v else h.cell id := by
  rw [Heap.cell, Heap.newCell, Array.getElem?_push]
  split
  · rfl
  · rfl

/-- The functions that scripts may share variables with, once one more variable is shared. -/
def withCell (shared : Nat → Prop) (cell : Nat) : Nat → Prop := fun id => shared id ∨ id = cell

theorem grows_newCell (h : Heap) (v : Value) :
    Grows shared (withCell shared h.cells.size) h (h.newCell v).2 where
  globals := rfl
  room := by
    rw [Heap.newCell, Array.size_push]
    exact Nat.le_succ _
  more _ hid := .inl hid
  fresh id hlt hid := hid.resolve_right (Nat.ne_of_lt hlt)
  steady id hlt _ := by rw [cell_newCell, if_neg (Nat.ne_of_lt hlt)]

theorem grows_apart (h : Heap) (v : Value) : Grows shared shared h (h.newCell v).2 where
  globals := rfl
  room := by
    rw [Heap.newCell, Array.size_push]
    exact Nat.le_succ _
  more _ hid := hid
  fresh _ _ hid := hid
  steady id hlt _ := by rw [cell_newCell, if_neg (Nat.ne_of_lt hlt)]

/-- A new variable, which nothing shares yet. -/
theorem newCell_apart (hh : h.Guarded guard shared) {v : Value} (hv : IsPublic v) :
    (h.newCell v).2.Guarded guard shared := by
  have hold : ∀ id, id ≤ secretCell → (h.newCell v).2.cell id = h.cell id := by
    intro id hid
    have hkept := hh.kept
    rw [cell_newCell, if_neg (by omega)]
  have hroom : h.cells.size ≤ (h.newCell v).2.cells.size := by
    rw [Heap.newCell, Array.size_push]
    exact Nat.le_succ _
  refine { hh with cells := fun id hid => ?_, kept := ?_, secret := ?_, environment := ?_, bound := ?_ }
  · rw [cell_newCell]
    split
    · exact hv
    · exact hh.cells id hid
  · exact Nat.lt_of_lt_of_le hh.kept hroom
  · rw [hold _ (Nat.le_refl _)]
    exact hh.secret
  · rw [hold _ (by decide)]
    exact hh.environment
  · exact fun id hid => Nat.lt_of_lt_of_le (hh.bound id hid) hroom

theorem newCell (hh : h.Guarded guard shared) {v : Value} (hv : IsPublic v) :
    (h.newCell v).2.Guarded guard (withCell shared h.cells.size) := by
  have happart := hh.newCell_apart hv
  have hkept := hh.kept
  refine { happart with closures := fun id hid => ?_, unused := ?_, bound := ?_, apart := ?_ }
  · exact (happart.closures id hid).imp_right fun hc => hc.mono fun _ hid => .inl hid
  · exact .inl hh.unused
  · rintro id (hid | rfl)
    · exact happart.bound id hid
    · rw [Heap.newCell, Array.size_push]
      exact Nat.lt_succ_self _
  · refine ⟨?_, ?_⟩
    · rintro (hid | heq)
      · exact hh.apart.1 hid
      · exact absurd hkept (by rw [← heq]; decide)
    · rintro (hid | heq)
      · exact hh.apart.2 hid
      · exact absurd hkept (by rw [← heq]; decide)

theorem cell_setCell (h : Heap) (id : Nat) (v : Value) (i : Nat) :
    (h.setCell id v).cell i = v ∨ (h.setCell id v).cell i = h.cell i := by
  rw [Heap.cell, Heap.setCell, Array.getElem?_setIfInBounds]
  split
  · split
    · exact .inl rfl
    · next heq hlt =>
      subst heq
      right
      rw [Heap.cell, Array.getElem?_eq_none (Nat.not_lt.1 hlt)]
  · exact .inr rfl

theorem cell_setCell_ne (h : Heap) {id i : Nat} (hne : id ≠ i) (v : Value) :
    (h.setCell id v).cell i = h.cell i := by
  rw [Heap.cell, Heap.setCell, Array.getElem?_setIfInBounds, if_neg hne]
  rfl

theorem grows_setCell (h : Heap) {id : Nat} (hid : shared id) (v : Value) :
    Grows shared shared h (h.setCell id v) where
  globals := rfl
  room := Nat.le_of_eq (by rw [Heap.setCell, Array.size_setIfInBounds])
  more _ hid := hid
  fresh _ _ hid := hid
  steady i _ hi := by
    refine cell_setCell_ne h ?_ v
    rintro rfl
    exact hi hid

theorem setCell (hh : h.Guarded guard shared) {id : Nat} (hid : shared id) {v : Value}
    (hv : IsPublic v) : (h.setCell id v).Guarded guard shared := by
  have hsize : (h.setCell id v).cells.size = h.cells.size := by
    rw [Heap.setCell, Array.size_setIfInBounds]
  refine { hh with cells := fun i hi => ?_, kept := ?_, secret := ?_, environment := ?_, bound := ?_ }
  · obtain heq | heq := cell_setCell h id v i
    · rw [heq]
      exact hv
    · rw [heq]
      exact hh.cells i hi
  · rw [hsize]
    exact hh.kept
  · rw [(grows_setCell h hid v).steady _ hh.kept hh.apart.2]
    exact hh.secret
  · rw [(grows_setCell h hid v).steady _ (Nat.lt_trans (by decide) hh.kept) hh.apart.1]
    exact hh.environment
  · intro i hi
    rw [hsize]
    exact hh.bound i hi

end Heap.Guarded

end ScriptWarden.Lua
