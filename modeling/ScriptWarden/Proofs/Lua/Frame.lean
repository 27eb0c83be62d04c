import ScriptWarden.Proofs.Lua.Access
import ScriptWarden.Proofs.Lua.Operation
set_option autoImplicit false

/-!
# Lua: instructions keep the guard

A frame of a script holds public values and shared variables only.  No instruction gives it anything else, so that
whatever it calls, returns and stores is public.
-/

namespace ScriptWarden.Lua

/-! ## Frames -/

/-- A frame whose code, values and variables are those of scripts. -/
structure Frame.Public (shared : Nat → Prop) (f : Frame) : Prop where
  closure : f.closure.Public shared
  slots : ∀ id ∈ f.slots, shared id
  stack : IsPublic f.stack
  waiting : IsPublic f.waiting
  extra : IsPublic f.extra

namespace Frame.Public

variable {shared shared' : Nat → Prop} {f : Frame}

theorem mono (hf : f.Public shared) (hmore : ∀ id, shared id → shared' id) : f.Public shared' :=
  { hf with
    closure := hf.closure.mono hmore
    slots := fun id hid => hmore id (hf.slots id hid) }

theorem withStack (hf : f.Public shared) {stack : List Value} (hstack : IsPublic stack) :
    Frame.Public shared { f with stack } := { hf with stack := hstack }

theorem push (hf : f.Public shared) {v : Value} (hv : IsPublic v) : (f.push v).Public shared :=
  hf.withStack ((isPublic_cons v f.stack).2 ⟨hv, hf.stack⟩)

theorem withPc (hf : f.Public shared) (pc : Nat) : Frame.Public shared { f with pc } := { hf with }

theorem withWant (hf : f.Public shared) (want : Want) : Frame.Public shared { f with want } :=
  { hf with }

theorem ite {c : Prop} [Decidable c] {f' : Frame} (hf : f.Public shared) (hf' : f'.Public shared) :
    (if c then f else f').Public shared := by
  split
  · exact hf
  · exact hf'

theorem withToClose (hf : f.Public shared) (toClose : List Nat) :
    Frame.Public shared { f with toClose } := { hf with }

/-! ### Variables -/

theorem cellOf (hf : f.Public shared) (hunused : shared 0) (slot : Nat) : shared (f.cellOf slot) := by
  unfold Frame.cellOf
  cases hslot : f.slots[slot]? with
  | none => exact hunused
  | some id => exact hf.slots id (Array.mem_of_getElem? hslot)

theorem captured (hf : f.Public shared) (hunused : shared 0) (i : Nat) :
    shared (f.closure.captured[i]?.getD 0) := by
  cases hi : f.closure.captured[i]? with
  | none => exact hunused
  | some id => exact hf.closure.captured id (Array.mem_of_getElem? hi)

theorem cellAt (hf : f.Public shared) (hunused : shared 0) (place : Place) :
    shared (Machine.cellAt f place) := by
  cases place with
  | slot i => exact hf.cellOf hunused i
  | captured i => exact hf.captured hunused i

theorem withSlot (hf : f.Public shared) (slot : Nat) {id : Nat} (hid : shared id) :
    Frame.Public shared { f with slots := f.slots.setIfInBounds slot id } := by
  refine { hf with slots := fun i hi => ?_ }
  rcases Array.mem_or_eq_of_mem_setIfInBounds hi with hold | rfl
  · exact hf.slots i hold
  · exact hid

/-! ### Values -/

theorem pop (hf : f.Public shared) :
    IsPublic (Machine.pop f).1 ∧ (Machine.pop f).2.Public shared := by
  unfold Machine.pop
  split
  · next v rest heq =>
    have hstack := hf.stack
    rw [heq, isPublic_cons] at hstack
    exact ⟨hstack.1, hf.withStack hstack.2⟩
  · exact ⟨isPublic_nil, hf⟩

theorem exactly {vs : List Value} (hvs : IsPublic vs) (n : Nat) : IsPublic (Frame.exactly n vs) := by
  induction n generalizing vs with
  | zero =>
    unfold Frame.exactly
    exact isPublic_emptyList
  | succ n ih =>
    cases vs with
    | nil => exact (isPublic_cons _ _).2 ⟨isPublic_nil, ih isPublic_emptyList⟩
    | cons v vs =>
      have hparts := (isPublic_cons v vs).1 hvs
      exact (isPublic_cons _ _).2 ⟨hparts.1, ih hparts.2⟩

/-- Values that are moved from one list in front of another. -/
theorem reverseOnto {vs : List Value} (hvs : IsPublic vs) {got : List Value} (hgot : IsPublic got) :
    IsPublic (vs.foldl (fun got v => v :: got) got) := by
  induction vs generalizing got with
  | nil => exact hgot
  | cons v vs ih =>
    have hparts := (isPublic_cons v vs).1 hvs
    exact ih hparts.2 ((isPublic_cons v got).2 ⟨hparts.1, hgot⟩)

theorem take (hf : f.Public shared) {vs : List Value} (hvs : IsPublic vs) : (f.take vs).Public shared := by
  unfold Frame.take
  split
  · exact { hf with waiting := hvs }
  · exact hf
  · exact hf.push hvs.headD
  · exact hf.withStack (reverseOnto (exactly hvs _) hf.stack)

theorem gather (hf : f.Public shared) (count : Nat) (isOpen : Bool) :
    IsPublic (Machine.gather f count isOpen).1 ∧ (Machine.gather f count isOpen).2.Public shared := by
  have hwaiting : IsPublic (if isOpen then f.waiting else []) := by
    split
    · exact hf.waiting
    · exact isPublic_emptyList
  have hleft : IsPublic (if isOpen then [] else f.waiting) := by
    split
    · exact isPublic_emptyList
    · exact hf.waiting
  have htaken : IsPublic (f.stack.take count) := hf.stack.sublist (List.take_sublist count f.stack)
  exact ⟨reverseOnto htaken hwaiting,
    { hf with
      stack := hf.stack.sublist (List.drop_sublist count f.stack)
      waiting := hleft }⟩

section Reading

variable {guard : Closure} {h : Heap}

theorem read (hf : f.Public shared) (hh : h.Guarded guard shared) {a : Operand} (ha : a.Public) :
    IsPublic (Machine.read f h a).1 ∧ (Machine.read f h a).2.Public shared := by
  cases a with
  | const v => exact ⟨ha, hf⟩
  | slot i => exact ⟨hh.public_cell (hf.cellOf hh.unused i), hf⟩
  | captured i => exact ⟨hh.public_cell (hf.captured hh.unused i), hf⟩
  | top => exact hf.pop

theorem read2 (hf : f.Public shared) (hh : h.Guarded guard shared) {a b : Operand} (ha : a.Public)
    (hb : b.Public) : IsPublic (Machine.read2 f h a b).1 ∧ IsPublic (Machine.read2 f h a b).2.1 ∧
      (Machine.read2 f h a b).2.2.Public shared := by
  obtain ⟨hy, hf'⟩ := hf.read hh hb
  obtain ⟨hx, hf''⟩ := hf'.read hh ha
  exact ⟨hx, hy, hf''⟩

end Reading

end Frame.Public

/-! ## Worlds and frames -/

variable {σ : Type} {ward : Ward σ} {shared : Nat → Prop}

/-- A later world, and a frame of a script in it. -/
def Frame.Later (ward : Ward σ) (shared : Nat → Prop) (w : World σ) (f : Frame) (w' : World σ) : Prop :=
  ∃ shared', Heap.Grows shared shared' w.heap w'.heap ∧ w'.Guarded ward shared' ∧ f.Public shared'

namespace Frame.Later

variable {w w' : World σ} {f f' : Frame}

theorem of_now (hw : w.Guarded ward shared) (hf : f.Public shared) : Frame.Later ward shared w f w :=
  ⟨shared, .refl shared w.heap, hw, hf⟩

theorem of_later (hlater : w.Later ward shared w') (hf : f.Public shared) :
    Frame.Later ward shared w f w' := by
  obtain ⟨shared', hgrows, hw'⟩ := hlater
  exact ⟨shared', hgrows, hw', hf.mono hgrows.more⟩

theorem trans {w₁ w₂ w₃ : World σ} (h : Frame.Later ward shared w₁ f w₂)
    (h' : ∀ shared', w₂.Guarded ward shared' → f.Public shared' → Frame.Later ward shared' w₂ f' w₃) :
    Frame.Later ward shared w₁ f' w₃ := by
  obtain ⟨shared₂, hgrows, hw, hf⟩ := h
  obtain ⟨shared₃, hgrows', hw', hf'⟩ := h' shared₂ hw hf
  exact ⟨shared₃, hgrows.trans hgrows', hw', hf'⟩

theorem map (h : Frame.Later ward shared w f w') (hf : ∀ shared', f.Public shared' → f'.Public shared') :
    Frame.Later ward shared w f' w' := by
  obtain ⟨shared', hgrows, hw', hf'⟩ := h
  exact ⟨shared', hgrows, hw', hf shared' hf'⟩

/-- A change of the heap that leaves the variables alone. -/
theorem withHeap (hw : w.Guarded ward shared) (hf : f.Public shared) {change : Heap → Heap}
    (hguarded : (change w.heap).Guarded ward.guard shared)
    (hgrows : Heap.Grows shared shared w.heap (change w.heap)) :
    Frame.Later ward shared w f (Machine.withHeap w change) :=
  ⟨shared, hgrows, ⟨hguarded, hw.2⟩, hf⟩

theorem declare (hw : w.Guarded ward shared) (hf : f.Public shared) (slot : Nat) {v : Value}
    (hv : IsPublic v) :
    Frame.Later ward shared w (Machine.declare f w slot v).1 (Machine.declare f w slot v).2 := by
  refine ⟨_, Heap.Guarded.grows_newCell w.heap v, ⟨hw.1.newCell hv, hw.2⟩, ?_⟩
  exact (hf.mono fun _ hid => .inl hid).withSlot slot (.inr rfl)

theorem declareAll (hw : w.Guarded ward shared) (hf : f.Public shared) (slot : Nat) {vs : List Value}
    (hvs : IsPublic vs) :
    Frame.Later ward shared w (Machine.declareAll f w slot vs).1 (Machine.declareAll f w slot vs).2 := by
  induction vs generalizing f w slot shared with
  | nil => exact of_now hw hf
  | cons v vs ih =>
    have hparts := (isPublic_cons v vs).1 hvs
    refine (declare hw hf slot hparts.1).trans fun shared' hw' hf' => ?_
    exact ih hw' hf' (slot + 1) hparts.2

end Frame.Later

/-! ## Instructions -/

namespace Machine

/-- What an instruction leads to keeps the guard, and whatever it hands on is public. -/
def Effect.Keeps (ward : Ward σ) (shared : Nat → Prop) (w : World σ) : Effect σ → Prop
  | .next f w' => Frame.Later ward shared w f w'
  | .operate f o => ∃ shared' w', Heap.Grows shared shared' w.heap w'.heap ∧ w'.Guarded ward shared' ∧
      f.Public shared' ∧ o.Keeps ward shared' w'
  | .enter f callee args w' | .replace f callee args w' =>
    Frame.Later ward shared w f w' ∧ IsPublic callee ∧ IsPublic args
  | .leave f vs w' => Frame.Later ward shared w f w' ∧ IsPublic vs

variable {w : World σ} {f : Frame}

theorem Effect.keeps_ite {c : Prop} [Decidable c] {e e' : Effect σ} (h : e.Keeps ward shared w)
    (h' : e'.Keeps ward shared w) : (if c then e else e').Keeps ward shared w := by
  split
  · exact h
  · exact h'

theorem keeps_operate (hw : w.Guarded ward shared) (hf : f.Public shared)
    {o : Outcome σ (List Value)} (ho : o.Keeps ward shared w) :
    (Effect.operate f o).Keeps ward shared w :=
  ⟨shared, w, .refl shared w.heap, hw, hf, ho⟩

theorem keeps_failure {w' : World σ} (h : Frame.Later ward shared w f w') (message : Bytes) :
    (failure f w' message).Keeps ward shared w := by
  obtain ⟨shared', hgrows, hw', hf⟩ := h
  exact ⟨shared', w', hgrows, hw', hf, hw'.later, isPublic_here message⟩

/-- What comes of an operation is public if what its result is made into is. -/
theorem keeps_operation {α : Type} [HasPublic α] (hw : w.Guarded ward shared) (hf : f.Public shared)
    {n : Native Unit α} (hn : n.Keeps ward.bare) {next : α → Frame} {wanted : Nat} {give : α → List Value}
    (hnext : ∀ shared' a, IsPublic a → f.Public shared' → (next a).Public shared')
    (hgive : ∀ a, IsPublic a → IsPublic (give a)) :
    (operation f w n next wanted give).Keeps ward shared w := by
  have hlift := hn.lift shared w hw
  have hbind := hlift.bind (k := fun a w => .done (give a) w) fun a ha => Native.keeps_pure (hgive a ha)
  unfold operation
  cases ho : n.lift w with
  | done a w' =>
    rw [ho] at hlift
    exact (Frame.Later.of_later hlift.1 hf).map fun _ hf' => hnext _ a hlift.2 hf'
  | fail e w' =>
    rw [ho] at hlift
    exact keeps_operate hw hf hlift
  | ask q resume w' =>
    rw [ho] at hbind
    exact keeps_operate hw (hf.withWant _) hbind

theorem keeps_operate1 (hw : w.Guarded ward shared) (hf : f.Public shared) {n : Native Unit Value}
    (hn : n.Keeps ward.bare) : (operate1 f w n).Keeps ward shared w :=
  operate1_eq f w n ▸ keeps_operation hw hf hn (fun _ _ hv hf' => hf'.push hv) fun _ hv => by simpa using hv

theorem keeps_operateBool (hw : w.Guarded ward shared) (hf : f.Public shared) {n : Native Unit Bool}
    (hn : n.Keeps ward.bare) : (operateBool f w n).Keeps ward shared w :=
  keeps_operate1 hw hf (hn.bind fun _ _ => Native.keeps_pure (isPublic_bool _))

theorem keeps_operate0 (hw : w.Guarded ward shared) (hf : f.Public shared) {n : Native Unit Unit}
    (hn : n.Keeps ward.bare) : (operate0 f w n).Keeps ward shared w :=
  operate0_eq f w n ▸ keeps_operation hw hf hn (fun _ _ _ hf' => hf') fun _ _ => isPublic_emptyList

theorem keeps_closeValue {v error : Value} (hv : IsPublic v) (herror : IsPublic error) :
    (closeValue v error).Keeps ward.bare :=
  (Access.keeps_metafield v _).bind fun f hf =>
    (Native.keeps_call hf (by simp [hv, herror])).bind fun _ _ => Native.keeps_pure trivial

theorem keeps_closeAll {vs results : List Value} (hvs : IsPublic vs) {error : Option Thrown}
    (herror : IsPublic error) (hresults : IsPublic results) :
    (closeAll vs error results).Keeps ward.bare := by
  induction vs generalizing error with
  | nil =>
    unfold closeAll
    split
    · next t => exact Native.keeps_fail ((isPublic_some t).1 herror)
    · exact Native.keeps_pure hresults
  | cons v rest ih =>
    have hparts := (isPublic_cons v rest).1 hvs
    have hcause : IsPublic ((error.map (·.value)).getD .nil) := by
      cases error with
      | none => exact isPublic_nil
      | some t => exact (isPublic_some t).1 herror
    refine (Access.keeps_metafield v _).bind fun f hf => ?_
    refine (Native.keeps_guarded hf (by simp [hparts.1, hcause]) isPublic_none).bind fun answer h => ?_
    cases answer with
    | values _ => exact ih hparts.2 herror
    | raised t => exact ih hparts.2 ((isPublic_some t).2 h)

/-- A function of the script as a new value. -/
theorem later_closure (hw : w.Guarded ward shared) (hf : f.Public shared) {proto : Proto}
    (hproto : proto ∈ f.closure.image.protos) :
    let c : Closure := ⟨f.closure.image, proto, captures f proto.captures⟩
    Frame.Later ward shared w (f.push (.closure (w.heap.newClosure c).1))
      ⟨(w.heap.newClosure c).2, w.host, w.meter⟩ := by
  intro c
  have hc : c.Public shared :=
    { code := hf.closure.image proto hproto
      image := hf.closure.image
      captured := fun id hid => by
        obtain ⟨place, _, rfl⟩ := Array.mem_map.1 hid
        exact hf.cellAt hw.1.unused place }
  refine ⟨shared, .of_cells rfl rfl, ⟨hw.1.newClosure hc, hw.2⟩, hf.push ?_⟩
  exact (isPublic_closure _).2 (Nat.ne_of_gt hw.1.started)

theorem keeps_setCell (hw : w.Guarded ward shared) (hf : f.Public shared) {id : Nat} (hid : shared id)
    {v : Value} (hv : IsPublic v) :
    Frame.Later ward shared w f (withHeap w (·.setCell id v)) :=
  .withHeap hw hf (hw.1.setCell hid hv) (Heap.Guarded.grows_setCell w.heap hid v)

/-- A turn of a loop over numbers: the counter changes, and the variable of the turn is new. -/
theorem later_turn (hw : w.Guarded ward shared) (hf : f.Public shared) {change : Heap → Heap}
    (hchange : (change w.heap).Guarded ward.guard shared)
    (hgrows : Heap.Grows shared shared w.heap (change w.heap)) (slot : Nat) {v : Value}
    (hv : IsPublic v) (pc : Nat) :
    Frame.Later ward shared w { (declare f (withHeap w change) slot v).1 with pc }
      (declare f (withHeap w change) slot v).2 :=
  (Frame.Later.withHeap hw hf hchange hgrows).trans fun _ hw' hf' =>
    (Frame.Later.declare hw' hf' slot hv).map fun _ hf'' => hf''.withPc pc

theorem keeps_instruct (hw : w.Guarded ward shared) (hf : f.Public shared) {i : Instr} (hi : i.Public) :
    (instruct f w i).Keeps ward shared w := by
  have hcell : ∀ slot, IsPublic (w.heap.cell (f.cellOf slot)) := fun slot =>
    hw.1.public_cell (hf.cellOf hw.1.unused slot)
  cases i with
  | push a =>
    obtain ⟨hv, hf'⟩ := hf.read hw.1 hi
    exact .of_now hw (hf'.push hv)
  | pop n => exact .of_now hw (hf.withStack (hf.stack.sublist (List.drop_sublist n _)))
  | declare slot =>
    obtain ⟨hv, hf'⟩ := hf.pop
    exact .declare hw hf' slot hv
  | assign place =>
    obtain ⟨hv, hf'⟩ := hf.pop
    exact keeps_setCell hw hf' (hf'.cellAt hw.1.unused place) hv
  | index obj key origin =>
    obtain ⟨ho, hk, hf'⟩ := hf.read2 hw.1 hi.1 hi.2
    exact keeps_operate1 hw hf' (Access.keeps_index ho hk origin)
  | store obj key value origin =>
    obtain ⟨hv, hf'⟩ := hf.read hw.1 hi.2.2
    obtain ⟨ho, hk, hf''⟩ := hf'.read2 hw.1 hi.1 hi.2.1
    exact keeps_operate0 hw hf'' (Access.keeps_store ho hk hv origin)
  | arith op a b oa ob =>
    obtain ⟨hx, hf'⟩ := hf.read hw.1 hi.1
    obtain ⟨hx', hy', hf''⟩ := hf.read2 hw.1 hi.1 hi.2
    exact Effect.keeps_ite (keeps_operate1 hw hf' (Access.keeps_arith op hx hx oa oa))
      (keeps_operate1 hw hf'' (Access.keeps_arith op hx' hy' oa ob))
  | concat oa ob =>
    obtain ⟨hx, hy, hf'⟩ := hf.read2 (a := .top) (b := .top) hw.1 trivial trivial
    exact keeps_operate1 hw hf' (Access.keeps_concat hx hy oa ob)
  | compare op a b =>
    obtain ⟨hx, hy, hf'⟩ := hf.read2 hw.1 hi.1 hi.2
    exact keeps_operateBool hw hf' (Access.keeps_compare op hx hy)
  | not a =>
    obtain ⟨-, hf'⟩ := hf.read hw.1 hi
    exact .of_now hw (hf'.push (isPublic_bool _))
  | len a origin =>
    obtain ⟨hv, hf'⟩ := hf.read hw.1 hi
    exact keeps_operate1 hw hf' (Access.keeps_len hv origin)
  | jump target => exact .of_now hw (hf.withPc target)
  | branch a sense target =>
    obtain ⟨-, hf'⟩ := hf.read hw.1 hi
    exact .of_now hw (.ite (hf'.withPc target) hf')
  | keepOr sense target =>
    unfold instruct
    simp only
    split
    · next v rest heq =>
      have hstack := hf.stack
      rw [heq, isPublic_cons] at hstack
      exact .of_now hw (.ite (hf.withPc target) (hf.withStack hstack.2))
    · exact .of_now hw hf
  | call args isOpen want origin =>
    obtain ⟨hvs, hf'⟩ := hf.gather args isOpen
    obtain ⟨hcallee, hf''⟩ := hf'.pop
    exact ⟨.of_now hw (hf''.withWant want), hcallee, hvs⟩
  | tailCall args isOpen origin =>
    obtain ⟨hvs, hf'⟩ := hf.gather args isOpen
    obtain ⟨hcallee, hf''⟩ := hf'.pop
    exact ⟨.of_now hw hf'', hcallee, hvs⟩
  | method obj name origin =>
    obtain ⟨ho, hf'⟩ := hf.read hw.1 hi
    rw [instruct_method]
    exact keeps_operation hw hf' (Access.keeps_index ho (isPublic_str name) origin)
      (fun _ _ hm hf'' => (hf''.push hm).push ho) fun m hm => by simp [hm, ho]
  | vararg want => exact .of_now hw ((hf.withWant want).take hf.extra)
  | «return» count isOpen =>
    obtain ⟨hvs, hf'⟩ := hf.gather count isOpen
    exact ⟨.of_now hw hf', hvs⟩
  | closure index =>
    unfold instruct
    simp only
    split
    · next proto hproto => exact later_closure hw hf (Array.mem_of_getElem? hproto)
    · exact .of_now hw (hf.push isPublic_nil)
  | newTable =>
    refine ⟨shared, .of_cells rfl rfl, ⟨hw.1.newTable Table.only_empty, hw.2⟩, ?_⟩
    exact hf.push (isPublic_table _)
  | initField key value =>
    obtain ⟨hk, hv, hf'⟩ := hf.read2 hw.1 hi.1 hi.2
    unfold instruct
    simp only
    split
    · next t rest heq =>
      have hstack := hf'.stack
      rw [heq, isPublic_cons] at hstack
      exact keeps_operate0 hw hf' (Access.keeps_store hstack.1 hk hv _)
    · exact .of_now hw hf'
  | initList first count isOpen =>
    obtain ⟨hvs, hf'⟩ := hf.gather count isOpen
    unfold instruct
    simp only
    split
    · next id rest heq => exact .withHeap hw hf' (hw.1.setList id hvs first) (.of_cells rfl rfl)
    · exact .of_now hw hf'
  | numericStart base exit =>
    obtain ⟨-, hf₁⟩ := hf.pop
    obtain ⟨-, hf₂⟩ := hf₁.pop
    obtain ⟨-, hf₃⟩ := hf₂.pop
    unfold instruct
    simp only
    split
    · exact keeps_failure (.of_now hw hf₃) _
    · exact .of_now hw (hf₃.withPc exit)
    · exact .declareAll hw hf₃ base (by simp)
    · exact .declareAll hw hf₃ base (by simp)
  | numericNext base body =>
    have hcounter : shared (f.cellOf base) := hf.cellOf hw.1.unused base
    have hnumber : shared (f.cellOf (base + 1)) := hf.cellOf hw.1.unused (base + 1)
    unfold instruct
    simp only
    split
    · split
      · exact .of_now hw hf
      · refine later_turn hw hf ?_ ?_ _ (isPublic_int _) body
        · exact (hw.1.setCell hcounter (isPublic_int _)).setCell hnumber (isPublic_int _)
        · exact (Heap.Guarded.grows_setCell _ hcounter _).trans (Heap.Guarded.grows_setCell _ hnumber _)
    · refine Effect.keeps_ite ?_ (.of_now hw hf)
      exact later_turn hw hf (hw.1.setCell hcounter (isPublic_float _))
        (Heap.Guarded.grows_setCell _ hcounter _) _ (isPublic_float _) body
    · exact .of_now hw hf
  | genericStart base =>
    obtain ⟨hvs, hf'⟩ := hf.gather 4 false
    have hdeclared := Frame.Later.declareAll hw hf' base hvs
    unfold instruct
    simp only
    split
    · exact hdeclared
    · split
      · exact keeps_failure hdeclared _
      · exact hdeclared.map fun _ hf'' => hf''.withToClose _
  | genericCall base count =>
    exact ⟨.of_now hw (hf.withWant _), hcell base, by simp [hcell]⟩
  | genericNext base count exit =>
    obtain ⟨hvs, hf'⟩ := hf.gather (max count 1) false
    unfold instruct
    simp only
    split
    · exact .of_now hw (hf'.withPc exit)
    · exact .of_now hw (hf'.withPc exit)
    · next v rest heq =>
      have hparts := hvs
      rw [heq, isPublic_cons] at hparts
      refine (keeps_setCell hw hf' (hf'.cellOf hw.1.unused (base + 2)) hparts.1).trans
        fun shared' hw' hf'' => ?_
      exact .declareAll hw' hf'' (base + 4) (hvs.sublist (List.take_sublist _ _))
  | toBeClosed slot name =>
    unfold instruct
    simp only
    split
    · exact .of_now hw hf
    · split
      · exact keeps_failure (.of_now hw hf) _
      · exact .of_now hw (hf.withToClose _)
  | close slot =>
    unfold instruct
    simp only
    split
    · exact .of_now hw hf
    · next s rest heq =>
      have hrest : Frame.Public shared { f with toClose := rest, pc := f.pc - 1 } := { hf with }
      exact keeps_operate0 hw hrest (keeps_closeValue (hcell s) isPublic_nil)

end Machine

end ScriptWarden.Lua
