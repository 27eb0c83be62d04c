import ScriptWarden.Proofs.Lua.Operation
set_option autoImplicit false

/-!
# Lua: what a run can change

A run moves the world from step to step.  A relation `R` between worlds that *admits* the machine, and that
each native function keeps, is kept by the whole run (`within_run`), whatever the scripts do: the machine
itself changes nothing but the heap and the meter.
-/

namespace ScriptWarden.Lua

variable {σ α β : Type} {R : World σ → World σ → Prop}

/-! ## Native functions -/

/-- Whatever a native function does from a world on stays within a relation.  A function that asks for a call
goes on in whatever world the answer comes with. -/
def Outcome.Within (R : World σ → World σ → Prop) (w : World σ) (o : Outcome σ α) : Prop :=
  match o with
  | .done _ w' => R w w'
  | .fail _ w' => R w w'
  | .ask _ resume w' => R w w' ∧ ∀ answer w'', (resume answer w'').Within R w''

/-- Whatever a native function does stays within a relation. -/
def Native.Within (R : World σ → World σ → Prop) (n : Native σ α) : Prop := ∀ w, (n w).Within R w

/-- A relation between worlds that allows every change of the heap, and several changes in a row. -/
structure Admits (R : World σ → World σ → Prop) : Prop where
  refl : ∀ w, R w w
  trans : ∀ {w₁ w₂ w₃}, R w₁ w₂ → R w₂ w₃ → R w₁ w₃
  heap : ∀ h h' host meter, R ⟨h, host, meter⟩ ⟨h', host, meter⟩

/-- Two worlds that differ in the heap only. -/
def SameOutside (w w' : World σ) : Prop := w'.host = w.host ∧ w'.meter = w.meter

theorem SameOutside.trans {w₁ w₂ w₃ : World σ} (h : SameOutside w₁ w₂) (h' : SameOutside w₂ w₃) :
    SameOutside w₁ w₃ := ⟨h'.1.trans h.1, h'.2.trans h.2⟩

theorem Admits.sameOutside (hR : Admits R) {w w' : World σ} (h : SameOutside w w') : R w w' := by
  obtain ⟨heap, host, meter⟩ := w
  obtain ⟨heap', host', meter'⟩ := w'
  obtain ⟨rfl, rfl⟩ := h
  exact hR.heap _ _ _ _

namespace Outcome

theorem Within.of_rel (hR : Admits R) {w₀ w : World σ} {o : Outcome σ α} (h₀ : R w₀ w)
    (h : o.Within R w) : o.Within R w₀ := by
  cases o with
  | done a w' => exact hR.trans h₀ h
  | fail f w' => exact hR.trans h₀ h
  | ask q resume w' => exact ⟨hR.trans h₀ h.1, h.2⟩

theorem Within.bind (hR : Admits R) {w : World σ} {o : Outcome σ α}
    {k : α → World σ → Outcome σ β} (h : o.Within R w) (hk : ∀ a, Native.Within R (k a)) :
    (o.bind k).Within R w := by
  induction o generalizing w with
  | done a w' => exact (hk a w').of_rel hR h
  | fail f w' => exact h
  | ask q resume w' ih => exact ⟨h.1, fun answer w'' => ih answer w'' (h.2 answer w'')⟩

/-- What knows nothing of the host changes nothing but the heap. -/
theorem within_lift (hR : Admits R) {w : World σ} (o : Outcome Unit α) :
    (o.lift w.host w.meter).Within R w := by
  induction o generalizing w with
  | done a w' => exact hR.sameOutside ⟨rfl, rfl⟩
  | fail f w' => exact hR.sameOutside ⟨rfl, rfl⟩
  | ask q resume w' ih => exact ⟨hR.sameOutside ⟨rfl, rfl⟩, fun answer w'' => ih answer _⟩

end Outcome

namespace Native

theorem within_pure (hR : Admits R) (a : α) : (pure a : Native σ α).Within R := fun w => hR.refl w

theorem Within.bind (hR : Admits R) {n : Native σ α} {k : α → Native σ β} (h : n.Within R)
    (hk : ∀ a, (k a).Within R) : (n >>= k).Within R := fun w => (h w).bind hR hk

theorem within_heap (hR : Admits R) (f : Heap → α) : (heap f : Native σ α).Within R :=
  fun w => hR.refl w

theorem within_create (hR : Admits R) (f : Heap → α × Heap) : (create f : Native σ α).Within R :=
  fun _ => hR.heap _ _ _ _

theorem within_fail (hR : Admits R) (fault : Fault) : (fail fault : Native σ α).Within R :=
  fun w => hR.refl w

theorem within_guarded (hR : Admits R) (f : Value) (args : List Value) (handler : Option Value) :
    (guarded f args handler : Native σ Answer).Within R :=
  fun w => ⟨hR.refl w, fun _ w' => hR.refl w'⟩

theorem within_lift (hR : Admits R) (n : Native Unit α) : (n.lift : Native σ α).Within R :=
  fun _ => Outcome.within_lift hR _

/-- A change of the host stays within a relation if the worlds before and after it do. -/
theorem within_host {f : σ → α × σ}
    (h : ∀ heap host meter, R ⟨heap, host, meter⟩ ⟨heap, (f host).2, meter⟩) :
    (host f : Native σ α).Within R := fun _ => h _ _ _

end Native

namespace Machine

/-! ## Instructions -/

theorem sameOutside_withHeap (w : World σ) (f : Heap → Heap) : SameOutside w (withHeap w f) :=
  ⟨rfl, rfl⟩

theorem sameOutside_declare (f : Frame) (w : World σ) (slot : Nat) (v : Value) :
    SameOutside w (declare f w slot v).2 := ⟨rfl, rfl⟩

theorem sameOutside_declareAll (f : Frame) (w : World σ) (slot : Nat) (vs : List Value) :
    SameOutside w (declareAll f w slot vs).2 := by
  induction vs generalizing f w slot with
  | nil => exact ⟨rfl, rfl⟩
  | cons v vs ih => exact (sameOutside_declare f w slot v).trans (ih _ _ _)

/-- What an instruction leads to stays within a relation. -/
def Effect.Within (R : World σ → World σ → Prop) (w : World σ) : Effect σ → Prop
  | .next _ w' | .enter _ _ _ w' | .replace _ _ _ w' | .leave _ _ w' => R w w'
  | .operate _ o => o.Within R w

theorem Effect.within_ite {c : Prop} [Decidable c] {w : World σ} {e e' : Effect σ}
    (h : e.Within R w) (h' : e'.Within R w) : (if c then e else e').Within R w := by
  split
  · exact h
  · exact h'

theorem Effect.Within.of_rel (hR : Admits R) {w₀ w : World σ} {e : Effect σ} (h₀ : R w₀ w)
    (h : e.Within R w) : e.Within R w₀ := by
  cases e with
  | operate f o => exact Outcome.Within.of_rel hR h₀ h
  | _ => exact hR.trans h₀ h

theorem operation_within (hR : Admits R) (f : Frame) (w : World σ) (n : Native Unit α) (next : α → Frame)
    (wanted : Nat) (give : α → List Value) : (operation f w n next wanted give).Within R w := by
  have h := Native.within_lift hR n w
  unfold operation
  cases hn : n.lift w with
  | done v w' => rw [hn] at h; exact h
  | fail e w' => rw [hn] at h; exact h
  | ask q resume w' =>
    rw [hn] at h
    exact ⟨h.1, fun answer w'' => (h.2 answer w'').bind hR fun v w => hR.refl w⟩

theorem operate1_within (hR : Admits R) (f : Frame) (w : World σ) (n : Native Unit Value) :
    (operate1 f w n).Within R w :=
  operate1_eq f w n ▸ operation_within hR f w n _ _ _

theorem operate0_within (hR : Admits R) (f : Frame) (w : World σ) (n : Native Unit Unit) :
    (operate0 f w n).Within R w :=
  operate0_eq f w n ▸ operation_within hR f w n _ _ _

theorem instruct_within (hR : Admits R) (f : Frame) (w : World σ) (i : Instr) :
    (instruct f w i).Within R w := by
  cases i with
  | push a => exact hR.refl w
  | pop n => exact hR.refl w
  | declare slot => exact hR.sameOutside ⟨rfl, rfl⟩
  | assign place => exact hR.sameOutside (sameOutside_withHeap _ _)
  | index obj key origin => exact operate1_within hR _ _ _
  | store obj key value origin => exact operate0_within hR _ _ _
  | arith op a b oa ob =>
    unfold instruct
    simp only
    split <;> exact operate1_within hR _ _ _
  | concat oa ob => exact operate1_within hR _ _ _
  | compare op a b => exact operate1_within hR _ _ _
  | not a => exact hR.refl w
  | len a origin => exact operate1_within hR _ _ _
  | jump target => exact hR.refl w
  | branch a sense target => exact hR.refl w
  | keepOr sense target =>
    unfold instruct
    simp only
    split <;> exact hR.refl w
  | call args isOpen want origin => exact hR.refl w
  | tailCall args isOpen origin => exact hR.refl w
  | method obj name origin =>
    rw [instruct_method]
    exact operation_within hR _ _ _ _ _ _
  | vararg want => exact hR.refl w
  | «return» count isOpen => exact hR.refl w
  | closure index =>
    unfold instruct
    simp only
    split
    · exact hR.sameOutside ⟨rfl, rfl⟩
    · exact hR.refl w
  | newTable => exact hR.sameOutside ⟨rfl, rfl⟩
  | initField key value =>
    unfold instruct
    simp only
    split
    · exact operate0_within hR _ _ _
    · exact hR.refl w
  | initList first count isOpen =>
    unfold instruct
    simp only
    split
    · exact hR.sameOutside (sameOutside_withHeap _ _)
    · exact hR.refl w
  | numericStart base exit =>
    unfold instruct
    simp only
    split
    · exact hR.refl w
    · exact hR.refl w
    · exact hR.sameOutside (sameOutside_declareAll _ _ _ _)
    · exact hR.sameOutside (sameOutside_declareAll _ _ _ _)
  | numericNext base body =>
    unfold instruct
    simp only
    split
    · split
      · exact hR.refl w
      · exact hR.sameOutside ((sameOutside_withHeap _ _).trans (sameOutside_declare _ _ _ _))
    · refine Effect.within_ite ?_ (hR.refl w)
      exact hR.sameOutside ((sameOutside_withHeap _ _).trans (sameOutside_declare _ _ _ _))
    · exact hR.refl w
  | genericStart base =>
    unfold instruct
    simp only
    split
    · exact hR.sameOutside (sameOutside_declareAll _ _ _ _)
    · split
      · exact hR.sameOutside (sameOutside_declareAll _ _ _ _)
      · exact hR.sameOutside (sameOutside_declareAll _ _ _ _)
  | genericCall base count => exact hR.refl w
  | genericNext base count exit =>
    unfold instruct
    simp only
    split
    · exact hR.refl w
    · exact hR.refl w
    · exact hR.sameOutside ((sameOutside_withHeap _ _).trans (sameOutside_declareAll _ _ _ _))
  | toBeClosed slot name =>
    unfold instruct
    simp only
    split
    · exact hR.refl w
    · split <;> exact hR.refl w
  | close slot =>
    unfold instruct
    simp only
    split
    · exact hR.refl w
    · exact operate0_within hR _ _ _

/-! ## Steps -/

/-- What waits on the stack goes on within a relation. -/
def Stack.Within (R : World σ → World σ → Prop) (s : Stack σ) : Prop :=
  ∀ p : Pending σ, .native p ∈ s.top → ∀ answer w, (p.resume answer w).Within R w

/-- What is to be done next starts from a world that is related to `w`. -/
def Control.Within (R : World σ → World σ → Prop) (w : World σ) : Control σ → Prop
  | .execute w' | .call _ _ w' | .give _ w' | .throw _ w' | .finished _ w' => R w w'
  | .look _ o => o.Within R w

/-- All that a machine does from the world `w` on stays within a relation. -/
structure Within (R : World σ → World σ → Prop) (w : World σ) (m : Machine σ) : Prop where
  control : Control.Within R w m.control
  stack : Stack.Within R m.stack

theorem Stack.within_nil : Stack.Within R {} := by
  intro p hp
  cases hp

theorem Stack.Within.of_top {s s' : Stack σ} (h : Stack.Within R s)
    (htop : ∀ p : Pending σ, .native p ∈ s'.top → .native p ∈ s.top) : Stack.Within R s' :=
  fun p hp => h p (htop p hp)

/-- A script function on the stack waits for nothing. -/
theorem Stack.Within.script {s s' : Stack σ} {f : Frame} (h : Stack.Within R s)
    (htop : s'.top = .script f :: s.top) : Stack.Within R s' := by
  refine h.of_top fun p hp => ?_
  rw [htop] at hp
  simpa using hp

theorem Stack.Within.pushNative {s : Stack σ} (h : Stack.Within R s) {p : Pending σ}
    (hp : ∀ answer w, (p.resume answer w).Within R w) : Stack.Within R (pushNative s p) := by
  intro p' hp'
  rcases List.mem_cons.1 hp' with heq | hmem
  · cases heq
    exact hp
  · exact h p' hmem

theorem Stack.Within.rest {s s' : Stack σ} {a : Activation σ} (h : Stack.Within R s)
    (htop : s.top = a :: s'.top) : Stack.Within R s' := by
  refine h.of_top fun p hp => ?_
  rw [htop]
  exact List.mem_cons_of_mem _ hp

theorem within_ite {c : Prop} [Decidable c] {w : World σ} {m m' : Machine σ}
    (h : m.Within R w) (h' : m'.Within R w) : (if c then m else m').Within R w := by
  split
  · exact h
  · exact h'

theorem enterScript_within (hR : Admits R) {w₀ w : World σ} {s : Stack σ} (hs : Stack.Within R s)
    (hw : R w₀ w) (c : Closure) (args : List Value) : (enterScript s c args w).Within R w₀ := by
  unfold enterScript
  refine within_ite ⟨hw, hs⟩ (within_ite ⟨hw, hs⟩ ⟨?_, hs.script rfl⟩)
  exact hR.trans hw (hR.sameOutside (sameOutside_declareAll _ _ _ _))

theorem makeRoom_cases (s : Stack σ) (f : HostFunction) (args : List Value) (w : World σ) :
    makeRoom s f args w = w ∨ makeRoom s f args w = recount s w args := by
  unfold makeRoom
  split
  · split
    · exact .inl rfl
    · exact .inr rfl
  · exact .inl rfl

/-- Counting again changes nothing but the heap. -/
theorem sameOutside_makeRoom (s : Stack σ) (f : HostFunction) (args : List Value) (w : World σ) :
    SameOutside w (makeRoom s f args w) := by
  obtain heq | heq := makeRoom_cases s f args w <;> rw [heq]
  · exact ⟨rfl, rfl⟩
  · exact sameOutside_withHeap _ _

theorem enter_within (hR : Admits R) {natives : Natives σ} {f : Value} {args : List Value}
    (hnative : (natives f args).Within R) {w₀ w : World σ} {s : Stack σ}
    (hs : Stack.Within R s) (hw : R w₀ w) : (enter natives s f args w).Within R w₀ := by
  unfold enter
  split
  · exact enterScript_within hR hs hw _ _
  · exact ⟨(hnative w).of_rel hR hw, hs⟩
  · exact ⟨(hnative w).of_rel hR hw, hs⟩
  · next f =>
    have hroom := hR.trans hw (hR.sameOutside (sameOutside_makeRoom s f args w))
    exact ⟨(hnative _).of_rel hR hroom, hs⟩
  · simp only
    split <;> exact ⟨hw, hs⟩

theorem follow_within (hR : Admits R) {w₀ : World σ} {s : Stack σ} (hs : Stack.Within R s)
    {e : Effect σ} (he : e.Within R w₀) : (follow s e).Within R w₀ := by
  cases e with
  | next f w => exact ⟨he, hs.script rfl⟩
  | operate f o => exact ⟨he, hs.script rfl⟩
  | enter f callee args w => exact ⟨he, hs.script rfl⟩
  | replace f callee args w =>
    unfold follow
    simp only
    split
    · exact ⟨he, hs⟩
    · exact ⟨he, hs.script rfl⟩
  | leave f vs w =>
    unfold follow
    simp only
    split
    · exact ⟨he, hs⟩
    · exact ⟨(Native.within_lift hR _ w).of_rel hR he, hs⟩

theorem tickMeter_eq (stack : List (Activation σ)) (w : World σ) :
    (tickMeter stack w).2.heap = w.heap ∧ (tickMeter stack w).2.host = w.host := by
  unfold tickMeter
  split
  · split
    · split <;> exact ⟨rfl, rfl⟩
    · exact ⟨rfl, rfl⟩
  · exact ⟨rfl, rfl⟩

/-- Is there an instruction to run next, unless something is let go before it? -/
def isReady (m : Machine σ) : Bool :=
  match m.control, m.stack.top with
  | .execute w, .script f :: _ => !isFull w && (f.closure.proto.code[f.pc]?).isSome
  | _, _ => false

/-- Is there an instruction to run next? -/
def isDue (collector : Collector) (m : Machine σ) : Bool :=
  (letGo? collector m.stack.top m.world.heap).isNone && m.isReady

theorem execute_within (hR : Admits R) {w₀ w : World σ} {s : Stack σ} (hs : Stack.Within R s)
    (hw : R w₀ w) (htick : isReady ⟨.execute w, s⟩ → R w (tickMeter s.top w).2) :
    (execute s w).Within R w₀ := by
  have hrecount : R w₀ (recount s w) := hR.trans hw (hR.sameOutside (sameOutside_withHeap _ _))
  unfold execute
  split
  · simp only
    split
    · exact ⟨hrecount, hs⟩
    · exact ⟨hrecount, hs⟩
  · next hroom =>
    split
    · next f rest depth frames natives =>
      have hrest : Stack.Within R (⟨rest, depth, frames, natives⟩ : Stack σ) := hs.rest rfl
      split
      · exact follow_within hR hrest hw
      · next i hi =>
        have hticked : R w₀ (tickMeter rest w).2 := hR.trans hw (htick (by simp [isReady, hroom, hi]))
        simp only
        split
        · next w' htrue =>
          rw [htrue] at hticked
          exact ⟨hR.trans hticked (hR.sameOutside ⟨rfl, rfl⟩), hrest.script rfl⟩
        · next w' hfalse =>
          rw [hfalse] at hticked
          refine follow_within hR hrest ?_
          exact (instruct_within hR { f with pc := f.pc + 1 } w' i).of_rel hR hticked
    · exact ⟨hw, hs⟩

/-- As long as nothing is marked, nothing is let go. -/
theorem letGo?_of_unmarked (collector : Collector) (stack : List (Activation σ)) {h : Heap}
    (hmarked : h.marked = []) : letGo? collector stack h = none := by
  simp [letGo?, pick?, hmarked]

theorem interrupt_within (hR : Admits R) {w₀ w : World σ} {s : Stack σ} (hs : Stack.Within R s)
    (hw : R w₀ w) (f : Frame) (id : Nat) : (interrupt s f id w).Within R w₀ := by
  have hunmarked := hR.trans hw (hR.sameOutside (sameOutside_withHeap w (·.unmark id)))
  refine within_ite ⟨hunmarked, hs.script rfl⟩ ⟨?_, hs.script rfl⟩
  exact (Native.within_lift hR (finalize id) _).of_rel hR hunmarked

theorem proceed_within (hR : Admits R) {collector : Collector} {w₀ w : World σ} {s : Stack σ}
    (hs : Stack.Within R s) (hw : R w₀ w)
    (htick : isDue collector ⟨.execute w, s⟩ → R w (tickMeter s.top w).2) :
    (proceed collector s w).Within R w₀ := by
  obtain ⟨top, depth, frames, count⟩ := s
  cases top with
  | nil => exact execute_within hR hs hw nofun
  | cons a rest =>
    cases a with
    | native p => exact execute_within hR hs hw nofun
    | script f =>
      unfold proceed
      simp only
      split
      · exact interrupt_within hR (hs.rest rfl) hw _ _
      · next hkept =>
        refine execute_within hR hs hw fun hready => htick ?_
        have hnone : letGo? collector (.script f :: rest) w.heap = none := hkept
        simp [isDue, world, hnone, hready]

theorem give_within {w₀ w : World σ} {s : Stack σ} (hR : Admits R) (hs : Stack.Within R s)
    (hw : R w₀ w) (vs : List Value) : (give s vs w).Within R w₀ := by
  unfold give
  split
  · exact ⟨hw, hs⟩
  · next f rest depth frames natives =>
    have hrest : Stack.Within R (⟨rest, depth, frames, natives⟩ : Stack σ) := hs.rest rfl
    exact ⟨hw, hrest.script rfl⟩
  · next p rest depth frames natives =>
    exact ⟨(hs p List.mem_cons_self _ w).of_rel hR hw, hs.rest rfl⟩

theorem look_within {w₀ : World σ} {s : Stack σ} (hs : Stack.Within R s) (runner : Runner)
    {o : Outcome σ (List Value)} (ho : o.Within R w₀) : (look s runner o).Within R w₀ := by
  cases o with
  | done vs w => exact ⟨ho, hs⟩
  | fail fault w => exact ⟨ho, hs⟩
  | ask q resume w =>
    unfold look
    simp only
    split
    · exact ⟨ho.1, hs.pushNative ho.2⟩
    · split <;> exact ⟨ho.1, hs.pushNative ho.2⟩

theorem unwind_within {w₀ w : World σ} {s : Stack σ} (hR : Admits R) (hs : Stack.Within R s)
    (hw : R w₀ w) (t : Thrown) : (unwind s t w).Within R w₀ := by
  unfold unwind
  split
  · exact ⟨hw, hs⟩
  · simp only
    split
    · exact ⟨hw, hs.rest rfl⟩
    · exact ⟨(Native.within_lift hR _ w).of_rel hR hw, hs.rest rfl⟩
  · next p rest depth frames natives =>
    simp only
    split
    · exact ⟨(hs p List.mem_cons_self _ w).of_rel hR hw, hs.rest rfl⟩
    · exact ⟨hw, hs.rest rfl⟩

theorem raise_within {w₀ w : World σ} {s : Stack σ} (hR : Admits R) (hs : Stack.Within R s)
    (hw : R w₀ w) (t : Thrown) : (raise s t w).Within R w₀ := by
  unfold raise
  split
  · exact unwind_within hR hs hw t
  · split
    · exact unwind_within hR hs hw _
    · split
      · exact ⟨hw, hs⟩
      · refine ⟨hw, hs.pushNative fun answer w' => ?_⟩
        cases answer <;> exact hR.refl w'

section Run

variable (hR : Admits R) {natives : Natives σ} (hnatives : ∀ f args, (natives f args).Within R)

include hR

/-- A step stays within every relation that admits the machine, if a native function that is called keeps it and it
allows an instruction that is due to be counted. -/
theorem step_within {w₀ : World σ} {m : Machine σ} (h : m.Within R w₀)
    (hcalled : ∀ f args w, m.control = .call f args w → (natives f args).Within R)
    (htick : m.isDue natives.collector → R m.world (tickMeter m.stack.top m.world).2) :
    (step natives m).Within R w₀ := by
  obtain ⟨control, stack⟩ := m
  cases control with
  | execute w => exact proceed_within hR h.stack h.control htick
  | call f args w => exact enter_within hR (hcalled f args w rfl) h.stack h.control
  | give vs w => exact give_within hR h.stack h.control vs
  | look runner o => exact look_within h.stack runner h.control
  | throw t w => exact raise_within hR h.stack h.control t
  | finished answer w => exact h

variable (htick : ∀ stack w, R w (tickMeter stack w).2)

include hnatives htick

/-- So does a run, however long, if all native functions keep the relation. -/
theorem within_run (fuel : Nat) {w₀ : World σ} {m : Machine σ} (h : m.Within R w₀) :
    (run natives fuel m).Within R w₀ := by
  induction fuel generalizing m with
  | zero => exact h
  | succ fuel ih =>
    unfold run
    split
    · exact h
    · exact ih (step_within hR h (fun f args _ _ => hnatives f args) fun _ => htick _ _)

omit hR htick hnatives in
theorem Within.world {w₀ : World σ} {m : Machine σ} (h : m.Within R w₀) : R w₀ m.world := by
  obtain ⟨control, stack⟩ := m
  have hcontrol := h.control
  cases control with
  | look runner o =>
    cases o with
    | done vs w => exact hcontrol
    | fail fault w => exact hcontrol
    | ask q resume w => exact hcontrol.1
  | _ => exact hcontrol

omit hnatives htick in
/-- What a machine does from some world on it does from the one it is in. -/
theorem Within.here {w₀ : World σ} {m : Machine σ} (h : m.Within R w₀) : m.Within R m.world := by
  refine ⟨?_, h.stack⟩
  obtain ⟨control, stack⟩ := m
  have hcontrol := h.control
  cases control with
  | look runner o =>
    cases o with
    | done vs w => exact hR.refl w
    | fail fault w => exact hR.refl w
    | ask q resume w => exact ⟨hR.refl w, hcontrol.2⟩
  | _ => exact hR.refl _

omit hnatives htick in
theorem within_ofCall (f : Value) (args : List Value) (w : World σ) : (ofCall f args w).Within R w :=
  ⟨hR.refl w, Stack.within_nil⟩

omit hnatives htick in
theorem within_ofClose (collector : Collector) (w : World σ) : (ofClose collector w).Within R w :=
  ⟨Native.within_lift hR _ w, Stack.within_nil⟩

end Run

end Machine

end ScriptWarden.Lua
