import Mathlib.Data.List.Forall2
import ScriptWarden.Proofs.Lua.Operation
set_option autoImplicit false

/-!
# Lua: runs that are alike

Two worlds are alike if they differ in the host alone, and the hosts are related.  Scripts see of the host only what
native functions show them: if these go alike in worlds that are alike (`Native.Respects`), so do runs, however long,
and they come to the same answer (`alike_run`).
-/

namespace ScriptWarden.Lua

variable {σ α β : Type} {ρ : σ → σ → Prop}

/-- Two worlds that are the same but for the host; the hosts are related. -/
inductive World.Alike (ρ : σ → σ → Prop) : World σ → World σ → Prop
  | intro (heap : Heap) (meter : Option Meter) {host host' : σ} (h : ρ host host') :
    World.Alike ρ ⟨heap, host, meter⟩ ⟨heap, host', meter⟩

theorem World.Alike.heap_eq {w w' : World σ} (h : w.Alike ρ w') : w'.heap = w.heap := by
  cases h
  rfl

/-! ## Native functions -/

/-- Native functions go alike: they give the same, fail with the same or ask for the same, and go on alike with the
same answer. -/
inductive Outcome.Alike (ρ : σ → σ → Prop) : Outcome σ α → Outcome σ α → Prop
  | done (a : α) {w w' : World σ} (h : w.Alike ρ w') : Outcome.Alike ρ (.done a w) (.done a w')
  | fail (fault : Fault) {w w' : World σ} (h : w.Alike ρ w') : Outcome.Alike ρ (.fail fault w) (.fail fault w')
  | ask (query : Query) {resume resume' : Answer → World σ → Outcome σ α} {w w' : World σ}
    (hresume : ∀ answer w w', w.Alike ρ w' → Outcome.Alike ρ (resume answer w) (resume' answer w'))
    (h : w.Alike ρ w') : Outcome.Alike ρ (.ask query resume w) (.ask query resume' w')

/-- A native function goes alike in worlds that are alike. -/
def Native.Respects (ρ : σ → σ → Prop) (n : Native σ α) : Prop :=
  ∀ w w', w.Alike ρ w' → (n w).Alike ρ (n w')

namespace Outcome

theorem Alike.bind {o o' : Outcome σ α} {k : α → World σ → Outcome σ β} (h : o.Alike ρ o')
    (hk : ∀ a, Native.Respects ρ (k a)) : (o.bind k).Alike ρ (o'.bind k) := by
  induction h with
  | done a hw => exact hk a _ _ hw
  | fail fault hw => exact .fail fault hw
  | ask query hresume hw ih => exact .ask query ih hw

/-- What knows nothing of the host goes alike whatever the host is. -/
theorem alike_lift {host host' : σ} (meter : Option Meter) (h : ρ host host') (o : Outcome Unit α) :
    (o.lift host meter).Alike ρ (o.lift host' meter) := by
  induction o generalizing host host' meter with
  | done a w => exact .done a (.intro _ _ h)
  | fail fault w => exact .fail fault (.intro _ _ h)
  | ask query resume w ih =>
    refine .ask query (fun answer w w' hw => ?_) (.intro _ _ h)
    obtain ⟨heap, meter, hhost⟩ := hw
    exact ih answer _ meter hhost

end Outcome

namespace Native

theorem respects_pure (a : α) : (pure a : Native σ α).Respects ρ := fun _ _ hw => .done a hw

theorem Respects.bind {n : Native σ α} {k : α → Native σ β} (h : n.Respects ρ)
    (hk : ∀ a, (k a).Respects ρ) : (n >>= k).Respects ρ := fun w w' hw => (h w w' hw).bind hk

theorem respects_heap (f : Heap → α) : (heap f : Native σ α).Respects ρ := by
  rintro _ _ ⟨heap, meter, h⟩
  exact .done _ (.intro heap meter h)

theorem respects_create (f : Heap → α × Heap) : (create f : Native σ α).Respects ρ := by
  rintro _ _ ⟨heap, meter, h⟩
  exact .done _ (.intro _ meter h)

/-- A change of the host is respected if related hosts give the same and become related ones. -/
theorem respects_host {f : σ → α × σ}
    (hf : ∀ host host', ρ host host' → (f host').1 = (f host).1 ∧ ρ (f host).2 (f host').2) :
    (host f : Native σ α).Respects ρ := by
  rintro _ _ ⟨heap, meter, h⟩
  obtain ⟨hsame, hrelated⟩ := hf _ _ h
  unfold host
  simp only [hsame]
  exact .done _ (.intro heap meter hrelated)

theorem respects_fail (fault : Fault) : (fail fault : Native σ α).Respects ρ := fun _ _ hw => .fail fault hw

theorem respects_guarded (f : Value) (args : List Value) (handler : Option Value) :
    (guarded f args handler : Native σ Answer).Respects ρ :=
  fun _ _ hw => .ask _ (fun answer _ _ hw' => .done answer hw') hw

theorem respects_lift (n : Native Unit α) : (n.lift : Native σ α).Respects ρ := by
  rintro _ _ ⟨heap, meter, h⟩
  exact Outcome.alike_lift meter h _

end Native

namespace Machine

/-! ## Instructions -/

/-- Instructions lead to alike things. -/
inductive Effect.Alike (ρ : σ → σ → Prop) : Effect σ → Effect σ → Prop
  | next (f : Frame) {w w' : World σ} (h : w.Alike ρ w') : Effect.Alike ρ (.next f w) (.next f w')
  | operate (f : Frame) {o o' : Outcome σ (List Value)} (h : o.Alike ρ o') :
    Effect.Alike ρ (.operate f o) (.operate f o')
  | enter (f : Frame) (callee : Value) (args : List Value) {w w' : World σ} (h : w.Alike ρ w') :
    Effect.Alike ρ (.enter f callee args w) (.enter f callee args w')
  | replace (f : Frame) (callee : Value) (args : List Value) {w w' : World σ} (h : w.Alike ρ w') :
    Effect.Alike ρ (.replace f callee args w) (.replace f callee args w')
  | leave (f : Frame) (vs : List Value) {w w' : World σ} (h : w.Alike ρ w') :
    Effect.Alike ρ (.leave f vs w) (.leave f vs w')

theorem Effect.alike_ite {c : Prop} [Decidable c] {e₁ e₂ e₁' e₂' : Effect σ} (h₁ : e₁.Alike ρ e₁')
    (h₂ : e₂.Alike ρ e₂') : (if c then e₁ else e₂).Alike ρ (if c then e₁' else e₂') := by
  split
  · exact h₁
  · exact h₂

theorem alike_withHeap {w w' : World σ} (hw : w.Alike ρ w') (f : Heap → Heap) :
    (withHeap w f).Alike ρ (withHeap w' f) := by
  obtain ⟨heap, meter, h⟩ := hw
  exact .intro _ meter h

/-- New variables get the same places. -/
theorem alike_declareAll (f : Frame) {w w' : World σ} (hw : w.Alike ρ w') (slot : Nat) (vs : List Value) :
    (declareAll f w' slot vs).1 = (declareAll f w slot vs).1 ∧
      (declareAll f w slot vs).2.Alike ρ (declareAll f w' slot vs).2 := by
  induction vs generalizing f w w' slot with
  | nil => exact ⟨rfl, hw⟩
  | cons v vs ih =>
    obtain ⟨heap, meter, h⟩ := hw
    exact ih _ (.intro _ meter h) (slot + 1)

/-- An instruction that goes on once a new variable is there. -/
theorem alike_turn (f : Frame) {w w' : World σ} (hw : w.Alike ρ w') (slot : Nat) (v : Value) (pc : Nat) :
    Effect.Alike ρ (.next { (declare f w slot v).1 with pc } (declare f w slot v).2)
      (.next { (declare f w' slot v).1 with pc } (declare f w' slot v).2) := by
  obtain ⟨heap, meter, h⟩ := hw
  exact .next _ (.intro _ meter h)

/-- An instruction that goes on once new variables are there. -/
theorem alike_declared (f : Frame) {w w' : World σ} (hw : w.Alike ρ w') (slot : Nat) (vs : List Value) :
    Effect.Alike ρ (.next (declareAll f w slot vs).1 (declareAll f w slot vs).2)
      (.next (declareAll f w' slot vs).1 (declareAll f w' slot vs).2) := by
  obtain ⟨hsame, halike⟩ := alike_declareAll f hw slot vs
  rw [hsame]
  exact .next _ halike

theorem alike_operation (f : Frame) {w w' : World σ} (hw : w.Alike ρ w') (n : Native Unit α) (next : α → Frame)
    (wanted : Nat) (give : α → List Value) :
    (operation f w n next wanted give).Alike ρ (operation f w' n next wanted give) := by
  have hlift := Native.respects_lift n w w' hw
  unfold operation
  generalize n.lift w = o, n.lift w' = o' at hlift
  cases hlift with
  | done v h => exact .next _ h
  | fail fault h => exact .operate _ (.fail fault h)
  | ask query hresume h =>
    exact .operate _
      (.ask query (fun answer w w' hw => (hresume answer w w' hw).bind fun _ => Native.respects_pure _) h)

theorem alike_operate1 (f : Frame) {w w' : World σ} (hw : w.Alike ρ w') (n : Native Unit Value) :
    (operate1 f w n).Alike ρ (operate1 f w' n) := by
  rw [operate1_eq, operate1_eq]
  exact alike_operation f hw n _ _ _

theorem alike_operate0 (f : Frame) {w w' : World σ} (hw : w.Alike ρ w') (n : Native Unit Unit) :
    (operate0 f w n).Alike ρ (operate0 f w' n) := by
  rw [operate0_eq, operate0_eq]
  exact alike_operation f hw n _ _ _

/-- The same instruction leads to alike things in worlds that are alike. -/
theorem alike_instruct (f : Frame) {w w' : World σ} (hw : w.Alike ρ w') (i : Instr) :
    (instruct f w i).Alike ρ (instruct f w' i) := by
  cases i with
  | method obj name origin =>
    rw [instruct_method, instruct_method, hw.heap_eq]
    exact alike_operation _ hw _ _ _ _
  | index obj key origin =>
    unfold instruct
    rw [hw.heap_eq]
    exact alike_operate1 _ hw _
  | store obj key value origin =>
    unfold instruct
    rw [hw.heap_eq]
    exact alike_operate0 _ hw _
  | arith op a b oa ob =>
    unfold instruct
    rw [hw.heap_eq]
    simp only
    split
    · exact alike_operate1 _ hw _
    · exact alike_operate1 _ hw _
  | concat oa ob =>
    unfold instruct
    rw [hw.heap_eq]
    exact alike_operate1 _ hw _
  | compare op a b =>
    unfold instruct
    rw [hw.heap_eq]
    exact alike_operate1 _ hw _
  | len a origin =>
    unfold instruct
    rw [hw.heap_eq]
    exact alike_operate1 _ hw _
  | initField key value =>
    unfold instruct
    rw [hw.heap_eq]
    simp only
    split
    · exact alike_operate0 _ hw _
    · exact .next _ hw
  | close slot =>
    unfold instruct
    rw [hw.heap_eq]
    simp only
    split
    · exact .next _ hw
    · exact alike_operate0 _ hw _
  | push a =>
    unfold instruct
    rw [hw.heap_eq]
    exact .next _ hw
  | pop n => exact .next _ hw
  | declare slot => exact alike_declared _ hw slot [_]
  | assign place => exact .next _ (alike_withHeap hw _)
  | not a =>
    unfold instruct
    rw [hw.heap_eq]
    exact .next _ hw
  | jump target => exact .next _ hw
  | branch a sense target =>
    unfold instruct
    rw [hw.heap_eq]
    exact .next _ hw
  | keepOr sense target =>
    unfold instruct
    simp only
    split
    · exact .next _ hw
    · exact .next _ hw
  | call args isOpen want origin => exact .enter _ _ _ hw
  | tailCall args isOpen origin => exact .replace _ _ _ hw
  | vararg want => exact .next _ hw
  | «return» count isOpen => exact .leave _ _ hw
  | closure index =>
    unfold instruct
    simp only
    split
    · obtain ⟨heap, meter, h⟩ := hw
      exact .next _ (.intro _ meter h)
    · exact .next _ hw
  | newTable =>
    obtain ⟨heap, meter, h⟩ := hw
    exact .next _ (.intro _ meter h)
  | initList first count isOpen =>
    unfold instruct
    simp only
    split
    · exact .next _ (alike_withHeap hw _)
    · exact .next _ hw
  | numericStart base exit =>
    unfold instruct
    rw [hw.heap_eq]
    simp only
    split
    · exact .operate _ (.fail _ hw)
    · exact .next _ hw
    · exact alike_declared _ hw base _
    · exact alike_declared _ hw base _
  | numericNext base body =>
    unfold instruct
    rw [hw.heap_eq]
    simp only
    split
    · split
      · exact .next _ hw
      · exact alike_turn _ (alike_withHeap hw _) (base + 3) _ body
    · exact Effect.alike_ite (alike_turn _ (alike_withHeap hw _) (base + 3) _ body) (.next _ hw)
    · exact .next _ hw
  | genericStart base =>
    have hdeclared := alike_declareAll (gather f 4 false).2 hw base (gather f 4 false).1
    unfold instruct
    simp only
    rw [hdeclared.1, hdeclared.2.heap_eq]
    split
    · exact .next _ hdeclared.2
    · split
      · exact .operate _ (.fail _ hdeclared.2)
      · exact .next _ hdeclared.2
  | genericCall base count =>
    unfold instruct
    rw [hw.heap_eq]
    exact .enter _ _ _ hw
  | genericNext base count exit =>
    unfold instruct
    simp only
    split
    · exact .next _ hw
    · exact .next _ hw
    · exact alike_declared _ (alike_withHeap hw _) (base + 4) _
  | toBeClosed slot name =>
    unfold instruct
    rw [hw.heap_eq]
    simp only
    split
    · exact .next _ hw
    · split
      · exact .operate _ (.fail _ hw)
      · exact .next _ hw

end Machine

/-! ## Machines -/

/-- Activations that are alike: what waits for a call goes on alike with the same answer. -/
inductive Activation.Alike (ρ : σ → σ → Prop) : Activation σ → Activation σ → Prop
  | script (f : Frame) : Activation.Alike ρ (.script f) (.script f)
  | native (runner : Runner) (guarded : Bool) (handler : Option Value)
    {resume resume' : Answer → World σ → Outcome σ (List Value)}
    (hresume : ∀ answer w w', w.Alike ρ w' → (resume answer w).Alike ρ (resume' answer w')) :
    Activation.Alike ρ (.native ⟨runner, guarded, handler, resume⟩) (.native ⟨runner, guarded, handler, resume'⟩)

/-- Stacks that are alike. -/
inductive Stack.Alike (ρ : σ → σ → Prop) : Stack σ → Stack σ → Prop
  | intro {top top' : List (Activation σ)} (depth frames natives : Nat)
    (h : List.Forall₂ (Activation.Alike ρ) top top') :
    Stack.Alike ρ ⟨top, depth, frames, natives⟩ ⟨top', depth, frames, natives⟩

/-- What is to be done next is alike. -/
inductive Control.Alike (ρ : σ → σ → Prop) : Control σ → Control σ → Prop
  | execute {w w' : World σ} (h : w.Alike ρ w') : Control.Alike ρ (.execute w) (.execute w')
  | call (f : Value) (args : List Value) {w w' : World σ} (h : w.Alike ρ w') :
    Control.Alike ρ (.call f args w) (.call f args w')
  | give (vs : List Value) {w w' : World σ} (h : w.Alike ρ w') : Control.Alike ρ (.give vs w) (.give vs w')
  | look (runner : Runner) {o o' : Outcome σ (List Value)} (h : o.Alike ρ o') :
    Control.Alike ρ (.look runner o) (.look runner o')
  | throw (t : Thrown) {w w' : World σ} (h : w.Alike ρ w') : Control.Alike ρ (.throw t w) (.throw t w')
  | finished (answer : Answer) {w w' : World σ} (h : w.Alike ρ w') :
    Control.Alike ρ (.finished answer w) (.finished answer w')

/-- Machines that are alike. -/
inductive Machine.Alike (ρ : σ → σ → Prop) : Machine σ → Machine σ → Prop
  | intro {control control' : Control σ} {s s' : Stack σ} (hcontrol : control.Alike ρ control')
    (hstack : s.Alike ρ s') : Machine.Alike ρ ⟨control, s⟩ ⟨control', s'⟩

namespace Machine

/-! ## What is read off a stack -/

section Readers

variable {top top' : List (Activation σ)} (h : List.Forall₂ (Activation.Alike ρ) top top')

include h

theorem placeAt_alike (level : Nat) : placeAt top' level = placeAt top level := by
  unfold placeAt
  induction h generalizing level with
  | nil => rfl
  | cons ha hrest ih =>
    cases ha with
    | script f =>
      cases level with
      | zero => rfl
      | succ level => exact ih level
    | native runner guarded handler hresume =>
      cases runner with
      | operation | collector => exact ih level
      | function f =>
        cases level with
        | zero => rfl
        | succ level => exact ih level

theorem calledAs_alike : calledAs top' = calledAs top := by
  cases h with
  | nil => rfl
  | cons ha hrest =>
    cases ha with
    | script f => rfl
    | native runner guarded handler hresume =>
      cases runner with
      | function f => rfl
      | collector => rfl
      | operation =>
        cases hrest with
        | nil => rfl
        | cons hb hrest => cases hb <;> rfl

theorem thrown_alike (runner : Runner) (fault : Fault) : thrown runner top' fault = thrown runner top fault := by
  unfold thrown argumentText
  simp only [placeAt_alike h, calledAs_alike h]

theorem meteredPlace_alike : meteredPlace top' = meteredPlace top := by
  induction h with
  | nil => rfl
  | cons ha hrest ih =>
    cases ha with
    | script f => simp only [meteredPlace, ih]
    | native runner guarded handler hresume =>
      cases runner with
      | operation => exact ih
      | function f => rfl
      | collector => rfl

theorem isFinalizing_alike : isFinalizing top' = isFinalizing top := by
  induction h with
  | nil => rfl
  | cons ha hrest ih =>
    unfold isFinalizing at ih ⊢
    rw [List.any_cons, List.any_cons, ih]
    cases ha with
    | script f => rfl
    | native runner guarded handler hresume => cases runner <;> rfl

theorem notCallable_alike (heap : Heap) (f : Value) : notCallable top' heap f = notCallable top heap f := by
  unfold notCallable
  rw [placeAt_alike h, calledAs_alike h]

theorem heldBy_alike (heap : Heap) : top'.flatMap (heldBy heap) = top.flatMap (heldBy heap) := by
  induction h with
  | nil => rfl
  | cons ha hrest ih =>
    rw [List.flatMap_cons, List.flatMap_cons, ih]
    cases ha <;> rfl

theorem handler_alike : handler? top' = handler? top := by
  induction h with
  | nil => rfl
  | cons ha hrest ih =>
    cases ha with
    | script f => exact ih
    | native runner guarded handler hresume => simp only [handler?, ih]

end Readers

/-! ## Steps -/

theorem alike_ite {c : Prop} [Decidable c] {m₁ m₂ m₁' m₂' : Machine σ} (h₁ : m₁.Alike ρ m₁') (h₂ : m₂.Alike ρ m₂') :
    (if c then m₁ else m₂).Alike ρ (if c then m₁' else m₂') := by
  split
  · exact h₁
  · exact h₂

variable {s s' : Stack σ} {w w' : World σ}

theorem alike_enterScript (hs : s.Alike ρ s') (hw : w.Alike ρ w') (c : Closure) (args : List Value) :
    (enterScript s c args w).Alike ρ (enterScript s' c args w') := by
  obtain ⟨depth, frames, natives, htop⟩ := hs
  have hdeclared := alike_declareAll
    { closure := c, slots := (List.replicate c.proto.slots 0).toArray
      extra := if c.proto.isVararg then args.drop c.proto.params else [] } hw 0 (Frame.exactly c.proto.params args)
  unfold enterScript
  rw [hw.heap_eq, placeAt_alike htop]
  refine alike_ite ⟨.throw _ hw, .intro _ _ _ htop⟩ (alike_ite ⟨.throw _ hw, .intro _ _ _ htop⟩ ?_)
  unfold frameOf
  simp only
  rw [hdeclared.1]
  exact ⟨.execute hdeclared.2, .intro _ _ _ (.cons (.script _) htop)⟩

theorem alike_recount (hs : s.Alike ρ s') (hw : w.Alike ρ w') (args : List Value := []) :
    (recount s w args).Alike ρ (recount s' w' args) := by
  obtain ⟨depth, frames, natives, htop⟩ := hs
  unfold recount
  simp only [heldBy_alike htop]
  exact alike_withHeap hw _

theorem alike_makeRoom (hs : s.Alike ρ s') (hw : w.Alike ρ w') (f : HostFunction) (args : List Value) :
    (makeRoom s f args w).Alike ρ (makeRoom s' f args w') := by
  unfold makeRoom
  rw [hw.heap_eq]
  split
  · split
    · exact hw
    · exact alike_recount hs hw args
  · exact hw

theorem alike_enter {natives : Natives σ} {f : Value} {args : List Value} (hnative : (natives f args).Respects ρ)
    (hs : s.Alike ρ s') (hw : w.Alike ρ w') : (enter natives s f args w).Alike ρ (enter natives s' f args w') := by
  have hlook {w w' : World σ} (hw : w.Alike ρ w') : Machine.Alike ρ ⟨.look (.function f) (natives f args w), s⟩
      ⟨.look (.function f) (natives f args w'), s'⟩ := ⟨.look _ (hnative w w' hw), hs⟩
  unfold enter
  rw [hw.heap_eq]
  split
  · exact alike_enterScript hs hw _ _
  · exact hlook hw
  · exact hlook hw
  · exact hlook (alike_makeRoom hs hw _ args)
  · obtain ⟨depth, frames, count, htop⟩ := hs
    rw [notCallable_alike htop]
    exact alike_ite ⟨.throw _ hw, .intro _ _ _ htop⟩ ⟨.call _ _ hw, .intro _ _ _ htop⟩

theorem alike_follow (hs : s.Alike ρ s') {e e' : Effect σ} (he : e.Alike ρ e') :
    (follow s e).Alike ρ (follow s' e') := by
  obtain ⟨depth, frames, natives, htop⟩ := hs
  cases he with
  | next f h => exact ⟨.execute h, .intro _ _ _ (.cons (.script _) htop)⟩
  | operate f h => exact ⟨.look _ h, .intro _ _ _ (.cons (.script _) htop)⟩
  | enter f callee args h => exact ⟨.call _ _ h, .intro _ _ _ (.cons (.script _) htop)⟩
  | replace f callee args h =>
    unfold follow
    simp only
    split
    · exact ⟨.call _ _ h, .intro _ _ _ htop⟩
    · exact ⟨.call _ _ h, .intro _ _ _ (.cons (.script _) htop)⟩
  | leave f vs h =>
    unfold follow
    simp only
    rw [h.heap_eq]
    split
    · exact ⟨.give _ h, .intro _ _ _ htop⟩
    · exact ⟨.look _ (Native.respects_lift _ _ _ h), .intro _ _ _ htop⟩

theorem alike_tickMeter {top top' : List (Activation σ)} (htop : List.Forall₂ (Activation.Alike ρ) top top')
    (hw : w.Alike ρ w') : (tickMeter top' w').1 = (tickMeter top w).1 ∧
      (tickMeter top w).2.Alike ρ (tickMeter top' w').2 := by
  obtain ⟨heap, meter, h⟩ := hw
  cases meter with
  | none => exact ⟨rfl, .intro heap _ h⟩
  | some m =>
    unfold tickMeter
    simp only [isFinalizing_alike htop]
    split
    · split <;> exact ⟨rfl, .intro heap _ h⟩
    · exact ⟨rfl, .intro heap _ h⟩

theorem isFull_alike (hw : w.Alike ρ w') : isFull w' = isFull w := by
  unfold isFull
  rw [hw.heap_eq]

/-- An allowance that is used up ends alike. -/
theorem alike_meterError {top top' : List (Activation σ)} (htop : List.Forall₂ (Activation.Alike ρ) top top')
    (hw : w.Alike ρ w') : (meterError top' w').1 = (meterError top w).1 ∧
      (meterError top w).2.Alike ρ (meterError top' w').2 := by
  obtain ⟨heap, meter, h⟩ := hw
  unfold meterError
  rw [meteredPlace_alike htop]
  exact ⟨rfl, .intro _ meter h⟩

theorem alike_execute (hs : s.Alike ρ s') (hw : w.Alike ρ w') : (execute s w).Alike ρ (execute s' w') := by
  unfold execute
  rw [isFull_alike hw]
  split
  · simp only
    rw [isFull_alike (alike_recount hs hw)]
    exact alike_ite ⟨.throw _ (alike_recount hs hw), hs⟩ ⟨.execute (alike_recount hs hw), hs⟩
  · obtain ⟨depth, frames, natives, htop⟩ := hs
    cases htop with
    | nil => exact ⟨.give _ hw, .intro _ _ _ .nil⟩
    | cons ha hrest =>
      cases ha with
      | native runner guarded handler hresume =>
        exact ⟨.give _ hw, .intro _ _ _ (.cons (.native runner guarded handler hresume) hrest)⟩
      | script f =>
        simp only
        split
        · exact alike_follow (.intro _ _ _ hrest) (.leave f [] hw)
        · next i hi =>
          have hscript := hrest.cons (Activation.Alike.script (ρ := ρ) { f with pc := f.pc + 1 })
          obtain ⟨hsame, hcounted⟩ := alike_tickMeter hrest hw
          generalize tickMeter _ w = counted, tickMeter _ w' = counted' at hsame hcounted ⊢
          obtain ⟨stops, w⟩ := counted
          obtain ⟨stops', w'⟩ := counted'
          cases hsame
          cases stops with
          | true =>
            obtain ⟨hthrown, hafter⟩ := alike_meterError hscript hcounted
            simp only
            rw [hthrown]
            exact ⟨.throw _ hafter, .intro _ _ _ hscript⟩
          | false => exact alike_follow (.intro _ _ _ hrest) (alike_instruct _ hcounted i)

theorem alike_interrupt (hs : s.Alike ρ s') (hw : w.Alike ρ w') (f : Frame) (id : Nat) :
    (interrupt s f id w).Alike ρ (interrupt s' f id w') := by
  have hunmarked := alike_withHeap hw (·.unmark id)
  have hfinalize := Native.respects_lift (finalize id) _ _ hunmarked
  obtain ⟨depth, frames, natives, htop⟩ := hs
  exact alike_ite ⟨.execute hunmarked, .intro _ _ _ (.cons (.script f) htop)⟩
    ⟨.look _ hfinalize, .intro _ _ _ (.cons (.script _) htop)⟩

theorem alike_proceed (collector : Collector) (hs : s.Alike ρ s') (hw : w.Alike ρ w') :
    (proceed collector s w).Alike ρ (proceed collector s' w') := by
  have hexecute := alike_execute hs hw
  obtain ⟨depth, frames, natives, htop⟩ := hs
  cases htop with
  | nil => exact hexecute
  | cons ha hrest =>
    cases ha with
    | native runner guarded handler hresume => exact hexecute
    | script f =>
      unfold proceed letGo?
      simp only [hw.heap_eq, isFinalizing_alike hrest]
      split
      · exact alike_interrupt (.intro _ _ _ hrest) hw f _
      · exact hexecute

theorem alike_give (hs : s.Alike ρ s') (hw : w.Alike ρ w') (vs : List Value) :
    (give s vs w).Alike ρ (give s' vs w') := by
  obtain ⟨depth, frames, natives, htop⟩ := hs
  cases htop with
  | nil => exact ⟨.finished _ hw, .intro _ _ _ .nil⟩
  | cons ha hrest =>
    cases ha with
    | script f => exact ⟨.execute hw, .intro _ _ _ (.cons (.script _) hrest)⟩
    | native runner guarded handler hresume => exact ⟨.look _ (hresume _ _ _ hw), .intro _ _ _ hrest⟩

theorem alike_look (hs : s.Alike ρ s') (runner : Runner) {o o' : Outcome σ (List Value)} (ho : o.Alike ρ o') :
    (look s runner o).Alike ρ (look s' runner o') := by
  obtain ⟨depth, frames, natives, htop⟩ := hs
  cases ho with
  | done vs hw => exact ⟨.give _ hw, .intro _ _ _ htop⟩
  | fail fault hw =>
    unfold look
    simp only
    rw [thrown_alike htop]
    exact ⟨.throw _ hw, .intro _ _ _ htop⟩
  | ask query hresume hw =>
    have hwaits : ∀ guarded handler, _ := fun guarded handler =>
      List.Forall₂.cons (Activation.Alike.native runner guarded handler hresume) htop
    unfold look
    simp only
    rw [thrown_alike htop]
    refine alike_ite ⟨.throw _ hw, .intro _ _ _ (hwaits false none)⟩ ?_
    cases query with
    | call f args => exact ⟨.call _ _ hw, .intro _ _ _ (hwaits false none)⟩
    | guarded f args handler => exact ⟨.call _ _ hw, .intro _ _ _ (hwaits true handler)⟩

theorem alike_unwind (hs : s.Alike ρ s') (hw : w.Alike ρ w') (t : Thrown) :
    (unwind s t w).Alike ρ (unwind s' t w') := by
  obtain ⟨depth, frames, natives, htop⟩ := hs
  cases htop with
  | nil => exact ⟨.finished _ hw, .intro _ _ _ .nil⟩
  | cons ha hrest =>
    cases ha with
    | script f =>
      unfold unwind
      simp only
      rw [hw.heap_eq]
      split
      · exact ⟨.throw _ hw, .intro _ _ _ hrest⟩
      · exact ⟨.look _ (Native.respects_lift _ _ _ hw), .intro _ _ _ hrest⟩
    | native runner guarded handler hresume =>
      exact alike_ite ⟨.look _ (hresume _ _ _ hw), .intro _ _ _ hrest⟩ ⟨.throw _ hw, .intro _ _ _ hrest⟩

theorem respects_handledError (answer : Answer) (hw : w.Alike ρ w') :
    (handledError answer w).Alike ρ (handledError answer w') := by
  cases answer with
  | values vs => exact .fail _ hw
  | raised t => exact .fail _ hw

theorem alike_raise (hs : s.Alike ρ s') (hw : w.Alike ρ w') (t : Thrown) :
    (raise s t w).Alike ρ (raise s' t w') := by
  unfold raise
  refine alike_ite (alike_unwind hs hw t) ?_
  obtain @⟨top, top', depth, frames, natives, htop⟩ := hs
  rw [handler_alike htop]
  cases handler? top with
  | none => exact alike_unwind (.intro _ _ _ htop) hw _
  | some handler =>
    refine alike_ite ⟨.throw _ hw, .intro _ _ _ htop⟩ ⟨.call _ _ hw, .intro _ _ _ (.cons ?_ htop)⟩
    exact .native _ _ _ fun answer _ _ => respects_handledError answer

/-! ## Runs -/

variable {natives : Natives σ} (hnatives : ∀ f args, (natives f args).Respects ρ) {m m' : Machine σ}

include hnatives

theorem alike_step (h : m.Alike ρ m') : (step natives m).Alike ρ (step natives m') := by
  obtain ⟨hcontrol, hstack⟩ := h
  cases hcontrol with
  | execute hw => exact alike_proceed natives.collector hstack hw
  | call f args hw => exact alike_enter (hnatives f args) hstack hw
  | give vs hw => exact alike_give hstack hw vs
  | look runner ho => exact alike_look hstack runner ho
  | throw t hw => exact alike_raise hstack hw t
  | finished answer hw => exact ⟨.finished answer hw, hstack⟩

/-- Machines that are alike stay so, however long they run. -/
theorem alike_run (fuel : Nat) (h : m.Alike ρ m') : (run natives fuel m).Alike ρ (run natives fuel m') := by
  induction fuel generalizing m m' with
  | zero => exact h
  | succ fuel ih =>
    have hstep := ih (alike_step hnatives h)
    obtain ⟨hcontrol, hstack⟩ := h
    unfold run
    cases hcontrol with
    | finished answer hw => exact ⟨.finished answer hw, hstack⟩
    | _ => exact hstep

omit hnatives in
theorem Alike.answer_eq (h : m.Alike ρ m') : m'.answer? = m.answer? := by
  obtain ⟨hcontrol, hstack⟩ := h
  cases hcontrol <;> rfl

omit hnatives in
theorem Alike.world (h : m.Alike ρ m') : m.world.Alike ρ m'.world := by
  obtain ⟨hcontrol, hstack⟩ := h
  cases hcontrol with
  | look runner ho =>
    cases ho with
    | done vs hw => exact hw
    | fail fault hw => exact hw
    | ask query hresume hw => exact hw
  | execute hw | call f args hw | give vs hw | throw t hw | finished answer hw => exact hw

omit hnatives in
theorem alike_ofCall (f : Value) (args : List Value) (hw : w.Alike ρ w') :
    (ofCall f args w).Alike ρ (ofCall f args w') :=
  ⟨.call _ _ hw, .intro _ _ _ .nil⟩

omit hnatives in
theorem alike_ofNative {n : Native σ (List Value)} (hn : n.Respects ρ) (hw : w.Alike ρ w') :
    (ofNative n w).Alike ρ (ofNative n w') := ⟨.look _ (hn _ _ hw), .intro _ _ _ .nil⟩

omit hnatives in
theorem alike_ofClose (collector : Collector) (hw : w.Alike ρ w') :
    (ofClose collector w).Alike ρ (ofClose collector w') :=
  ⟨.look _ (Native.respects_lift _ _ _ hw), .intro _ _ _ .nil⟩

end Machine

end ScriptWarden.Lua
