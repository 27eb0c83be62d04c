import ScriptWarden.Proofs.Lua.Guard
import ScriptWarden.Proofs.Lua.Library.Install
set_option autoImplicit false

/-!
# Lua: runs keep the guard

Whatever a machine does next, the values it does it with are public, and its stack is made of frames of scripts, of
frames of the guard, and of native functions that keep the guard (`Machine.Guarded`).  A step leads to such a state
again, unless the guard is at work on the global table while a name it relies on was changed (`guarded_step`).
-/

namespace ScriptWarden.Lua

variable {σ : Type} {ward : Ward σ} {shared shared' : Nat → Prop}

namespace Machine

/-! ## Stacks -/

/-- What waits for a call keeps the guard, whatever becomes of the call. -/
structure Pending.Keeps (ward : Ward σ) (p : Pending σ) : Prop where
  handler : IsPublic p.handler
  resume : ∀ answer, IsPublic answer → Native.Keeps ward (p.resume answer)

/-- The handling of an error: whatever becomes of it, an error follows. -/
structure Pending.Fails (p : Pending σ) : Prop where
  unguarded : p.guarded = false
  resume : ∀ answer w, IsPublic answer →
    ∃ fault, p.resume answer w = .fail fault w ∧ IsPublic fault

/-- Activations that wait for the one above them.  A frame that is only left by errors may stand below the handling
of one, whatever it is a frame of. -/
inductive Chain (ward : Ward σ) (shared : Nat → Prop) (h : Heap) : List (Activation σ) → Prop
  | nil : Chain ward shared h []
  | script {f : Frame} {rest : List (Activation σ)} (isPublic : f.Public shared)
    (below : Chain ward shared h rest) : Chain ward shared h (.script f :: rest)
  | guard {f : Frame} {rest : List (Activation σ)} {a b : Nat} (waits : GuardWaits ward.guard h a b f)
    (ha : h.Own shared a) (hb : h.Own shared b) (below : Chain ward shared h rest) :
    Chain ward shared h (.script f :: rest)
  | native {p : Pending σ} {rest : List (Activation σ)} (keeps : Pending.Keeps ward p)
    (below : Chain ward shared h rest) : Chain ward shared h (.native p :: rest)
  | barrier {p : Pending σ} {f : Frame} {rest : List (Activation σ)} (fails : Pending.Fails p)
    (toClose : f.toClose = []) (below : Chain ward shared h rest) :
    Chain ward shared h (.native p :: .script f :: rest)

/-- Activations that an error leaves. -/
inductive Falling (ward : Ward σ) (shared : Nat → Prop) (h : Heap) (top : List (Activation σ)) : Prop
  | chain (waits : Chain ward shared h top)
  | frame {f : Frame} {rest : List (Activation σ)} (eq : top = .script f :: rest)
    (toClose : f.toClose = []) (below : Chain ward shared h rest)

variable {h h' : Heap} {top rest : List (Activation σ)}

theorem Chain.grows (hchain : Chain ward shared h top) (hgrows : Heap.Grows shared shared' h h') :
    Chain ward shared' h' top := by
  induction hchain with
  | nil => exact .nil
  | script isPublic below ih => exact .script (isPublic.mono hgrows.more) ih
  | guard waits ha hb below ih =>
    obtain ⟨ha', hcella⟩ := ha.grows hgrows
    obtain ⟨hb', hcellb⟩ := hb.grows hgrows
    exact .guard (waits.congr hcella hcellb hgrows.globals) ha' hb' ih
  | native keeps below ih => exact .native keeps ih
  | barrier fails toClose below ih => exact .barrier fails toClose ih

theorem Falling.grows (hfalling : Falling ward shared h top) (hgrows : Heap.Grows shared shared' h h') :
    Falling ward shared' h' top := by
  cases hfalling with
  | chain waits => exact .chain (waits.grows hgrows)
  | frame eq toClose below => exact .frame eq toClose (below.grows hgrows)

/-- The handler of the nearest guard is public. -/
theorem Chain.handler (hchain : Chain ward shared h top) : IsPublic (handler? top) := by
  induction hchain with
  | nil => exact isPublic_none
  | script isPublic below ih => exact ih
  | guard waits ha hb below ih => exact ih
  | native keeps below ih =>
    unfold handler?
    split
    · exact keeps.handler
    · exact ih
  | barrier fails toClose below ih =>
    unfold handler?
    rw [fails.unguarded]
    exact ih

theorem Falling.handler (hfalling : Falling ward shared h top) : IsPublic (handler? top) := by
  cases hfalling with
  | chain waits => exact waits.handler
  | frame eq toClose below =>
    subst eq
    exact below.handler

/-! ## States -/

/-- A frame that has something to do, above activations that wait for it. -/
inductive Running (ward : Ward σ) (shared : Nat → Prop) (h : Heap) (top : List (Activation σ)) : Prop
  | script {f : Frame} {rest : List (Activation σ)} (eq : top = .script f :: rest)
    (isPublic : f.Public shared) (below : Chain ward shared h rest)
  | guard {f : Frame} {rest : List (Activation σ)} {a b : Nat} (eq : top = .script f :: rest)
    (ready : GuardReady ward.guard h a b f) (ha : h.Own shared a) (hb : h.Own shared b)
    (below : Chain ward shared h rest)

/-- What is to be done next keeps the guard.  The function behind the guard is only called with other tables than
that of globals, and a frame of the guard that called `error` is only left by that error. -/
inductive Control.Guarded (ward : Ward σ) (top : List (Activation σ)) : Control σ → Prop
  | execute {shared : Nat → Prop} {w : World σ} (guarded : w.Guarded ward shared)
    (running : Running ward shared w.heap top) : Control.Guarded ward top (.execute w)
  | call {shared : Nat → Prop} {f : Value} {args : List Value} {w : World σ}
    (guarded : w.Guarded ward shared) (chain : Chain ward shared w.heap top) (isPublic : IsPublic f)
    (arguments : IsPublic args) : Control.Guarded ward top (.call f args w)
  | secret {shared : Nat → Prop} {t mt : Value} {w : World σ} (guarded : w.Guarded ward shared)
    (chain : Chain ward shared w.heap top) (other : t ≠ .table w.heap.globals) :
    Control.Guarded ward top (.call (.builtin .setmetatable) [t, mt] w)
  | error {shared : Nat → Prop} {args : List Value} {w : World σ} (guarded : w.Guarded ward shared)
    (falling : Falling ward shared w.heap top) (arguments : IsPublic args) :
    Control.Guarded ward top (.call (.builtin .error) args w)
  | give {shared : Nat → Prop} {vs : List Value} {w : World σ} (guarded : w.Guarded ward shared)
    (chain : Chain ward shared w.heap top) (isPublic : IsPublic vs) :
    Control.Guarded ward top (.give vs w)
  | look {shared : Nat → Prop} {runner : Runner} {o : Outcome σ (List Value)} {w : World σ}
    (guarded : w.Guarded ward shared) (chain : Chain ward shared w.heap top)
    (keeps : o.Keeps ward shared w) : Control.Guarded ward top (.look runner o)
  | fail {shared : Nat → Prop} {runner : Runner} {fault : Fault} {w : World σ}
    (guarded : w.Guarded ward shared) (falling : Falling ward shared w.heap top)
    (isPublic : IsPublic fault) : Control.Guarded ward top (.look runner (.fail fault w))
  | throw {shared : Nat → Prop} {t : Thrown} {w : World σ} (guarded : w.Guarded ward shared)
    (falling : Falling ward shared w.heap top) (isPublic : IsPublic t) :
    Control.Guarded ward top (.throw t w)
  | finished {shared : Nat → Prop} {answer : Answer} {w : World σ} (guarded : w.Guarded ward shared)
    (isPublic : IsPublic answer) : Control.Guarded ward top (.finished answer w)

/-- A machine that keeps the guard. -/
def Guarded (ward : Ward σ) (m : Machine σ) : Prop := Control.Guarded ward m.stack.top m.control

/-- The guard stands in the world of such a machine. -/
theorem Guarded.world {m : Machine σ} (hm : m.Guarded ward) :
    ∃ shared, m.world.Guarded ward shared := by
  obtain ⟨control, stack⟩ := m
  cases hm with
  | look guarded chain keeps =>
    next o w =>
    cases o with
    | done vs w' =>
      obtain ⟨shared', -, hw'⟩ := keeps.1
      exact ⟨shared', hw'⟩
    | fail fault w' =>
      obtain ⟨shared', -, hw'⟩ := keeps.1
      exact ⟨shared', hw'⟩
    | ask q resume w' =>
      obtain ⟨shared', -, hw'⟩ := keeps.1
      exact ⟨shared', hw'⟩
  | _ => exact ⟨_, ‹_›⟩

/-! ## Giving, looking, throwing -/

variable {w : World σ} {s : Stack σ}

theorem guarded_give (hw : w.Guarded ward shared) (hchain : Chain ward shared w.heap s.top)
    {vs : List Value} (hvs : IsPublic vs) : (give s vs w).Guarded ward := by
  obtain ⟨top, depth, frames, natives⟩ := s
  cases hchain with
  | nil => exact .finished hw hvs
  | script isPublic below => exact .execute hw (.script rfl (isPublic.take hvs) below)
  | guard waits ha hb below => exact .execute hw (.guard rfl (waits.take hvs) ha hb below)
  | native keeps below => exact .look hw below (keeps.resume (.values vs) hvs shared w hw)
  | barrier fails toClose below =>
    next p f rest =>
    obtain ⟨fault, heq, hfault⟩ := fails.resume (.values vs) w hvs
    change Control.Guarded ward _ (.look p.runner (p.resume (.values vs) w))
    rw [heq]
    exact .fail hw (.frame rfl toClose below) hfault

theorem isPublic_ofFault (runner : Runner) (stack : List (Activation σ)) {fault : Fault}
    (hfault : IsPublic fault) : IsPublic (thrown runner stack fault) := by
  cases fault with
  | value v => exact hfault
  | here message => cases runner <;> trivial
  | above level message => trivial
  | argument index message => trivial
  | memory => trivial
  | rethrow t => exact hfault

theorem guarded_look (hchain : Chain ward shared w.heap s.top)
    (runner : Runner) {o : Outcome σ (List Value)} (ho : o.Keeps ward shared w) :
    (look s runner o).Guarded ward := by
  cases o with
  | done vs w' =>
    obtain ⟨⟨shared', hgrows, hw'⟩, hvs⟩ := ho
    exact .give hw' (hchain.grows hgrows) hvs
  | fail fault w' =>
    obtain ⟨⟨shared', hgrows, hw'⟩, hfault⟩ := ho
    exact .throw hw' (.chain (hchain.grows hgrows)) (isPublic_ofFault runner s.top hfault)
  | ask q resume w' =>
    obtain ⟨⟨shared', hgrows, hw'⟩, hq, hresume⟩ := ho
    have hbelow := hchain.grows hgrows
    have hkeeps : ∀ answer, IsPublic answer → Native.Keeps ward (resume answer) :=
      fun answer hanswer shared'' w'' hw'' => hresume shared'' answer w'' hw'' hanswer
    unfold look
    simp only
    split
    · exact .throw hw' (.chain (.native ⟨isPublic_none, hkeeps⟩ hbelow)) (isPublic_ofFault runner s.top
        (isPublic_here _))
    · cases q with
      | call f args => exact .call hw' (.native ⟨isPublic_none, hkeeps⟩ hbelow) hq.1 hq.2
      | guarded f args handler => exact .call hw' (.native ⟨hq.2.2, hkeeps⟩ hbelow) hq.1 hq.2.1

/-- The handling of an error ends with an error. -/
theorem fails_handledError {answer : Answer} (hanswer : IsPublic answer) (w : World σ) :
    ∃ fault, handledError answer w = .fail fault w ∧ IsPublic fault := by
  cases answer with
  | values vs => exact ⟨_, rfl, IsPublic.headD hanswer⟩
  | raised t => exact ⟨_, rfl, hanswer⟩

theorem keeps_handledError {answer : Answer} (hanswer : IsPublic answer) :
    Native.Keeps ward (handledError answer : Native σ (List Value)) := by
  intro shared w hw
  obtain ⟨fault, heq, hfault⟩ := fails_handledError hanswer w
  rw [heq]
  exact ⟨hw.later, hfault⟩

theorem isPublic_closing {f : Frame} (hf : f.Public shared) (hw : w.Guarded ward shared) :
    IsPublic (closing f w.heap) := by
  intro v hv
  obtain ⟨slot, _, rfl⟩ := List.mem_map.1 hv
  exact hw.1.public_cell (hf.cellOf hw.1.unused slot)

theorem guarded_unwind (hw : w.Guarded ward shared) (hfalling : Falling ward shared w.heap s.top)
    {t : Thrown} (ht : IsPublic t) : (unwind s t w).Guarded ward := by
  obtain ⟨top, depth, frames, natives⟩ := s
  have hleave : ∀ {f : Frame} {rest : List (Activation σ)}, f.toClose = [] →
      Chain ward shared w.heap rest →
      (unwind ⟨.script f :: rest, depth, frames, natives⟩ t w).Guarded ward := by
    intro f rest htoClose hbelow
    have hclosing : closing f w.heap = [] := by rw [closing, htoClose, List.map_nil]
    unfold unwind
    simp only [hclosing]
    exact .throw hw (.chain hbelow) ht
  cases hfalling with
  | frame eq toClose below =>
    cases eq
    exact hleave toClose below
  | chain waits =>
    cases waits with
    | nil => exact .finished hw ht
    | guard waits ha hb below => exact hleave waits.toClose below
    | script isPublic below =>
      unfold unwind
      simp only
      split
      · exact .throw hw (.chain below) ht
      · exact .look hw below ((keeps_closeAll (isPublic_closing isPublic hw) ((isPublic_some t).2 ht)
          isPublic_emptyList).lift shared w hw)
    | native keeps below =>
      unfold unwind
      simp only
      split
      · exact .look hw below (keeps.resume (.raised { t with handled := false }) ht shared w hw)
      · exact .throw hw (.chain below) ht
    | barrier fails toClose below =>
      unfold unwind
      simp only [fails.unguarded]
      exact .throw hw (.frame rfl toClose below) ht

theorem guarded_raise (hw : w.Guarded ward shared) (hfalling : Falling ward shared w.heap s.top)
    {t : Thrown} (ht : IsPublic t) : (raise s t w).Guarded ward := by
  have hhandler := hfalling.handler
  unfold raise
  split
  · exact guarded_unwind hw hfalling ht
  · split
    · exact guarded_unwind hw hfalling ht
    · next handler heq =>
      rw [heq] at hhandler
      split
      · exact .throw hw hfalling trivial
      · have hfails : Pending.Fails (σ := σ) { runner := .function .nil, resume := handledError } :=
          ⟨rfl, fun answer w hanswer => fails_handledError hanswer w⟩
        have hkeeps : Pending.Keeps ward { runner := .function .nil, resume := handledError } :=
          ⟨isPublic_none, fun answer hanswer => keeps_handledError hanswer⟩
        have hchain : Chain ward shared w.heap
            (.native { runner := .function .nil, resume := handledError } :: s.top) := by
          cases hfalling with
          | chain waits => exact .native hkeeps waits
          | frame eq toClose below => exact eq ▸ .barrier hfails toClose below
        exact .call hw hchain ((isPublic_some handler).1 hhandler) (by simpa using ht)

/-! ## Calls -/

/-- What the native functions do: the public ones keep the guard, and the two that the guard calls are those of the
library. -/
structure Confined (ward : Ward σ) (natives : Natives σ) : Prop where
  guard : ward.guard.IsGuard
  isPublic : ∀ f args, IsPublic f → IsPublic args → (natives f args).Keeps ward
  secret : ∀ args, natives (.builtin .setmetatable) args = (Library.setMetatable args).lift
  error : ∀ args, natives (.builtin .error) args = (Library.raiseError args).lift

theorem guarded_ite {c : Prop} [Decidable c] {m m' : Machine σ} (h : m.Guarded ward)
    (h' : m'.Guarded ward) : (if c then m else m').Guarded ward := by
  split
  · exact h
  · exact h'

theorem guarded_enterPublic (hw : w.Guarded ward shared) (hchain : Chain ward shared w.heap s.top)
    {c : Closure} (hc : c.Public shared) {args : List Value} (hargs : IsPublic args) :
    (enterScript s c args w).Guarded ward := by
  have hthrow : ∀ t : Thrown, IsPublic t → Guarded ward ⟨.throw t w, s⟩ := fun _ ht =>
    .throw hw (.chain hchain) ht
  refine guarded_ite (hthrow _ trivial) (guarded_ite (hthrow _ trivial) ?_)
  have hbare : Frame.Public shared
      { closure := c, slots := (List.replicate c.proto.slots 0).toArray
        extra := if c.proto.isVararg then args.drop c.proto.params else [] } := by
    refine ⟨hc, fun id hid => ?_, isPublic_emptyList, isPublic_emptyList, ?_⟩
    · rw [List.mem_toArray, List.mem_replicate] at hid
      exact hid.2 ▸ hw.1.unused
    · simp only
      split
      · exact hargs.sublist (List.drop_sublist _ _)
      · exact isPublic_emptyList
  obtain ⟨shared', hgrows, hw', hf⟩ :=
    Frame.Later.declareAll hw hbare 0 (Frame.Public.exactly hargs c.proto.params)
  exact .execute hw' (.script rfl hf (hchain.grows hgrows))

/-- The guard begins with its arguments in two new variables. -/
theorem frameOf_guard {c : Closure} (hc : c.IsGuard) {args : List Value} (hargs : IsPublic args)
    (w : World σ) : ∃ x y, IsPublic x ∧ IsPublic y ∧
      frameOf c args w =
        (guardFrame c w.heap.cells.size (w.heap.newCell x).2.cells.size 0 [] [] (.exactly 0),
          ⟨((w.heap.newCell x).2.newCell y).2, w.host, w.meter⟩) := by
  have hexactly := Frame.Public.exactly hargs 2
  obtain ⟨x, y, heq⟩ : ∃ x y, Frame.exactly 2 args = [x, y] := by
    match args with
    | [] => exact ⟨_, _, rfl⟩
    | [x] => exact ⟨_, _, rfl⟩
    | x :: y :: rest => exact ⟨_, _, rfl⟩
  rw [heq] at hexactly
  refine ⟨x, y, (isPublic_cons _ _).1 hexactly |>.1, ?_, ?_⟩
  · exact ((isPublic_cons _ _).1 ((isPublic_cons _ _).1 hexactly).2).1
  · unfold frameOf
    simp only [hc.proto]
    change declareAll _ w 0 (Frame.exactly 2 args) = _
    rw [heq]
    rfl

theorem guarded_enterGuard (hw : w.Guarded ward shared) (hchain : Chain ward shared w.heap s.top)
    (hguard : ward.guard.IsGuard) {args : List Value} (hargs : IsPublic args) :
    (enterScript s ward.guard args w).Guarded ward := by
  have hthrow : ∀ t : Thrown, IsPublic t → Guarded ward ⟨.throw t w, s⟩ := fun _ ht =>
    .throw hw (.chain hchain) ht
  refine guarded_ite (hthrow _ trivial) (guarded_ite (hthrow _ trivial) ?_)
  obtain ⟨x, y, hx, hy, heq⟩ := frameOf_guard hguard hargs w
  rw [heq]
  have hfirst := hw.1.newCell_apart hx
  have hboth := hfirst.newCell_apart hy
  have hgrows : Heap.Grows shared shared w.heap ((w.heap.newCell x).2.newCell y).2 :=
    (Heap.Guarded.grows_apart w.heap x).trans (Heap.Guarded.grows_apart (w.heap.newCell x).2 y)
  have hroom : ∀ (h : Heap) (v : Value), h.cells.size < (h.newCell v).2.cells.size := fun h v =>
    Nat.lt_of_lt_of_eq (Nat.lt_succ_self _) (Array.size_push v).symm
  have hnew := hroom w.heap x
  have hnew' := hroom (w.heap.newCell x).2 y
  refine .execute ⟨hboth, hw.2⟩ (.guard rfl (.start _) ?_ ?_ (hchain.grows hgrows))
  · exact ⟨hw.1.kept, Nat.lt_trans hnew hnew', fun hid => Nat.lt_irrefl _ (hw.1.bound _ hid)⟩
  · exact ⟨hfirst.kept, hnew', fun hid => Nat.lt_irrefl _ (hfirst.bound _ hid)⟩

theorem guarded_makeRoom (hw : w.Guarded ward shared) (f : HostFunction) (args : List Value) :
    (makeRoom s f args w).Guarded ward shared ∧
      Heap.Grows shared shared w.heap (makeRoom s f args w).heap := by
  unfold makeRoom
  split
  · split
    · exact ⟨hw, .refl shared w.heap⟩
    · exact ⟨⟨hw.1.of_eq rfl rfl rfl rfl rfl, hw.2⟩, .of_cells rfl rfl⟩
  · exact ⟨hw, .refl shared w.heap⟩

theorem guarded_enter {natives : Natives σ} (hnatives : Confined ward natives)
    (hw : w.Guarded ward shared) (hchain : Chain ward shared w.heap s.top) {f : Value}
    (hf : IsPublic f) {args : List Value} (hargs : IsPublic args) :
    (enter natives s f args w).Guarded ward := by
  have hnative := hnatives.isPublic f args hf hargs shared w hw
  unfold enter
  split
  · next id =>
    obtain heq | hc := hw.1.closures id hf
    · rw [heq]
      exact guarded_enterGuard hw hchain hnatives.guard hargs
    · exact guarded_enterPublic hw hchain hc hargs
  · exact .look hw hchain hnative
  · exact .look hw hchain hnative
  · next g =>
    obtain ⟨hroom, hgrows⟩ := guarded_makeRoom (s := s) hw g args
    exact .look hroom (hchain.grows hgrows) (hnatives.isPublic _ args hf hargs shared _ hroom)
  · simp only
    split
    · exact .throw hw (.chain hchain) trivial
    · exact .call hw hchain (hw.1.public_metafield _ _) ((isPublic_cons _ _).2 ⟨hf, hargs⟩)

theorem guarded_enterSecret {natives : Natives σ} (hnatives : Confined ward natives)
    (hw : w.Guarded ward shared) (hchain : Chain ward shared w.heap s.top) {t mt : Value}
    (hother : t ≠ .table w.heap.globals) :
    (enter natives s (.builtin .setmetatable) [t, mt] w).Guarded ward := by
  have hkeeps : (Library.setMetatable [t, mt] ⟨w.heap, (), none⟩).Keeps ward.bare shared
      ⟨w.heap, (), none⟩ := Library.keeps_setMetatable ⟨hw.1, trivial⟩ hother
  unfold enter
  simp only [hnatives.secret]
  exact .look hw hchain (hkeeps.lift hw.2)

/-- The function that raises errors never comes back. -/
theorem fails_raiseError {args : List Value} (hargs : IsPublic args) (w : World σ) :
    ∃ fault, (Library.raiseError args).lift w = .fail fault w ∧ IsPublic fault := by
  have hraise : ∀ level : Int64, ∃ fault,
      (Library.raiseAt (Library.arg args 1) level : Native Unit (List Value)).lift w = .fail fault w ∧
        IsPublic fault := by
    intro level
    have hv := Library.public_arg hargs 1
    unfold Library.raiseAt
    split
    · next v s heq =>
      by_cases hlevel : 0 < level.toInt
      · rw [if_pos hlevel]
        exact ⟨_, rfl, isPublic_above _ _⟩
      · rw [if_neg hlevel]
        exact ⟨_, rfl, hv⟩
    · exact ⟨_, rfl, hv⟩
  unfold Library.raiseError Library.optInt
  split
  · exact hraise 1
  · unfold Library.intArg
    simp only
    split
    · exact ⟨_, rfl, isPublic_argument _ _⟩
    · split
      · exact hraise _
      · exact ⟨_, rfl, isPublic_argument _ _⟩

theorem guarded_enterError {natives : Natives σ} (hnatives : Confined ward natives)
    (hw : w.Guarded ward shared) (hfalling : Falling ward shared w.heap s.top) {args : List Value}
    (hargs : IsPublic args) : (enter natives s (.builtin .error) args w).Guarded ward := by
  obtain ⟨fault, heq, hfault⟩ := fails_raiseError hargs w
  unfold enter
  simp only [hnatives.error, heq]
  exact .fail hw hfalling hfault

/-! ## Frames of scripts -/

theorem guarded_follow (hchain : Chain ward shared w.heap s.top) {e : Effect σ}
    (he : e.Keeps ward shared w) : (follow s e).Guarded ward := by
  cases e with
  | next f w' =>
    obtain ⟨shared', hgrows, hw', hf⟩ := he
    exact .execute hw' (.script rfl hf (hchain.grows hgrows))
  | operate f o =>
    obtain ⟨shared', w', hgrows, hw', hf, ho⟩ := he
    exact .look hw' (.script hf (hchain.grows hgrows)) ho
  | enter f callee args w' =>
    obtain ⟨⟨shared', hgrows, hw', hf⟩, hcallee, hargs⟩ := he
    exact .call hw' (.script hf (hchain.grows hgrows)) hcallee hargs
  | replace f callee args w' =>
    obtain ⟨⟨shared', hgrows, hw', hf⟩, hcallee, hargs⟩ := he
    have hbelow := hchain.grows hgrows
    unfold follow
    simp only
    split
    · exact .call hw' hbelow hcallee hargs
    · exact .call hw' (.script (hf.withWant _) hbelow) hcallee hargs
  | leave f vs w' =>
    obtain ⟨⟨shared', hgrows, hw', hf⟩, hvs⟩ := he
    have hbelow := hchain.grows hgrows
    have hclosing := isPublic_closing hf hw'
    unfold follow
    simp only
    split
    · exact .give hw' hbelow hvs
    · exact .look hw' hbelow ((keeps_closeAll hclosing isPublic_none hvs).lift shared' w' hw')

/-! ## Frames of the guard -/

section Guard

variable {a b : Nat} {want : Want}

theorem isNil_eq {v : Value} (h : v.isNil = true) : v = .nil := by
  cases v with
  | nil => rfl
  | _ => cases h

/-- Reading a table without a metatable asks nobody. -/
theorem index_plain {id : Nat} (hmeta : (w.heap.table id).metatable = none) (key : Value)
    (origin : Origin) :
    (Access.index (.table id) key origin).lift w = .done ((w.heap.table id).get key) w := by
  have hplain : (Access.index (.table id) key origin : Native Unit Value) ⟨w.heap, (), none⟩ =
      .done ((w.heap.table id).get key) ⟨w.heap, (), none⟩ := by
    unfold Access.index Access.chainLimit Access.indexFrom
    change (if !((w.heap.table id).get key).isNil then _ else _ : Native Unit Value) _ = _
    split
    · rfl
    · next hnil =>
      have hvalue : (w.heap.table id).get key = .nil := isNil_eq (by simpa using hnil)
      simp only [hmeta]
      rw [hvalue]
      rfl
  unfold Native.lift
  simp only [hplain]
  rfl

/-- The guard reads a global variable. -/
theorem instruct_global (hw : w.Guarded ward shared) (hguard : ward.guard.IsGuard) (name : String)
    (pc : Nat) (want : Want) (origin : Origin) :
    instruct (guardFrame ward.guard a b pc [] [] want) w
        (.index (.captured 0) (.const (.text name)) origin) =
      .next (guardFrame ward.guard a b pc [w.heap.rawGet w.heap.globals (.text name)] [] want) w := by
  have henvironment : w.heap.cell (ward.guard.captured[0]?.getD 0) = .table w.heap.globals := by
    rw [hguard.captured]
    exact hw.1.environment
  change operate1 (guardFrame ward.guard a b pc [] [] want) w
    (Access.index (w.heap.cell (ward.guard.captured[0]?.getD 0)) (.text name) origin) = _
  unfold operate1
  rw [henvironment, index_plain hw.1.metatable]
  rfl

/-- The guard compares what it was given with what it takes for the global table. -/
theorem guarded_compare (hw : w.Guarded ward shared) {v : Value} (hv : IsPublic v)
    (hglobals : w.heap.cell a = .table w.heap.globals → v = .table w.heap.globals)
    (ha : w.heap.Own shared a) (hb : w.heap.Own shared b) (hchain : Chain ward shared w.heap s.top) :
    (follow s (operateBool (guardFrame ward.guard a b 2 [] [] want) w
      (Access.compare .eq (w.heap.cell a) v))).Guarded ward := by
  by_cases hsame : w.heap.cell a = .table w.heap.globals
  · have hequal : (do return .bool (← Access.compare .eq (.table w.heap.globals)
        (.table w.heap.globals)) : Native Unit Value).lift w = .done (.bool true) w := by
      have hraw : (Value.table w.heap.globals).rawEqual (.table w.heap.globals) = true := by
        simp [Value.rawEqual]
      simp only [Access.compare, Access.equal, hraw]
      rfl
    unfold operateBool operate1
    rw [hglobals hsame, hsame, hequal]
    exact .execute hw (.guard rfl (.branch _ _ fun _ => rfl) ha hb hchain)
  · have hx : IsPublic (w.heap.cell a) := hw.1.cells a (Nat.ne_of_gt ha.late)
    have hkeeps : (do return .bool (← Access.compare .eq (w.heap.cell a) v) :
        Native Unit Value).Keeps ward.bare :=
      (Access.keeps_compare .eq hx hv).bind fun _ _ => Native.keeps_pure trivial
    have hlift := hkeeps.lift shared w hw
    have hbind := hlift.bind (k := fun v w => .done [v] w) fun v hv => Native.keeps_pure (by simpa using hv)
    unfold operateBool operate1
    split
    · next v w' heq =>
      rw [heq] at hlift
      obtain ⟨⟨shared', hgrows, hw'⟩, hv⟩ := hlift
      obtain ⟨ha', hcell⟩ := ha.grows hgrows
      refine .execute hw' (.guard rfl (.branch v _ fun heq => ?_) ha' (hb.grows hgrows).1
        (hchain.grows hgrows))
      rw [hcell, hgrows.globals] at heq
      exact absurd heq hsame
    · next fault w' heq =>
      rw [heq] at hlift
      obtain ⟨⟨shared', hgrows, hw'⟩, hfault⟩ := hlift
      exact .fail hw' (.frame rfl rfl (hchain.grows hgrows)) hfault
    · next q resume w' heq =>
      rw [heq] at hbind
      exact .look hw (.guard (.compared hsame) ha hb hchain) hbind

/-- A step of the guard. -/
theorem guarded_followGuard (hw : w.Guarded ward shared)
    (hintact : w.heap.cell a = .table w.heap.globals → w.heap.Intact)
    (hguard : ward.guard.IsGuard) {f : Frame} (hf : GuardReady ward.guard w.heap a b f)
    (ha : w.heap.Own shared a) (hb : w.heap.Own shared b) (hchain : Chain ward shared w.heap s.top)
    {i : Instr} (hi : f.closure.proto.code[f.pc]? = some i) :
    (follow s (instruct { f with pc := f.pc + 1 } w i)).Guarded ward := by
  have hcode : ∀ k : Nat, ward.guard.proto.code[k]? = guardCode[k]? := by
    rw [hguard.proto]
    exact fun _ => rfl
  have hrunning : ∀ {f : Frame}, GuardReady ward.guard w.heap a b f →
      Guarded ward ⟨.execute w, withTop s f⟩ := fun hf => .execute hw (.guard rfl hf ha hb hchain)
  cases hf with
  | start want =>
    obtain rfl := Option.some.inj ((hcode 0).symm.trans hi)
    have heffect := instruct_global (a := a) (b := b) hw hguard "_G" 1 want
      (.upvalue (Text.bytes "_ENV"))
    have hnext : (follow s (.next (guardFrame ward.guard a b 1
        [w.heap.rawGet w.heap.globals (.text "_G")] [] want) w)).Guarded ward :=
      hrunning (.compare _ want (hw.1.public_get _ _) fun hsame => (hintact hsame).globals)
    rw [← heffect] at hnext
    exact hnext
  | compare v want isPublic same =>
    obtain rfl := Option.some.inj ((hcode 1).symm.trans hi)
    exact guarded_compare hw isPublic same ha hb hchain
  | branch v want same =>
    obtain rfl := Option.some.inj ((hcode 2).symm.trans hi)
    change Guarded ward ⟨.execute w, withTop s (if v.truthy = false then
      guardFrame ward.guard a b 7 [] [] want else guardFrame ward.guard a b 3 [] [] want)⟩
    refine hrunning ?_
    by_cases htruthy : v.truthy = false
    · rw [if_pos htruthy]
      refine .pass want fun heq => ?_
      rw [same heq] at htruthy
      cases htruthy
    · rw [if_neg htruthy]
      exact .refuse want
  | refuse want =>
    obtain rfl := Option.some.inj ((hcode 3).symm.trans hi)
    have heffect := instruct_global (a := a) (b := b) hw hguard "error" 4 want
      (.upvalue (Text.bytes "_ENV"))
    have hnext : (follow s (.next (guardFrame ward.guard a b 4
        [w.heap.rawGet w.heap.globals (.text "error")] [] want) w)).Guarded ward :=
      hrunning (.text _ want (hw.1.public_get _ _) fun hsame => (hintact hsame).error)
    rw [← heffect] at hnext
    exact hnext
  | text v want isPublic error =>
    obtain rfl := Option.some.inj ((hcode 4).symm.trans hi)
    exact hrunning (.level v want isPublic error)
  | level v want isPublic error =>
    obtain rfl := Option.some.inj ((hcode 5).symm.trans hi)
    exact hrunning (.raise v want isPublic error)
  | raise v want isPublic error =>
    obtain rfl := Option.some.inj ((hcode 6).symm.trans hi)
    change Guarded ward ⟨.call v [.text guardText, .int 2] w,
      withTop s (guardFrame ward.guard a b 7 [] [] (.exactly 0))⟩
    have hargs : IsPublic [Value.text guardText, .int 2] := by simp
    by_cases hsame : w.heap.cell a = .table w.heap.globals
    · rw [error hsame]
      exact .error hw (.frame rfl rfl hchain) hargs
    · exact .call hw (.guard (.raised hsame) ha hb hchain) isPublic hargs
  | pass want other =>
    obtain rfl := Option.some.inj ((hcode 7).symm.trans hi)
    have hsecret : w.heap.cell (ward.guard.captured[1]?.getD 0) = .builtin .setmetatable := by
      rw [hguard.captured]
      exact hw.1.secret
    change Guarded ward ⟨.execute w, withTop s (guardFrame ward.guard a b 8
      [w.heap.cell (ward.guard.captured[1]?.getD 0)] [] want)⟩
    rw [hsecret]
    exact hrunning (.first want other)
  | first want other =>
    obtain rfl := Option.some.inj ((hcode 8).symm.trans hi)
    exact hrunning (.second want other)
  | second want other =>
    obtain rfl := Option.some.inj ((hcode 9).symm.trans hi)
    exact hrunning (.call want other)
  | call want other =>
    obtain rfl := Option.some.inj ((hcode 10).symm.trans hi)
    exact .secret hw (.guard .called ha hb hchain) other
  | done vs want isPublic =>
    obtain rfl := Option.some.inj ((hcode 11).symm.trans hi)
    exact .give hw hchain isPublic

end Guard

/-! ## Steps -/

theorem Running.grows {h h' : Heap} {top : List (Activation σ)} (hrunning : Running ward shared h top)
    (hgrows : Heap.Grows shared shared' h h') : Running ward shared' h' top := by
  cases hrunning with
  | script eq isPublic below => exact .script eq (isPublic.mono hgrows.more) (below.grows hgrows)
  | guard eq ready ha hb below =>
    obtain ⟨ha', hcella⟩ := ha.grows hgrows
    obtain ⟨hb', hcellb⟩ := hb.grows hgrows
    exact .guard eq (ready.congr hcella hcellb hgrows.globals) ha' hb' (below.grows hgrows)

/-- An error leaves the frame that runs. -/
theorem Running.falling {h : Heap} {top : List (Activation σ)} (hrunning : Running ward shared h top) :
    Falling ward shared h top := by
  cases hrunning with
  | script eq isPublic below => exact .chain (eq ▸ .script isPublic below)
  | guard eq ready ha hb below => exact .frame eq ready.toClose below

theorem guarded_tick (stack : List (Activation σ)) (hw : w.Guarded ward shared) :
    (tickMeter stack w).2.Guarded ward shared ∧ (tickMeter stack w).2.heap = w.heap := by
  unfold tickMeter
  split
  · split
    · split <;> exact ⟨hw, rfl⟩
    · exact ⟨hw, rfl⟩
  · exact ⟨hw, rfl⟩

section Frame

variable {f : Frame}

/-- An error between two instructions leaves the frame, too. -/
theorem Running.stopped {h : Heap} {rest : List (Activation σ)}
    (hrunning : Running ward shared h (.script f :: rest)) :
    Falling ward shared h (.script { f with pc := f.pc + 1 } :: rest) := by
  cases hrunning with
  | script eq isPublic below =>
    cases eq
    exact .chain (.script (isPublic.withPc _) below)
  | guard eq ready ha hb below =>
    cases eq
    exact .frame rfl ready.toClose below

theorem Running.leave (hw : w.Guarded ward shared)
    (hrunning : Running ward shared w.heap (.script f :: s.top)) :
    (follow s (.leave f [] w)).Guarded ward := by
  cases hrunning with
  | script eq isPublic below =>
    cases eq
    exact guarded_follow below ⟨.of_now hw isPublic, isPublic_emptyList⟩
  | guard eq ready ha hb below =>
    cases eq
    have hclosing : closing f w.heap = [] := by rw [closing, ready.toClose, List.map_nil]
    unfold follow
    simp only [hclosing]
    exact .give hw below isPublic_emptyList

theorem Running.instruct (hw : w.Guarded ward shared)
    (hintact : f.closure = ward.guard → w.heap.cell (f.cellOf 0) = .table w.heap.globals → w.heap.Intact)
    (hguard : ward.guard.IsGuard) (hrunning : Running ward shared w.heap (.script f :: s.top)) {i : Instr}
    (hi : f.closure.proto.code[f.pc]? = some i) :
    (follow s (instruct { f with pc := f.pc + 1 } w i)).Guarded ward := by
  cases hrunning with
  | script eq isPublic below =>
    cases eq
    have hpublic := isPublic.closure.code i (Array.mem_of_getElem? hi)
    exact guarded_follow below (keeps_instruct hw (isPublic.withPc _) hpublic)
  | guard eq ready ha hb below =>
    cases eq
    have hframe := ready.frame
    exact guarded_followGuard hw (hframe.2 ▸ hintact hframe.1) hguard ready ha hb below hi

end Frame

theorem guarded_execute (hw : w.Guarded ward shared)
    (hintact : Guarding ward.guard ⟨.execute w, s⟩ → w.heap.Intact)
    (hguard : ward.guard.IsGuard) (hrunning : Running ward shared w.heap s.top) :
    (execute s w).Guarded ward := by
  unfold execute
  split
  · have hrecount : (recount s w).Guarded ward shared := ⟨hw.1.of_eq rfl rfl rfl rfl rfl, hw.2⟩
    have hgrows : Heap.Grows shared shared w.heap (recount s w).heap := .of_cells rfl rfl
    exact guarded_ite (.throw hrecount (hrunning.grows hgrows).falling trivial)
      (.execute hrecount (hrunning.grows hgrows))
  · split
    · next f rest depth frames natives =>
      split
      · exact Running.leave (s := ⟨rest, depth, frames, natives⟩) hw hrunning
      · next i hi =>
        obtain ⟨hticked, hheap⟩ := guarded_tick rest hw
        simp only
        split
        · next w' htrue =>
          rw [htrue] at hticked hheap
          have hraised : World.Guarded ward shared
              (meterError (.script { f with pc := f.pc + 1 } :: rest) w').2 :=
            ⟨hticked.1.of_eq rfl rfl rfl rfl rfl, hticked.2⟩
          have hglobals := congrArg Heap.globals hheap
          have hcells := congrArg Heap.cells hheap
          have hgrows : Heap.Grows shared shared w.heap
              (meterError (.script { f with pc := f.pc + 1 } :: rest) w').2.heap :=
            .of_cells hglobals hcells
          exact .throw hraised (hrunning.stopped.grows hgrows) trivial
        · next w' hfalse =>
          rw [hfalse] at hticked hheap
          simp only at hheap
          have hframe (hclosure : f.closure = ward.guard)
              (hcell : w.heap.cell (f.cellOf 0) = .table w.heap.globals) : w.heap.Intact :=
            hintact ⟨f, rest, rfl, hclosure, hcell⟩
          rw [← hheap] at hframe hrunning
          exact Running.instruct (s := ⟨rest, depth, frames, natives⟩) hticked hframe hguard hrunning hi
    · next hscript =>
      exfalso
      obtain ⟨top, depth, frames, natives⟩ := s
      cases hrunning with
      | script eq isPublic below => exact hscript _ _ _ _ _ (by rw [← eq])
      | guard eq ready ha hb below => exact hscript _ _ _ _ _ (by rw [← eq])

/-! ## Finalizers -/

theorem keeps_finalize (id : Nat) : (finalize id).Keeps ward.bare := by
  refine (Native.keeps_heap fun _ _ hh => hh.public_metafield _ _).bind fun f hf => ?_
  refine Native.keeps_ite (Native.keeps_pure isPublic_emptyList) ?_
  exact (Native.keeps_guarded hf (by simp) isPublic_none).bind fun _ _ => Native.keeps_pure isPublic_emptyList

theorem keeps_unmark (id : Nat) : (Native.modifyHeap (·.unmark id) : Native Unit Unit).Keeps ward.bare :=
  Native.keeps_modifyHeap (fun _ _ hh => hh.of_eq rfl rfl rfl rfl rfl) (fun _ => rfl) fun _ => rfl

theorem keeps_collect (collector : Collector) (n : Nat) : (collect collector n).Keeps ward.bare := by
  induction n with
  | zero => exact Native.keeps_pure isPublic_emptyList
  | succ n ih =>
    have hpick : (Native.heap (pick? collector) : Native Unit (Option Nat)).Keeps ward.bare :=
      Native.keeps_heap fun _ _ _ _ _ => trivial
    refine hpick.bind fun picked _ => ?_
    cases picked with
    | none => exact Native.keeps_pure isPublic_emptyList
    | some id => exact (keeps_unmark id).bind fun _ _ => (keeps_finalize id).bind fun _ _ => ih

theorem keeps_finalizeAll (ids : List Nat) : (finalizeAll ids).Keeps ward.bare := by
  induction ids with
  | nil => exact Native.keeps_pure isPublic_emptyList
  | cons id rest ih => exact (keeps_finalize id).bind fun _ _ => ih

theorem keeps_close (collector : Collector) : (close collector).Keeps ward.bare := by
  have hnone : (Native.modifyHeap fun h => { h with marked := [] } : Native Unit Unit).Keeps ward.bare :=
    Native.keeps_modifyHeap (fun _ _ hh => hh.of_eq rfl rfl rfl rfl rfl) (fun _ => rfl) fun _ => rfl
  have hmarked : (Native.heap (·.marked) : Native Unit (List Nat)).Keeps ward.bare :=
    Native.keeps_heap fun _ _ _ _ _ => trivial
  refine (Native.keeps_look (·.marked.length)).bind fun n _ => (keeps_collect collector n).bind fun _ _ => ?_
  exact hmarked.bind fun marked _ => hnone.bind fun _ _ => keeps_finalizeAll marked

/-- A frame that is interrupted goes on afterwards where it was, be it one of a script or one of the guard. -/
theorem guarded_interrupt (hw : w.Guarded ward shared) {f : Frame} (id : Nat)
    (hrunning : Running ward shared w.heap (.script f :: s.top)) : (interrupt s f id w).Guarded ward := by
  have hunmarked : (withHeap w (·.unmark id)).Guarded ward shared :=
    ⟨hw.1.of_eq rfl rfl rfl rfl rfl, hw.2⟩
  have hgrows : Heap.Grows shared shared w.heap (withHeap w (·.unmark id)).heap := .of_cells rfl rfl
  have hkeeps := (keeps_finalize id).lift shared _ hunmarked
  refine guarded_ite (.execute hunmarked (hrunning.grows hgrows)) ?_
  cases hrunning.grows hgrows with
  | script eq isPublic below =>
    cases eq
    exact .look hunmarked (.script (isPublic.withWant _) below) hkeeps
  | guard eq ready ha hb below =>
    cases eq
    exact .look hunmarked (.guard (.interrupted ready) ha hb below) hkeeps

theorem guarded_proceed (collector : Collector) (hw : w.Guarded ward shared)
    (hintact : Guarding ward.guard ⟨.execute w, s⟩ → w.heap.Intact)
    (hguard : ward.guard.IsGuard) (hrunning : Running ward shared w.heap s.top) :
    (proceed collector s w).Guarded ward := by
  unfold proceed
  split
  · split
    · exact guarded_interrupt hw _ hrunning
    · exact guarded_execute hw hintact hguard hrunning
  · exact guarded_execute hw hintact hguard hrunning

/-! ## Steps -/

/-- A step of a machine that keeps the guard, if the names that the guard relies on have their first values while it
is at work on the global table. -/
theorem guarded_step {natives : Natives σ} (hnatives : Confined ward natives) {m : Machine σ}
    (hm : m.Guarded ward) (hintact : m.Guarding ward.guard → m.world.heap.Intact) :
    (step natives m).Guarded ward := by
  obtain ⟨control, stack⟩ := m
  cases hm with
  | execute guarded running => exact guarded_proceed natives.collector guarded hintact hnatives.guard running
  | call guarded chain isPublic arguments => exact guarded_enter hnatives guarded chain isPublic arguments
  | secret guarded chain other => exact guarded_enterSecret hnatives guarded chain other
  | error guarded falling arguments => exact guarded_enterError hnatives guarded falling arguments
  | give guarded chain isPublic => exact guarded_give guarded chain isPublic
  | look guarded chain keeps => exact guarded_look chain _ keeps
  | fail guarded falling isPublic => exact .throw guarded falling (isPublic_ofFault _ _ isPublic)
  | throw guarded falling isPublic => exact guarded_raise guarded falling isPublic
  | finished guarded isPublic => exact .finished guarded isPublic

end Machine

end ScriptWarden.Lua
