import ScriptWarden.Proofs.Lua.Stop
set_option autoImplicit false

/-!
# Lua: members of objects of the host

Objects of the host share one metatable, which no script can change.  So whoever reads a key of an object calls a
function of the host, and so does whoever sets one, and what comes of it is known from that function alone
(`reading_done`, `reading_fails`, `storing_fails`).  Whoever asks for the call waits for it on the stack, which has
room for so many that wait and no more: where it is full, the function is not even called (`asking_full`).  Before it
is called, what the heap takes may be counted again (`makeRoom`).
-/

namespace ScriptWarden.Lua

variable {σ : Type}

namespace Machine

variable {natives : Natives σ} {runner : Runner} {w w' : World σ} {s : Stack σ}

/-! ## Runs -/

/-- A run comes to a state. -/
def ComesTo (natives : Natives σ) (m m' : Machine σ) : Prop := ∃ steps, run natives steps m = m'

theorem ComesTo.trans {m₁ m₂ m₃ : Machine σ} (h : ComesTo natives m₁ m₂) (h' : ComesTo natives m₂ m₃) :
    ComesTo natives m₁ m₃ := by
  obtain ⟨steps, rfl⟩ := h
  obtain ⟨steps', rfl⟩ := h'
  exact ⟨steps + steps', run_add natives steps steps' m₁⟩

theorem comesTo_of_step {m m' : Machine σ} (hrunning : m.answer? = none) (h : step natives m = m') :
    ComesTo natives m m' := ⟨1, (run_succ 0 hrunning).trans h⟩

/-- A run comes to a throw of an error of the host, and of the world nothing has changed but that there is the error,
and that what the heap takes may have been counted again. -/
def Raises (natives : Natives σ) (m : Machine σ) (e : Raised) : Prop :=
  ∃ s taken, ComesTo natives m ⟨.throw { value := .raised m.world.heap.raised.size }
    ⟨({ m.world.heap with taken }.newRaised e).2, m.world.host, m.world.meter⟩, s⟩

/-- A run comes to the error that nobody else can wait for a call, and nothing has changed. -/
def Overflows (natives : Natives σ) (m : Machine σ) : Prop :=
  ∃ runner s, ComesTo natives m
    ⟨.throw (thrown runner m.stack.top (.here (Text.bytes "C stack overflow"))) m.world, s⟩

/-- A native function that fails with an error of the host: there is that error, and nothing else is new. -/
def failing {α : Type} (e : Raised) (w : World σ) : Outcome σ α :=
  .fail (.value (.raised w.heap.raised.size)) ⟨(w.heap.newRaised e).2, w.host, w.meter⟩

/-! ## Calls of the host -/

/-- Counting again changes nothing else. -/
theorem makeRoom_eq (s : Stack σ) (f : HostFunction) (args : List Value) (w : World σ) :
    ∃ taken, makeRoom s f args w = ⟨{ w.heap with taken }, w.host, w.meter⟩ := by
  obtain heq | heq := makeRoom_cases s f args w <;> rw [heq]
  · exact ⟨w.heap.taken, rfl⟩
  · exact ⟨_, rfl⟩

section Asking

variable {f : HostFunction} {args : List Value} {resume : Answer → World σ → Outcome σ (List Value)}

/-- Somebody asks for a call of a function of the host. -/
def asking (runner : Runner) (f : HostFunction) (args : List Value)
    (resume : Answer → World σ → Outcome σ (List Value)) (w : World σ) (s : Stack σ) : Machine σ :=
  ⟨.look runner (.ask (.call (.host f) args) resume w), s⟩

/-- The call begins, and whoever asked for it waits. -/
theorem asking_begins (hroom : s.natives ≠ nativeLimit) : ComesTo natives (asking runner f args resume w s)
    ⟨.look (.function (.host f)) (natives (.host f) args (makeRoom s f args w)), pushNative s { runner, resume }⟩ := by
  have hasked : ComesTo natives (asking runner f args resume w s)
      ⟨.call (.host f) args w, pushNative s { runner, resume }⟩ :=
    comesTo_of_step rfl (by simp only [asking, step, look, if_neg hroom])
  exact hasked.trans (comesTo_of_step rfl rfl)

/-- What the function gives goes back to whoever asked for it. -/
theorem asking_done (hroom : s.natives ≠ nativeLimit) {vs : List Value}
    (hdone : natives (.host f) args (makeRoom s f args w) = .done vs w') :
    ComesTo natives (asking runner f args resume w s) ⟨.look runner (resume (.values vs) w'), s⟩ := by
  have hdoes : ComesTo natives (asking runner f args resume w s)
      ⟨.look (.function (.host f)) (.done vs w'), pushNative s { runner, resume }⟩ := hdone ▸ asking_begins hroom
  have hgives : ComesTo natives
      ⟨.look (.function (.host f)) (.done vs w'), pushNative s { runner, resume }⟩
      ⟨.give vs w', pushNative s { runner, resume }⟩ := comesTo_of_step rfl rfl
  exact hdoes.trans (hgives.trans (comesTo_of_step rfl rfl))

/-- An error of the function is thrown. -/
theorem asking_fails (hroom : s.natives ≠ nativeLimit) {e : Raised}
    (hfails : natives (.host f) args (makeRoom s f args w) = failing e (makeRoom s f args w)) :
    Raises natives (asking runner f args resume w s) e := by
  have hbegins : ComesTo natives (asking runner f args resume w s) _ := asking_begins hroom
  obtain ⟨taken, hcounted⟩ := makeRoom_eq s f args w
  rw [hfails, hcounted] at hbegins
  exact ⟨_, taken, hbegins.trans (comesTo_of_step rfl rfl)⟩

/-- Where nobody else can wait, nothing is called. -/
theorem asking_full (hfull : s.natives = nativeLimit) : Overflows natives (asking runner f args resume w s) := by
  refine ⟨runner, pushNative s { runner, resume }, comesTo_of_step rfl ?_⟩
  simp only [asking, step, look, if_pos hfull]
  rfl

end Asking

/-- An error of a function of the host that is called at once. -/
theorem call_raises {f : HostFunction} {args : List Value} {e : Raised}
    (hfails : natives (.host f) args (makeRoom s f args w) = failing e (makeRoom s f args w)) :
    Raises natives ⟨.call (.host f) args w, s⟩ e := by
  have hbegins : ComesTo natives ⟨.call (.host f) args w, s⟩
      ⟨.look (.function (.host f)) (natives (.host f) args (makeRoom s f args w)), s⟩ := comesTo_of_step rfl rfl
  obtain ⟨taken, hcounted⟩ := makeRoom_eq s f args w
  rw [hfails, hcounted] at hbegins
  exact ⟨_, taken, hbegins.trans (comesTo_of_step rfl rfl)⟩

/-! ## Reading and storing -/

variable {fuel id : Nat} {key v : Value} {origin : Origin}

/-- Somebody reads a key of an object and goes on with the value: a script, or a function of the library. -/
def reading (fuel id : Nat) (key : Value) (origin : Origin) (runner : Runner)
    (k : Value → World σ → Outcome σ (List Value)) (w : World σ) (s : Stack σ) : Machine σ :=
  ⟨.look runner (((Access.indexFrom (fuel + 1) (.object id) key origin).lift w).bind k), s⟩

/-- Somebody sets a key of an object. -/
def storing (fuel id : Nat) (key v : Value) (origin : Origin) (runner : Runner)
    (k : Unit → World σ → Outcome σ (List Value)) (w : World σ) (s : Stack σ) : Machine σ :=
  ⟨.look runner (((Access.storeFrom (fuel + 1) (.object id) key v origin).lift w).bind k), s⟩

/-! The instructions that read a field, name a method or set a field are of that kind. -/

section Instructions

variable {f f' f'' : Frame} {obj operand value : Operand}

theorem follow_index (origin : Origin) (hread : read2 f w.heap obj operand = (.object id, key, f')) :
    follow s (instruct f w (.index obj operand origin)) =
      reading (Access.chainLimit - 1) id key origin .operation (fun v w => .done [v] w) w
        (withTop s { f' with want := .exactly 1 }) := by
  simp only [instruct, hread]
  rfl

theorem follow_method (name : Bytes) (origin : Origin) (hread : read f w.heap obj = (.object id, f')) :
    follow s (instruct f w (.method obj name origin)) =
      reading (Access.chainLimit - 1) id (.str name) origin .operation (fun m w => .done [m, .object id] w) w
        (withTop s { f' with want := .exactly 2 }) := by
  simp only [instruct, hread]
  rfl

theorem follow_store (origin : Origin) (hvalue : read f w.heap value = (v, f'))
    (hread : read2 f' w.heap obj operand = (.object id, key, f'')) :
    follow s (instruct f w (.store obj operand value origin)) =
      storing (Access.chainLimit - 1) id key v origin .operation (fun _ w => .done [] w) w
        (withTop s { f'' with want := .exactly 0 }) := by
  simp only [instruct, hvalue, hread]
  rfl

end Instructions

/-- The object and the string that the next instruction reads, if it reads a field of an object. -/
def nextRead? (m : Machine σ) : Option (Nat × Bytes) :=
  match m with
  | ⟨.execute w, ⟨.script f :: _, _, _, _⟩⟩ =>
    if isFull w ∨ w.meter.isSome ∨ !w.heap.marked.isEmpty then none
    else
      match f.closure.proto.code[f.pc]? with
      | some (.index obj operand _) =>
        match read2 { f with pc := f.pc + 1 } w.heap obj operand with
        | (.object id, .str s, _) => some (id, s)
        | _ => none
      | _ => none
  | _ => none

theorem step_of_nextRead (natives : Natives σ) {m : Machine σ} {name : Bytes} (h : m.nextRead? = some (id, name)) :
    ∃ fuel origin runner k s, m.step natives = reading fuel id (.str name) origin runner k m.world s ∧
      s.natives = m.stack.natives := by
  unfold nextRead? at h
  split at h
  · next w f rest depth frames count =>
    split at h
    · cases h
    · next hquiet =>
      simp only [not_or, Bool.not_eq_true, Bool.not_eq_false', List.isEmpty_iff] at hquiet
      obtain ⟨hroom, hmeter, hmarked⟩ := hquiet
      split at h
      · next obj operand origin hcode =>
        split at h
        · next f' hread =>
          cases h
          obtain ⟨heap, host, meter⟩ := w
          obtain rfl : meter = none := by simpa using hmeter
          have hstep : step natives
              ⟨.execute ⟨heap, host, none⟩, ⟨.script f :: rest, depth, frames, count⟩⟩ =
              follow ⟨rest, depth, frames, count⟩
                (instruct { f with pc := f.pc + 1 } ⟨heap, host, none⟩ (.index obj operand origin)) := by
            simp only [step, proceed, letGo?_of_unmarked natives.collector rest hmarked, execute, hroom, hcode,
              tickMeter, Bool.false_eq_true, if_false]
          exact ⟨_, _, _, _, _, hstep.trans (follow_index origin hread), rfl⟩
        · cases h
      · cases h
  · cases h

/-- The first value that the function of the host gives is the one that is read. -/
theorem reading_done {k : Value → World σ → Outcome σ (List Value)} (hroom : s.natives ≠ nativeLimit)
    {vs : List Value}
    (hdone : natives (.host .member) [.object id, key] (makeRoom s .member [.object id, key] w) = .done vs w') :
    ComesTo natives (reading fuel id key origin runner k w s) ⟨.look runner (k (vs.headD .nil) w'), s⟩ := by
  obtain ⟨resume, heq, hresume⟩ : ∃ resume, reading fuel id key origin runner k w s =
      asking runner .member [.object id, key] resume w s ∧ ∀ vs w', resume (.values vs) w' = k (vs.headD .nil) w' :=
    ⟨_, rfl, fun _ _ => rfl⟩
  rw [heq, ← hresume]
  exact asking_done hroom hdone

theorem reading_fails {k : Value → World σ → Outcome σ (List Value)} (hroom : s.natives ≠ nativeLimit)
    {e : Raised}
    (hfails : natives (.host .member) [.object id, key] (makeRoom s .member [.object id, key] w) =
      failing e (makeRoom s .member [.object id, key] w)) :
    Raises natives (reading fuel id key origin runner k w s) e := asking_fails hroom hfails

theorem reading_full {k : Value → World σ → Outcome σ (List Value)} (hfull : s.natives = nativeLimit) :
    Overflows natives (reading fuel id key origin runner k w s) := asking_full hfull

theorem storing_fails {k : Unit → World σ → Outcome σ (List Value)} (hroom : s.natives ≠ nativeLimit)
    {e : Raised}
    (hfails : natives (.host .setMember) [.object id, key, v] w = failing e w) :
    Raises natives (storing fuel id key v origin runner k w s) e := asking_fails hroom hfails

theorem storing_full {k : Unit → World σ → Outcome σ (List Value)} (hfull : s.natives = nativeLimit) :
    Overflows natives (storing fuel id key v origin runner k w s) := asking_full hfull

end Machine

end ScriptWarden.Lua
