import Mathlib.Algebra.Group.Nat.Defs
import Mathlib.Data.List.Induction
import ScriptWarden.Quota
set_option autoImplicit false

/-!
# Quota: windows

A budget with an interval of `I` ticks cuts a run of its gate into windows: the first lasts up to tick
number `I`, the next one up to tick number `2 * I`, and so on.  The state of a budget is a function of
the current window alone (`Tracks`), and from that follows `gate_windows_exact`: each window grants its
first uses up to its ceiling and refuses all others, and the ceiling is that of the trust at the tick
that opened the window.
-/

namespace ScriptWarden.Quota

open Trust (Capability Effective RefillRule)

/-! ## Runs of a gate -/

/-- Something that a gate is told or asked. -/
inductive Op where
  | use (c : Capability)
  | tick (trust : Capability → Effective)
  | flag (c : Capability)
  | unflag (c : Capability)

namespace Op

/-- The ticks that an operation lets pass. -/
def ticks : Op → List (Capability → Effective)
  | .tick trust => [trust]
  | _ => []

/-- Does an operation use a capability? -/
def isUse (c : Capability) : Op → Bool
  | .use d => d = c
  | _ => false

end Op

namespace Gate

/-- The gate after an operation. -/
def after (g : Gate) : Op → Gate
  | .use c => (g.tryUse c).2
  | .tick trust => g.tick trust
  | .flag c => g.flag c
  | .unflag c => g.unflag c

/-- The gate after a run. -/
def run (g : Gate) (ops : List Op) : Gate := ops.foldl after g

@[simp] theorem run_nil (g : Gate) : g.run [] = g := rfl

@[simp] theorem run_snoc (g : Gate) (ops : List Op) (op : Op) :
    g.run (ops ++ [op]) = (g.run ops).after op := by
  simp [run]

end Gate

/-- The trust at each tick of a run, the first tick first. -/
def ticks (ops : List Op) : List (Capability → Effective) := ops.flatMap Op.ticks

@[simp] theorem ticks_snoc (ops : List Op) (op : Op) : ticks (ops ++ [op]) = ticks ops ++ op.ticks := by
  simp [ticks]

/-- For each use of a capability, how many ticks were `passed` when it was made. -/
def useTimes (c : Capability) (passed : Nat) : List Op → List Nat
  | [] => []
  | op :: rest =>
    (if op.isUse c then [passed] else []) ++ useTimes c (passed + op.ticks.length) rest

/-- The answer to each use of a capability, with the ticks that were `passed` when it was made. -/
def Gate.answers (c : Capability) (g : Gate) (passed : Nat) : List Op → List (Nat × Bool)
  | [] => []
  | op :: rest =>
    (if op.isUse c then [(passed, (g.tryUse c).1)] else [])
      ++ (g.after op).answers c (passed + op.ticks.length) rest

theorem useTimes_snoc (c : Capability) (ops : List Op) (op : Op) (passed : Nat) :
    useTimes c passed (ops ++ [op]) =
      useTimes c passed ops ++ if op.isUse c then [passed + (ticks ops).length] else [] := by
  induction ops generalizing passed with
  | nil => simp [useTimes, ticks]
  | cons first rest ih =>
    rw [List.cons_append, useTimes, ih, useTimes]
    simp [ticks, Nat.add_assoc]

theorem Gate.answers_snoc (c : Capability) (g : Gate) (ops : List Op) (op : Op) (passed : Nat) :
    g.answers c passed (ops ++ [op]) = g.answers c passed ops ++
      if op.isUse c then [(passed + (ticks ops).length, ((g.run ops).tryUse c).1)] else [] := by
  induction ops generalizing g passed with
  | nil => simp [answers, ticks]
  | cons first rest ih =>
    rw [List.cons_append, answers, ih, answers]
    simp [ticks, run, Nat.add_assoc]

theorem useTimes_le (c : Capability) (ops : List Op) :
    ∀ time ∈ useTimes c 0 ops, time ≤ (ticks ops).length := by
  induction ops using List.reverseRecOn with
  | nil => simp [useTimes]
  | append_singleton ops op ih =>
    intro time htime
    rw [useTimes_snoc, List.mem_append] at htime
    rw [ticks_snoc, List.length_append]
    rcases htime with hold | hnew
    · exact Nat.le_add_right_of_le (ih time hold)
    · split at hnew
      · simp only [Nat.zero_add, List.mem_singleton] at hnew
        omega
      · simp at hnew

/-! ## Windows -/

/-- How many times a window uses a capability. -/
def usesIn (c : Capability) (interval window : Nat) (ops : List Op) : Nat :=
  (useTimes c 0 ops).countP (· / interval = window)

/-- What a window answers to the uses of a capability, in order. -/
def Gate.answersIn (c : Capability) (interval window : Nat) (g : Gate) (ops : List Op) : List Bool :=
  ((g.answers c 0 ops).filter (·.1 / interval = window)).map (·.2)

/-- The trust that a window opens with: that of the creation of the gate for the first one, then that
of the tick whose number is the start of the window. -/
def openingTrust (c : Capability) (interval : Nat) (trust : Capability → Effective) (ops : List Op)
    (window : Nat) : Effective :=
  if window = 0 then trust c else (ticks ops)[window * interval - 1]?.bind (· c)

/-- The number of the window at the end of a run. -/
def currentWindow (interval : Nat) (ops : List Op) : Nat := (ticks ops).length / interval

/-- A window that has not begun has no uses. -/
theorem usesIn_eq_zero {c : Capability} {interval window : Nat} {ops : List Op}
    (h : currentWindow interval ops < window) : usesIn c interval window ops = 0 := by
  rw [usesIn, List.countP_eq_zero]
  intro time htime
  have hle : time / interval ≤ currentWindow interval ops :=
    Nat.div_le_div_right (useTimes_le c ops time htime)
  simp only [decide_eq_true_eq]
  omega

/-- The trust of a window that has begun does not change any more. -/
theorem openingTrust_snoc {c : Capability} {interval window : Nat}
    {trust : Capability → Effective} {ops : List Op} (op : Op) (hpos : 0 < interval)
    (h : window ≤ currentWindow interval ops) :
    openingTrust c interval trust (ops ++ [op]) window = openingTrust c interval trust ops window := by
  unfold openingTrust
  split
  · rfl
  · rename_i hwindow
    have hlt : window * interval - 1 < (ticks ops).length := by
      have hmul : window * interval ≤ (ticks ops).length :=
        (Nat.le_div_iff_mul_le hpos).mp h
      have : 0 < window * interval := Nat.mul_pos (Nat.pos_of_ne_zero hwindow) hpos
      omega
    rw [ticks_snoc, List.getElem?_append_left hlt]

/-! A window goes on until a tick ends it. -/

section Snoc

variable {c : Capability} {interval window : Nat} {trust : Capability → Effective} {ops : List Op}

/-- What is no use of a capability adds none to any window. -/
theorem usesIn_snoc {op : Op} (huse : op.isUse c = false) :
    usesIn c interval window (ops ++ [op]) = usesIn c interval window ops := by
  simp [usesIn, useTimes_snoc, huse]

theorem currentWindow_snoc {op : Op} (htick : op.ticks = []) :
    currentWindow interval (ops ++ [op]) = currentWindow interval ops := by
  rw [currentWindow, ticks_snoc, htick, List.append_nil, currentWindow]

theorem length_ticks_tick (ops : List Op) (now : Capability → Effective) :
    (ticks (ops ++ [.tick now])).length = (ticks ops).length + 1 := by
  simp [Op.ticks]

theorem currentWindow_tick (h : interval ∣ (ticks ops).length + 1) (now : Capability → Effective) :
    currentWindow interval (ops ++ [.tick now]) = currentWindow interval ops + 1 := by
  rw [currentWindow, length_ticks_tick, Nat.succ_div_of_dvd h, currentWindow]

theorem currentWindow_tick_of_not_dvd (h : ¬ interval ∣ (ticks ops).length + 1)
    (now : Capability → Effective) :
    currentWindow interval (ops ++ [.tick now]) = currentWindow interval ops := by
  rw [currentWindow, length_ticks_tick, Nat.succ_div_of_not_dvd h, currentWindow]

/-- The trust of a tick is the one that a window opens with, if the tick opens a window. -/
theorem openingTrust_tick (h : interval ∣ (ticks ops).length + 1) (now : Capability → Effective) :
    openingTrust c interval trust (ops ++ [.tick now]) (currentWindow interval (ops ++ [.tick now])) =
      now c := by
  have hlater : currentWindow interval (ops ++ [.tick now]) ≠ 0 := by
    rw [currentWindow_tick h]
    exact Nat.succ_ne_zero _
  have hstart : currentWindow interval (ops ++ [.tick now]) * interval - 1 = (ticks ops).length := by
    rw [currentWindow, length_ticks_tick, Nat.div_mul_cancel h, Nat.add_sub_cancel]
  rw [openingTrust, if_neg hlater, hstart, ticks_snoc]
  simp [Op.ticks]

end Snoc

/-! ## Budgets -/

/-- The numbers of a refill rule. -/
theorem refillRule_bounds {c : Capability} {rule : RefillRule} (h : c.refillRule = some rule) :
    0 < rule.maximum ∧ 0 < rule.interval ∧ rule.interval ≤ 20 := by
  cases c <;> simp only [Capability.refillRule, Option.some.injEq, reduceCtorEq] at h <;> subst h <;>
    decide

theorem ceiling_nonneg {rule : RefillRule} (h : 0 < rule.maximum) (trust : Effective) :
    0 ≤ ceiling rule trust := by
  unfold ceiling
  split
  · split <;> omega
  · omega

theorem ceiling_le {rule : RefillRule} (h : 0 < rule.maximum) (trust : Effective) :
    ceiling rule trust ≤ rule.maximum := by
  unfold ceiling
  split
  · split <;> omega
  · omega

/-- The budget of a capability after an operation. -/
def Budget.after (b : Budget) (c : Capability) : Op → Budget
  | .use d => if d = c then b.take.2 else b
  | .tick trust => b.advance (trust c)
  | .flag _ => b
  | .unflag _ => b

namespace Gate

theorem budgets_new (trust : Capability → Effective) (c : Capability) :
    (new trust).budgets[c]? = c.refillRule.map fun rule => Budget.new rule (trust c) := by
  cases c <;>
    simp [new, Capability.all, Capability.refillRule, Std.ExtTreeMap.getElem_insert]

/-- An operation works on each budget apart. -/
theorem budgets_after (g : Gate) (c : Capability) (op : Op) :
    (g.after op).budgets[c]? = g.budgets[c]?.map (·.after c op) := by
  cases op with
  | use d =>
    by_cases hd : d = c
    · subst hd
      cases hb : g.budgets[d]? <;> simp [after, tryUse, hb, Budget.after]
    · have hcompare : ¬ compare d c = .eq := fun h => hd (Std.LawfulEqOrd.eq_of_compare h)
      cases hb : g.budgets[d]? <;>
        simp [after, tryUse, hb, Budget.after, hd, Std.ExtTreeMap.getElem?_insert]
  | tick trust => simp [after, tick, Budget.after]
  | flag d => simp [after, flag, Budget.after]
  | unflag d => simp [after, unflag, Budget.after]

end Gate

theorem succ_mod {n i : Nat} (h : n % i + 1 < i) : (n + 1) % i = n % i + 1 := by
  rw [Nat.add_mod, Nat.mod_eq_of_lt (show 1 < i by omega), Nat.mod_eq_of_lt h]

/-- What the budget of a capability is after a run: a function of the window that the run ends in. -/
structure Tracks (c : Capability) (rule : RefillRule) (trust : Capability → Effective)
    (ops : List Op) (b : Budget) : Prop where
  rule_eq : b.rule = rule
  age_eq : b.age = (ticks ops).length % rule.interval
  ceiling_eq : b.ceiling = ceiling rule
    (openingTrust c rule.interval trust ops (currentWindow rule.interval ops))
  remaining_eq : b.remaining =
    max 0 (b.ceiling - usesIn c rule.interval (currentWindow rule.interval ops) ops)

namespace Tracks

variable {c : Capability} {rule : RefillRule} {trust : Capability → Effective} {ops : List Op}
  {b : Budget}

theorem new (c : Capability) (rule : RefillRule) (trust : Capability → Effective)
    (hrule : c.refillRule = some rule) : Tracks c rule trust [] (.new rule (trust c)) where
  rule_eq := rfl
  age_eq := by simp [Budget.new, ticks]
  ceiling_eq := by simp [Budget.new, openingTrust, currentWindow, ticks]
  remaining_eq := by
    have := ceiling_nonneg (refillRule_bounds hrule).1 (trust c)
    simp only [Budget.new, usesIn, useTimes, List.countP_nil]
    omega

/-- A unit is granted as long as the window has used less than its ceiling. -/
theorem take_fst (t : Tracks c rule trust ops b) :
    b.take.1 = decide (usesIn c rule.interval (currentWindow rule.interval ops) ops
      < b.ceiling.toNat) := by
  have hremaining := t.remaining_eq
  unfold Budget.take
  split
  · simp only [Bool.true_eq, decide_eq_true_eq]
    omega
  · simp only [Bool.false_eq, decide_eq_false_iff_not]
    omega

/-- An operation that is neither a tick nor a use of the capability changes nothing. -/
theorem idle {op : Op} (t : Tracks c rule trust ops b) (hrule : c.refillRule = some rule)
    (huse : op.isUse c = false) (htick : op.ticks = []) : Tracks c rule trust (ops ++ [op]) b := by
  refine ⟨t.rule_eq, ?_, ?_, ?_⟩
  · rw [ticks_snoc, htick, List.append_nil, t.age_eq]
  · rw [currentWindow_snoc htick, openingTrust_snoc op (refillRule_bounds hrule).2.1 (Nat.le_refl _),
      t.ceiling_eq]
  · rw [currentWindow_snoc htick, usesIn_snoc huse, t.remaining_eq]

/-- A use of the capability is counted in the window. -/
theorem use (t : Tracks c rule trust ops b) (hrule : c.refillRule = some rule) :
    Tracks c rule trust (ops ++ [.use c]) b.take.2 := by
  have hticks : ticks (ops ++ [.use c]) = ticks ops := by simp [Op.ticks]
  have hwindow : currentWindow rule.interval (ops ++ [.use c]) = currentWindow rule.interval ops :=
    currentWindow_snoc rfl
  have huses : usesIn c rule.interval (currentWindow rule.interval ops) (ops ++ [.use c]) =
      usesIn c rule.interval (currentWindow rule.interval ops) ops + 1 := by
    simp [usesIn, useTimes_snoc, Op.isUse, currentWindow]
  have hceiling : b.take.2.ceiling = b.ceiling := by unfold Budget.take; split <;> rfl
  refine ⟨?_, ?_, ?_, ?_⟩
  · rw [← t.rule_eq]; unfold Budget.take; split <;> rfl
  · rw [hticks, ← t.age_eq]; unfold Budget.take; split <;> rfl
  · rw [hwindow, openingTrust_snoc _ (refillRule_bounds hrule).2.1 (Nat.le_refl _), hceiling, t.ceiling_eq]
  · rw [hwindow, huses, hceiling]
    have hremaining := t.remaining_eq
    unfold Budget.take
    split
    · simp only
      omega
    · simp only
      omega

/-- A budget is due when the next tick is the last one of the window. -/
theorem due_iff (t : Tracks c rule trust ops b) (hrule : c.refillRule = some rule) :
    rule.interval ≤ b.age + 1 ↔ rule.interval ∣ (ticks ops).length + 1 := by
  have hlt := Nat.mod_lt (ticks ops).length (refillRule_bounds hrule).2.1
  rw [t.age_eq]
  constructor
  · intro hdue
    have hparts := Nat.div_add_mod (ticks ops).length rule.interval
    refine ⟨(ticks ops).length / rule.interval + 1, ?_⟩
    rw [Nat.mul_add, Nat.mul_one]
    omega
  · intro hdvd
    by_contra hearly
    have hzero := Nat.mod_eq_zero_of_dvd hdvd
    rw [succ_mod (by omega)] at hzero
    exact absurd hzero (Nat.succ_ne_zero _)

/-- A tick that is the last one of a window opens the next one. -/
theorem refill (t : Tracks c rule trust ops b) (hrule : c.refillRule = some rule)
    (hdvd : rule.interval ∣ (ticks ops).length + 1) (now : Capability → Effective) :
    Tracks c rule trust (ops ++ [.tick now]) (b.refill (now c)) := by
  have hnone : usesIn c rule.interval (currentWindow rule.interval (ops ++ [.tick now]))
      (ops ++ [.tick now]) = 0 := by
    rw [usesIn_snoc rfl, currentWindow_tick hdvd]
    exact usesIn_eq_zero (Nat.lt_succ_self _)
  refine ⟨t.rule_eq, ?_, ?_, ?_⟩
  · rw [length_ticks_tick, Nat.mod_eq_zero_of_dvd hdvd]
    rfl
  · rw [openingTrust_tick hdvd, ← t.rule_eq]
    rfl
  · rw [hnone]
    have hceiling := ceiling_nonneg (refillRule_bounds hrule).1 (now c)
    simp only [Budget.refill, t.rule_eq]
    omega

/-- Any other tick is one more of the window. -/
theorem wait (t : Tracks c rule trust ops b) (hrule : c.refillRule = some rule)
    (hdvd : ¬ rule.interval ∣ (ticks ops).length + 1) (now : Capability → Effective) :
    Tracks c rule trust (ops ++ [.tick now]) { b with age := b.age + 1 } := by
  have hearly : (ticks ops).length % rule.interval + 1 < rule.interval := by
    rw [← t.age_eq]
    exact Nat.lt_of_not_le (mt (t.due_iff hrule).1 hdvd)
  refine ⟨t.rule_eq, ?_, ?_, ?_⟩
  · rw [length_ticks_tick, succ_mod hearly, t.age_eq]
  · rw [currentWindow_tick_of_not_dvd hdvd,
      openingTrust_snoc _ (refillRule_bounds hrule).2.1 (Nat.le_refl _)]
    exact t.ceiling_eq
  · rw [currentWindow_tick_of_not_dvd hdvd, usesIn_snoc rfl]
    exact t.remaining_eq

/-- A tick opens the next window exactly when the interval is over. -/
theorem tick (t : Tracks c rule trust ops b) (hrule : c.refillRule = some rule)
    (now : Capability → Effective) :
    Tracks c rule trust (ops ++ [.tick now]) (b.advance (now c)) := by
  have hdue := t.due_iff hrule
  by_cases hdvd : rule.interval ∣ (ticks ops).length + 1
  · have hrefill : b.advance (now c) = b.refill (now c) := by
      simp [Budget.advance, Budget.isDue, t.rule_eq, hdue.2 hdvd]
    exact hrefill ▸ t.refill hrule hdvd now
  · have hwait : b.advance (now c) = { b with age := b.age + 1 } := by
      simp [Budget.advance, Budget.isDue, t.rule_eq, mt hdue.1 hdvd]
    exact hwait ▸ t.wait hrule hdvd now

/-- The step from one state to the next. -/
theorem snoc (t : Tracks c rule trust ops b) (hrule : c.refillRule = some rule) (op : Op) :
    Tracks c rule trust (ops ++ [op]) (b.after c op) := by
  cases op with
  | use d =>
    by_cases hd : d = c
    · subst hd
      simpa [Budget.after] using t.use hrule
    · rw [Budget.after, if_neg hd]
      exact t.idle hrule (by simp [Op.isUse, hd]) rfl
  | tick now => exact t.tick hrule now
  | flag d => exact t.idle hrule rfl rfl
  | unflag d => exact t.idle hrule rfl rfl

end Tracks

/-- After any run the gate has the budget that the window calls for. -/
theorem Gate.tracks_run {c : Capability} {rule : RefillRule} (hrule : c.refillRule = some rule)
    (trust : Capability → Effective) (ops : List Op) :
    ∃ b, ((Gate.new trust).run ops).budgets[c]? = some b ∧ Tracks c rule trust ops b := by
  induction ops using List.reverseRecOn with
  | nil =>
    refine ⟨.new rule (trust c), ?_, Tracks.new c rule trust hrule⟩
    rw [run_nil, budgets_new, hrule]
    rfl
  | append_singleton ops op ih =>
    obtain ⟨b, hb, htracks⟩ := ih
    refine ⟨b.after c op, ?_, htracks.snoc hrule op⟩
    rw [run_snoc, budgets_after, hb]
    rfl

/-- A capability without a refill rule never gets a budget. -/
theorem Gate.budgets_run_eq_none {c : Capability} (hnone : c.refillRule = none)
    (trust : Capability → Effective) (ops : List Op) :
    ((Gate.new trust).run ops).budgets[c]? = none := by
  induction ops using List.reverseRecOn with
  | nil => rw [run_nil, budgets_new, hnone]; rfl
  | append_singleton ops op ih => rw [run_snoc, budgets_after, ih]; rfl

/-- The budgets of a gate are those of the refill rules. -/
theorem Gate.rule_run (trust : Capability → Effective) (ops : List Op) (c : Capability) :
    ((Gate.new trust).run ops).budgets[c]?.map Budget.rule = c.refillRule := by
  cases hrule : c.refillRule with
  | none => rw [budgets_run_eq_none hrule]; rfl
  | some rule =>
    obtain ⟨b, hb, htracks⟩ := tracks_run hrule trust ops
    rw [hb, Option.map_some, htracks.rule_eq]

/-- A budget stays within its bounds; the next tick does not take its count beyond a word. -/
theorem Gate.bounds_run (trust : Capability → Effective) (ops : List Op) {c : Capability}
    {b : Budget} (hb : ((Gate.new trust).run ops).budgets[c]? = some b) :
    0 ≤ b.remaining ∧ b.remaining ≤ b.ceiling ∧ b.ceiling ≤ b.rule.maximum ∧
      b.age + 1 < 2 ^ 32 := by
  have hrule := rule_run trust ops c
  rw [hb, Option.map_some] at hrule
  obtain ⟨b', hb', htracks⟩ := tracks_run hrule.symm trust ops
  obtain rfl : b' = b := Option.some.inj (hb'.symm.trans hb)
  obtain ⟨hmaximum, hpos, hinterval⟩ := refillRule_bounds hrule.symm
  have hnonneg := ceiling_nonneg hmaximum
    (openingTrust c b'.rule.interval trust ops (currentWindow b'.rule.interval ops))
  have hle := ceiling_le hmaximum
    (openingTrust c b'.rule.interval trust ops (currentWindow b'.rule.interval ops))
  have hceiling := htracks.ceiling_eq
  have hremaining := htracks.remaining_eq
  have hage := htracks.age_eq
  have hmod := Nat.mod_lt (ticks ops).length hpos
  refine ⟨?_, ?_, ?_, ?_⟩ <;> omega

/-! ## Decisions -/

/-- Answers to uses at the given times, after uses at `earlier` ones: granted as long as fewer uses were
made in the same window than it has units. -/
def decided (interval : Nat) (units : Nat → Nat) (earlier : List Nat) : List Nat → List (Nat × Bool)
  | [] => []
  | time :: rest =>
    (time, decide (earlier.countP (· / interval = time / interval) < units (time / interval)))
      :: decided interval units (earlier ++ [time]) rest

theorem decided_snoc (interval : Nat) (units : Nat → Nat) (earlier times : List Nat) (time : Nat) :
    decided interval units earlier (times ++ [time]) = decided interval units earlier times ++
      [(time, decide ((earlier ++ times).countP (· / interval = time / interval)
        < units (time / interval)))] := by
  induction times generalizing earlier with
  | nil => simp [decided]
  | cons first rest ih => simp [decided, ih]

/-- Only the units of windows with a use matter. -/
theorem decided_congr {interval : Nat} {units units' : Nat → Nat} (earlier times : List Nat)
    (h : ∀ time ∈ times, units (time / interval) = units' (time / interval)) :
    decided interval units earlier times = decided interval units' earlier times := by
  induction times generalizing earlier with
  | nil => rfl
  | cons first rest ih =>
    rw [decided, decided, h first List.mem_cons_self,
      ih _ fun time htime => h time (List.mem_cons_of_mem first htime)]

/-- The answers to so many uses when only the first of them are granted. -/
def firstGranted (uses units : Nat) : List Bool :=
  List.replicate (min uses units) true ++ List.replicate (uses - units) false

theorem firstGranted_succ (uses units : Nat) :
    firstGranted (uses + 1) units = firstGranted uses units ++ [decide (uses < units)] := by
  unfold firstGranted
  by_cases h : uses < units
  · rw [Nat.min_eq_left h, Nat.min_eq_left (Nat.le_of_lt h), Nat.sub_eq_zero_of_le h,
      Nat.sub_eq_zero_of_le (Nat.le_of_lt h)]
    simp [List.replicate_succ', h]
  · have hle : units ≤ uses := Nat.le_of_not_lt h
    rw [Nat.min_eq_right hle, Nat.min_eq_right (Nat.le_succ_of_le hle), Nat.succ_sub hle]
    simp [List.replicate_succ', h]

/-- Within one window the first uses are granted, as many as it has units. -/
theorem decided_window (interval : Nat) (units : Nat → Nat) (window : Nat) (times : List Nat) :
    ((decided interval units [] times).filter (·.1 / interval = window)).map (·.2) =
      firstGranted (times.countP (· / interval = window)) (units window) := by
  induction times using List.reverseRecOn with
  | nil => simp [decided, firstGranted]
  | append_singleton times time ih =>
    rw [decided_snoc, List.filter_append, List.map_append, ih, List.countP_append]
    by_cases h : time / interval = window
    · subst h
      simp [firstGranted_succ]
    · simp [h]

/-- The units of a window. -/
def windowUnits (c : Capability) (rule : RefillRule) (trust : Capability → Effective)
    (ops : List Op) (window : Nat) : Nat :=
  (ceiling rule (openingTrust c rule.interval trust ops window)).toNat

/-- What that is: nothing for an undefined value or one that is not positive, and never more than the rule allows. -/
theorem windowUnits_eq (c : Capability) (rule : RefillRule) (trust : Capability → Effective) (ops : List Op)
    (window : Nat) : windowUnits c rule trust ops window =
      match openingTrust c rule.interval trust ops window with
      | none => 0
      | some value => if value ≤ 0 then 0 else (min value rule.maximum).toNat := by
  unfold windowUnits ceiling
  cases openingTrust c rule.interval trust ops window with
  | none => rfl
  | some value =>
    by_cases hpos : 0 < value
    · simp only [if_pos hpos, if_neg (Int.not_le.2 hpos)]
    · simp only [if_neg hpos, if_pos (Int.not_lt.1 hpos), Int.toNat_zero]

/-- The answers of a gate are decided by the times of the uses and by the units of the windows. -/
theorem Gate.answers_eq_decided {c : Capability} {rule : RefillRule}
    (hrule : c.refillRule = some rule) (trust : Capability → Effective) (ops : List Op) :
    (Gate.new trust).answers c 0 ops =
      decided rule.interval (windowUnits c rule trust ops) [] (useTimes c 0 ops) := by
  have hpos := (refillRule_bounds hrule).2.1
  induction ops using List.reverseRecOn with
  | nil => rfl
  | append_singleton ops op ih =>
    have hbegun (time : Nat) (htime : time ≤ (ticks ops).length) :
        windowUnits c rule trust (ops ++ [op]) (time / rule.interval) =
          windowUnits c rule trust ops (time / rule.interval) := by
      rw [windowUnits, openingTrust_snoc op hpos (Nat.div_le_div_right htime), windowUnits]
    have hold : decided rule.interval (windowUnits c rule trust (ops ++ [op])) []
        (useTimes c 0 ops) = decided rule.interval (windowUnits c rule trust ops) []
          (useTimes c 0 ops) :=
      decided_congr [] _ fun time htime => hbegun time (useTimes_le c ops time htime)
    rw [answers_snoc, useTimes_snoc, ih]
    by_cases huse : op.isUse c = true
    · obtain ⟨b, hb, htracks⟩ := tracks_run hrule trust ops
      have hgranted : (((Gate.new trust).run ops).tryUse c).1 = b.take.1 := by
        simp [tryUse, hb]
      have hunits := hbegun (ticks ops).length (Nat.le_refl _)
      rw [if_pos huse, if_pos huse, Nat.zero_add, decided_snoc, hold, hgranted, htracks.take_fst,
        hunits, htracks.ceiling_eq, List.nil_append]
      rfl
    · rw [if_neg huse, if_neg huse, List.append_nil, List.append_nil, hold]

/-- Without a budget every answer is a refusal. -/
theorem Gate.answers_of_refillRule_eq_none {c : Capability} (hnone : c.refillRule = none)
    (trust : Capability → Effective) (ops : List Op) :
    ∀ answer ∈ (Gate.new trust).answers c 0 ops, answer.2 = false := by
  induction ops using List.reverseRecOn with
  | nil => simp [answers]
  | append_singleton ops op ih =>
    intro answer hmem
    rw [answers_snoc, List.mem_append] at hmem
    rcases hmem with hold | hnew
    · exact ih answer hold
    · split at hnew
      · have hrefused : (((Gate.new trust).run ops).tryUse c).1 = false := by
          simp [tryUse, budgets_run_eq_none hnone]
        rw [List.mem_singleton.mp hnew, hrefused]
      · simp at hnew

/-! ## The main statement -/

/-- For every run of a gate, whatever trust it is created with and whatever trust its ticks bring: each window of a
capability with a refill rule grants exactly its first uses: none if the value of trust it opened with is undefined or
not positive, and else as many as that value, or as the rule allows; nothing but the times of the uses and the opening
trusts has an influence; every budget stays within its bounds, also its count of ticks; and a capability without a
refill rule is never granted. -/
theorem gate_windows_exact (trust : Capability → Effective) (ops : List Op) :
    (∀ c rule, c.refillRule = some rule → ∀ window,
      (Gate.new trust).answersIn c rule.interval window ops =
        firstGranted (usesIn c rule.interval window ops)
          (match openingTrust c rule.interval trust ops window with
          | none => 0
          | some value => if value ≤ 0 then 0 else (min value rule.maximum).toNat)) ∧
    (∀ c rule, c.refillRule = some rule → ∀ trust' ops', useTimes c 0 ops' = useTimes c 0 ops →
      (∀ window, openingTrust c rule.interval trust' ops' window =
        openingTrust c rule.interval trust ops window) →
      (Gate.new trust').answers c 0 ops' = (Gate.new trust).answers c 0 ops) ∧
    (∀ c : Capability, ((Gate.new trust).run ops).budgets[c]?.map Budget.rule = c.refillRule) ∧
    (∀ (c : Capability) (b : Budget), ((Gate.new trust).run ops).budgets[c]? = some b →
      0 ≤ b.remaining ∧ b.remaining ≤ b.ceiling ∧ b.ceiling ≤ b.rule.maximum ∧
        b.age + 1 < 2 ^ 32) ∧
    (∀ c, c.refillRule = none → ∀ answer ∈ (Gate.new trust).answers c 0 ops, answer.2 = false) := by
  refine ⟨?_, ?_, ?_, ?_, ?_⟩
  · intro c rule hrule window
    rw [Gate.answersIn, Gate.answers_eq_decided hrule, decided_window, windowUnits_eq]
    rfl
  · intro c rule hrule trust' ops' htimes hopening
    rw [Gate.answers_eq_decided hrule, Gate.answers_eq_decided hrule, htimes]
    refine decided_congr [] _ fun time _ => ?_
    rw [windowUnits, hopening, windowUnits]
  · intro c
    exact Gate.rule_run trust ops c
  · intro c b hb
    exact Gate.bounds_run trust ops hb
  · intro c hnone
    exact Gate.answers_of_refillRule_eq_none hnone trust ops

end ScriptWarden.Quota
