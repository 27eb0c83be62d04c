import Mathlib.Logic.Function.Iterate
import ScriptWarden.Command.Memory
import ScriptWarden.Proofs.Package.Spoken
import ScriptWarden.Proofs.Text.Unsigned
set_option autoImplicit false

/-!
# The rounds of a run

A run is driven by one loop.  What a round makes of a run and what it has to tell are functions of the run
alone, so the loop is shown to be a number of such rounds, told one after the other: whatever is reached
outside, at whatever rate, and whatever the packages report.

The limit is looked at after a round.  A limit of one or more is kept exactly; with a limit of zero there
is still one round.
-/

namespace ScriptWarden

open Package (Effect Instance roomy spoken trusting)

/-! ## A round -/

/-- A tick and a frame that starts with it: the failures of both, and the packages after them. -/
def Fleet.beat (f : Fleet) : List Failure × Fleet :=
  let (ticked, f) := f.tick
  let (rendered, f) := f.render 0
  (ticked ++ rendered, f)

namespace Command

/-- The notice of a failure in a round. -/
def failureNotice (e : Failure) : Diagnostic := .warn ("[engine] " ++ e.message)

/-- What there is to tell of the next round: what it did, then its failures. -/
def Run.heard (r : Run) : List Effect :=
  r.fleet.beat.2.outbox.reverse ++ r.fleet.beat.1.map fun e => .notice (failureNotice e)

/-- The run after the next round, with all of it told. -/
def Run.next (r : Run) : Run := { r with fleet := { r.fleet.beat.2 with outbox := [] } }

theorem foldl_note (failures : List Failure) (f : Fleet) :
    failures.foldl (fun f e => f.note (failureNotice e)) f =
      { f with outbox := (failures.map fun e => .notice (failureNotice e)).reverse ++ f.outbox } := by
  induction failures generalizing f with
  | nil => rfl
  | cons e failures ih =>
    rw [List.foldl_cons, ih]
    simp [Fleet.note]

theorem drain_round (f : Fleet) :
    f.round.drain =
      (f.beat.2.outbox.reverse ++ f.beat.1.map fun e => .notice (failureNotice e),
        { f.beat.2 with outbox := [] }) := by
  have noted : f.round = f.beat.1.foldl (fun f e => f.note (failureNotice e)) f.beat.2 := rfl
  simp [noted, foldl_note, Fleet.drain]

@[simp] theorem Run.next_config (r : Run) : r.next.config = r.config := rfl

@[simp] theorem Run.iterate_next_config (r : Run) (n : Nat) : (Run.next^[n] r).config = r.config := by
  induction n with
  | zero => rfl
  | succ n ih => rw [Function.iterate_succ_apply', Run.next_config, ih]

variable {m : Type → Type} [Monad m]

/-- A round tells what there is to tell, and is then over. -/
theorem round_eq (s : Surroundings m) (r : Run) :
    round s r = do
      for e in r.heard do
        tell s (hasBackend r.config) e
      return r.next := by
  simp only [round, flush, drain_round]
  rfl

/-! ## The loop -/

/-- A wait that always ends with the next round: nobody wants the command to stop. -/
def steady (pause : Nat → Nat → m Unit) : Wait m := fun perSecond ran => do
  pause perSecond ran
  return .due

/-- A pause, and everything that is told of the round after the first `k` of a run. -/
def lapOf (s : Surroundings m) (pause : Nat → Nat → m Unit) (r : Run) (k : Nat) : m Unit := do
  pause (max r.config.ticksPerSecond 1) k
  for e in (Run.next^[k] r).heard do
    tell s (hasBackend r.config) e

/-- Exactly `n` rounds of a run. -/
def rounds (s : Surroundings m) (pause : Nat → Nat → m Unit) (n : Nat) (r : Run) : m (Nat × Run) := do
  forM (List.range n) (lapOf s pause r)
  return (n, Run.next^[n] r)

section Loop

variable [LawfulMonad m] (s : Surroundings m) (pause : Nat → Nat → m Unit)

theorem lap_steady (r : Run) (k : Nat) :
    lap s (steady pause) k (Run.next^[k] r) = do
      lapOf s pause r k
      return some (Run.next^[k + 1] r) := by
  simp [lap, steady, lapOf, round_eq, Function.iterate_succ_apply']

/-- The loop after `ran` rounds makes those that are left, one if there is none left.  The induction is
the recursion of the loop, on the rounds that are left. -/
theorem driveTo_steady (limit ran : Nat) (r : Run) (left : ran < max limit 1) :
    driveTo s (steady pause) limit ran (Run.next^[ran] r) = do
      forM (List.range' ran (max limit 1 - ran)) (lapOf s pause r)
      return (max limit 1, Run.next^[max limit 1] r) := by
  rw [driveTo, lap_steady]
  by_cases last : limit ≤ ran + 1
  · have one : max limit 1 = ran + 1 := by omega
    simp [last, one]
  · have more : max limit 1 - ran = (max limit 1 - (ran + 1)) + 1 := by omega
    have rest := driveTo_steady limit (ran + 1) r (by omega)
    rw [more, List.range'_succ, List.forM_cons]
    simp only [bind_assoc, pure_bind, last, if_false, rest]
termination_by limit - ran

/-- A run with a limit makes as many rounds as the limit says, but at least one. -/
theorem driveTo_eq_rounds (limit : Nat) (r : Run) :
    driveTo s (steady pause) limit 0 r = rounds s pause (max limit 1) r := by
  have start := driveTo_steady s pause limit 0 r (by omega)
  rwa [Nat.sub_zero, ← List.range_eq_range'] at start

end Loop

/-! ## The number of rounds among the arguments -/

theorem Request.read_cons {arg : String} (h : arg ≠ roundsOption) (r : Request) (args : List String) :
    r.read (arg :: args) = { r with directories := r.directories ++ [arg] }.read args := by
  cases args <;> simp [Request.read, h]

theorem Request.read_plain {args : List String} (h : ∀ arg ∈ args, arg ≠ roundsOption) (r : Request) :
    r.read args = ({ r with directories := r.directories ++ args }, []) := by
  induction args generalizing r with
  | nil => simp [Request.read]
  | cons arg args ih =>
    obtain ⟨other, rest⟩ := List.forall_mem_cons.1 h
    rw [Request.read_cons other, ih rest]
    simp

/-- A number of rounds is found wherever it stands, and everything else is a directory. -/
theorem Request.read_rounds {before after : List String}
    (h : ∀ arg ∈ before ++ after, arg ≠ roundsOption) {limit : Nat} (fits : limit < 2 ^ 64) (r : Request) :
    r.read (before ++ roundsOption :: toString limit :: after) =
      ({ directories := r.directories ++ before ++ after, rounds := some limit }, []) := by
  induction before generalizing r with
  | nil =>
    rw [List.nil_append] at h ⊢
    rw [Request.read, if_pos rfl, Text.unsigned?_toString fits]
    simp [Request.read_plain h]
  | cons arg before ih =>
    obtain ⟨other, rest⟩ := List.forall_mem_cons.1 h
    rw [List.cons_append, Request.read_cons other, ih rest]
    simp

/-! ## The limit -/

/-- The limit is kept.  Whatever is reached outside, at whatever rate, and whatever the packages report, a
run with a limit that nobody stops makes exactly as many rounds as the limit says, each a tick and a frame
after it, and gives their number; only a limit of zero means one round.  The command does the same with the
number among its arguments. -/
theorem limit_kept [LawfulMonad m] (s : Surroundings m) (pause : Nat → Nat → m Unit)
    (endless : Run → m (Nat × Run)) :
    (∀ limit r, drive s (steady pause) endless (some limit) r = rounds s pause (max limit 1) r) ∧
    ∀ config before after limit, (∀ arg ∈ before ++ after, arg ≠ roundsOption) → limit < 2 ^ 64 →
      run s (drive s (steady pause) endless) config (before ++ roundsOption :: toString limit :: after) =
        run s (fun _ => rounds s pause (max limit 1)) config
          (before ++ roundsOption :: toString limit :: after) := by
  have driven : ∀ limit r,
      drive s (steady pause) endless (some limit) r = rounds s pause (max limit 1) r :=
    fun limit r => driveTo_eq_rounds s pause limit r
  refine ⟨driven, fun config before after limit plain fits => ?_⟩
  simp only [run, Request.read_rounds plain fits, driven]

/-- A script that counts ticks. -/
def counting : String := "local n = 0
events:register('tick', function() n = n + 1 print(n) end)
"

/-- A directory with that script. -/
def lamps : Memory :=
  { root := .directory [("lamp", .directory [("main.lua", .file (Text.bytes counting))])] }

/-- A run with one package. -/
def hosting (i : Instance) : Run :=
  { config := {}
    fleet := { terms := roomy, policy := trusting, packages := (∅ : Std.ExtTreeMap String Instance).insert "" i } }

/-- After three rounds the script has counted as many ticks. -/
theorem counting_chars : ∃ cs, counting = String.ofList cs ∧ Package.Speaks cs Package.trusted ∧
    (Run.next^[3] (hosting (Package.running counting cs Package.trusted))).fleet.packages[""]?.map
      (·.services.log) = some [⟨"info", "3"⟩] := by
  refine ⟨_, rfl, ?_, ?_⟩ <;> decide +kernel

/-- What a number of rounds gives does not depend on what is told on the way. -/
theorem rounds_gives (pause : Nat → Nat → StateM Memory Unit) (n : Nat) (r : Run) (mem : Memory) :
    ((rounds Memory.surroundings pause n r).run mem).1 = (n, Run.next^[n] r) := rfl

/-- With a limit of three the script is told of three ticks, and the command that gets the limit among its arguments
makes three rounds. -/
theorem limit_kept_counting : ∃ i,
    (Instance.new roomy trusting 0 (spoken counting)).start roomy trusting = (.ok (), i) ∧
    (∃ r, ((Memory.drive (some 3) (hosting i)).run lamps).1 = (3, r) ∧
      r.fleet.packages[""]?.map (·.services.log) = some [⟨"info", "3"⟩]) ∧
    (∀ arg ∈ ["lamp"], arg ≠ roundsOption) ∧ 3 < 2 ^ 64 ∧
      lamps.run none [roundsOption, toString 3, "lamp"] =
        StateT.run (run Memory.surroundings (fun _ => rounds Memory.surroundings (fun _ _ => pure ()) 3) none
          [roundsOption, toString 3, "lamp"]) lamps := by
  obtain ⟨cs, htext, hspeaks, hcounted⟩ := counting_chars
  have hstart := Package.start_of_speaks Package.spokenReady_trusted htext hspeaks
  generalize Package.running counting cs Package.trusted = i at hstart hcounted
  have plain : ∀ arg ∈ ["lamp"], arg ≠ roundsOption := by decide
  obtain ⟨hdriven, hread⟩ := limit_kept Memory.surroundings (fun _ _ => pure ())
    (driveTo Memory.surroundings Memory.atOnce 1 0)
  have hthree : Memory.drive (some 3) (hosting i) =
      rounds Memory.surroundings (fun _ _ => pure ()) (max 3 1) (hosting i) := hdriven 3 (hosting i)
  have hkept := congrArg (fun act => StateT.run act lamps) (hread none [] ["lamp"] 3 plain (by decide))
  refine ⟨i, hstart, ⟨Run.next^[3] (hosting i), ?_, hcounted⟩, plain, by decide, hkept⟩
  rw [hthree, rounds_gives]
  rfl

/-- Nothing but the command itself. -/
def bare : Memory := { root := .directory [] }

/-- A run without a package. -/
def vacant : Run :=
  { config := {}, fleet := .new (.ofConfig {} Script.builtinSandbox) (.new Trust.Defaults.builtin) }

/-- With a limit of zero a round is made all the same. -/
theorem zero_limit_runs_once : ((Memory.drive (some 0) vacant).run bare).1 = (1, vacant.next) := by
  have one := driveTo_eq_rounds Memory.surroundings (fun _ _ => pure ()) 0 vacant
  exact congrArg (fun act => (StateT.run act bare).1) one

end Command

end ScriptWarden
