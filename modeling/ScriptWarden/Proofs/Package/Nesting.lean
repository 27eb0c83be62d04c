import ScriptWarden.Proofs.Lua.Nested
import ScriptWarden.Proofs.Package.Modules
import ScriptWarden.Proofs.Texture.Total
set_option autoImplicit false

/-!
# Packages: each module runs at most once

A module is taken out of those that have not been started before its text is run, whoever starts it and whatever becomes
of it.  So over the whole life of a package the modules that are run are entries of the package, each of them at most
once (`Chronicle.ran`), and as a call of `require` waits for a module only after it took that module out, no chain of
them is longer than the package has modules (`Chronicle.underWay_le`).
-/

namespace ScriptWarden.Package

open Bridge (moduleOf)
open Lua (Machine)
open Relation (ReflTransGen)
open Trust (Policy)

variable {t : Terms}

/-! ## What is run -/

/-- The module that a step takes out to run it, with its text; none if there is no such module. -/
def handed (started : Option String) (a : Activity) : Option (String × String) :=
  started.bind fun name => a.world.host.modules[name]?.map (name, ·)

/-- What happened to the scripts of a package, and the modules with their texts that were taken out to be run, in
order. -/
inductive Chronicle (t : Terms) : List (String × String) → Activity → Activity → Prop
  | refl (a : Activity) : Chronicle t [] a a
  | tail {ran : List (String × String)} {started : Option String} {a b c : Activity} (h : Chronicle t ran a b)
    (hdoes : Does t started b c) : Chronicle t (ran ++ (handed started b).toList) a c

theorem exists_chronicle {a b : Activity} (h : ReflTransGen (Acts t) a b) : ∃ ran, Chronicle t ran a b := by
  induction h with
  | refl => exact ⟨[], .refl _⟩
  | tail _ hacts ih =>
    obtain ⟨ran, hran⟩ := ih
    obtain ⟨started, hdoes⟩ := hacts
    exact ⟨_, hran.tail hdoes⟩

/-- What is known of the modules of a package after some were run. -/
structure Ran (modules : Modules) (ran : List (String × String)) (b : Activity) : Prop where
  grows : b.Grows
  once : (ran.map (·.1)).Nodup
  stored : ∀ name text, (name, text) ∈ ran → modules[name]? = some text
  pending : ∀ name, b.world.host.modules[name]? = if name ∈ ran.map (·.1) then none else modules[name]?

theorem Ran.step {modules : Modules} {ran : List (String × String)} {started : Option String} {b c : Activity}
    (h : Ran modules ran b) (hdoes : Does t started b c) : Ran modules (ran ++ (handed started b).toList) c := by
  have hgrows : c.Grows := (grew_of_does h.grows hdoes).grows
  have hleft (name : String) : c.world.host.modules[name]? =
      if started = some name then none else b.world.host.modules[name]? := modules_of_does h.grows hdoes name
  cases hhanded : handed started b with
  | none =>
    -- nothing is there under the name that was taken out
    refine ⟨hgrows, by simpa using h.once, by simpa using h.stored, fun name => ?_⟩
    rw [hleft, Option.toList_none, List.append_nil, ← h.pending]
    split
    · next hname =>
      subst hname
      exact (Option.map_eq_none_iff.1 hhanded).symm
    · rfl
  | some entry =>
    obtain ⟨name, rfl, hfound⟩ := Option.bind_eq_some_iff.1 hhanded
    obtain ⟨text, htext, rfl⟩ := Option.map_eq_some_iff.1 hfound
    have hfresh : name ∉ ran.map (·.1) := by
      intro hmem
      rw [h.pending, if_pos hmem] at htext
      cases htext
    have hstored : modules[name]? = some text := by
      rw [h.pending, if_neg hfresh] at htext
      exact htext
    refine ⟨hgrows, ?_, fun name' text' hmem => ?_, fun name' => ?_⟩
    · simpa [List.nodup_append] using ⟨h.once, fun n text hmem heq => hfresh (heq ▸ List.mem_map_of_mem hmem)⟩
    · rcases List.mem_append.1 hmem with hold | hnew
      · exact h.stored name' text' hold
      · obtain ⟨rfl, rfl⟩ : name' = name ∧ text' = text := by simpa using hnew
        exact hstored
    · rw [hleft, h.pending]
      by_cases hsame : name = name'
      · simp [hsame]
      · have hmem : name' ∈ (ran ++ (some (name, text)).toList).map (·.1) ↔ name' ∈ ran.map (·.1) := by
          simp [Ne.symm hsame]
        simp only [Option.some.injEq, hsame, if_false, hmem]

theorem Chronicle.ran {modules : Modules} {ran : List (String × String)} {a b : Activity} (hsetUp : SetUp t modules a)
    (h : Chronicle t ran a b) : Ran modules ran b := by
  induction h with
  | refl =>
    have hstands := stands_of_setUp hsetUp
    exact ⟨hstands.grows, List.nodup_nil, nofun, fun name => by simpa using hstands.pending name⟩
  | tail _ hdoes ih => exact (ih hsetUp).step hdoes

/-- Modules that are run once each are no more than there are. -/
theorem Ran.length_le {modules : Modules} {ran : List (String × String)} {b : Activity} (h : Ran modules ran b) :
    ran.length ≤ modules.size := by
  have hsub : ran.map (·.1) ⊆ modules.keys := by
    intro name hmem
    obtain ⟨⟨name, text⟩, hran, rfl⟩ := List.mem_map.1 hmem
    have hstored := h.stored name text hran
    exact Std.ExtTreeMap.mem_keys.2 (Std.ExtTreeMap.mem_iff_isSome_getElem?.2 (by simp [hstored]))
  simpa using (List.subperm_of_subset h.once hsub).length_le

/-! ## Calls of `require` under way -/

/-- How many calls of `require` wait for the module that they started, one inside the other. -/
def Activity.underWay : Activity → Nat
  | .idle _ _ => 0
  | .running _ m => m.underWay .require

/-- A call of `require` that starts no module is refused, and is not under way. -/
theorem underWay_plain {m : Machine Api.Services} (hplain : ∀ given, ¬ Requires m given) (policy : Policy) :
    (m.step (t.setting policy).natives).underWay .require ≤ m.underWay .require := by
  by_cases hcall : ∃ args w, m.control = .call (.host .require) args w
  · obtain ⟨args, w, hcontrol⟩ := hcall
    obtain ⟨control, stack⟩ := m
    obtain rfl : control = .call (.host .require) args w := hcontrol
    cases hgiven : Bridge.textOf? (args.headD .nil) with
    | ok given => exact absurd ⟨args, w, rfl, hgiven⟩ (hplain given)
    | error message =>
      have hlooks : Machine.step (t.setting policy).natives ⟨.call (.host .require) args w, stack⟩ =
          ⟨.look (.function (.host .require)) (Bridge.raiseHost
            ⟨Text.bytes ("bad argument #1: " ++ message), Bridge.nativePlace⟩ w), stack⟩ := by
        rw [← requireModule_refused hgiven]
        rfl
      rw [hlooks]
      exact Nat.le_refl _
  · exact Machine.underWay_step_le fun args w hcontrol => hcall ⟨args, w, hcontrol⟩

/-- A call of `require` is under way only if it took out a module. -/
theorem underWay_requires {m : Machine Api.Services} {given : String} (hrequires : Requires m given)
    (policy : Policy) : (m.step (t.setting policy).natives).underWay .require ≤
      m.underWay .require + m.world.host.modules[moduleOf given]?.toList.length := by
  rw [requires_step hrequires]
  cases m.world.host.modules[moduleOf given]? with
  | none => exact Nat.le_add_right _ _
  | some text =>
    refine Nat.le_trans (Machine.underWay_look_le m.stack (.function (.host .require)) _) ?_
    exact Nat.add_le_add_right (Nat.le_add_right _ _) 1

theorem underWay_of_does {started : Option String} {a b : Activity} (hdoes : Does t started a b) :
    b.underWay ≤ a.underWay + (handed started a).toList.length := by
  cases hdoes with
  | enter => exact Nat.zero_le _
  | refuse => exact Nat.zero_le _
  | event => exact Nat.zero_le _
  | call => exact Nat.zero_le _
  | @require todo m given policy hrequires =>
    have hstep := underWay_requires (t := t) hrequires policy
    have hhanded : (handed (some (moduleOf given)) (.running todo m)).toList.length =
        m.world.host.modules[moduleOf given]?.toList.length := by
      cases hfound : m.world.host.modules[moduleOf given]? <;> simp [handed, hfound]
    rw [hhanded]
    exact hstep
  | step policy hplain => exact underWay_plain hplain policy
  | text =>
    exact Nat.le_trans (Machine.underWay_look_le {} (.function .nil) _) (Nat.zero_le _)
  | release => exact Nat.le_trans (Machine.underWay_look_le {} .collector _) (Nat.zero_le _)
  | ended => exact Nat.zero_le _
  | host => exact Nat.zero_le _

theorem Chronicle.underWay_le {ran : List (String × String)} {a b : Activity} (h : Chronicle t ran a b)
    (hidle : a.underWay = 0) : b.underWay ≤ ran.length := by
  induction h with
  | refl => exact Nat.le_of_eq hidle
  | tail _ hdoes ih =>
    have hstep := underWay_of_does hdoes
    rw [List.length_append]
    omega

/-! ## Modules that are not there -/

/-- A machine that throws the error that names a module which cannot be started, with the modules of a world. -/
def Refuses (name : String) (w : Script.Vm Api.Thing) (m : Machine Api.Services) : Prop :=
  ∃ id w', m.control = .throw { value := .raised id } w' ∧
    w'.heap.raised[id]? = some ⟨Machine.hostText (Bridge.unknownModule name), Bridge.nativePlace⟩ ∧
    w'.host.modules = w.host.modules

/-- A script that asks for a module that is not there gets an error, two steps later. -/
theorem require_refuses {m : Machine Api.Services} {given : String} (hrequires : Requires m given)
    (hgone : m.world.host.modules[moduleOf given]? = none) (policy policy' : Policy) :
    Refuses (moduleOf given) m.world
      ((m.step (t.setting policy).natives).step (t.setting policy').natives) := by
  rw [requires_step hrequires, hgone]
  refine ⟨m.world.heap.raised.size, _, rfl, Array.getElem?_push_size, ?_⟩
  exact Texture.erase_eq_self hgone

/-- What comes of a script that asks for a module: if that has not been started, the function of its text is called, or
the script gets an error because there is no room or the text does not load; otherwise the script gets an error that
names the module. -/
def Required (t : Terms) (m : Machine Api.Services) (name : String) : Prop :=
  ∀ policy policy',
    let m' := (m.step (t.setting policy).natives).step (t.setting policy').natives
    match m.world.host.modules[name]? with
    | some text => Opens (loadable? name text m.world.heap) (taken name m.world)
      (m.stack.natives ≠ Machine.nativeLimit) m'
    | none => Refuses name m.world m'

theorem required_of_requires {m : Machine Api.Services} {given : String} (hrequires : Requires m given) :
    Required t m (moduleOf given) := by
  intro policy policy'
  have hopens := require_opens (t := t) hrequires policy policy'
  simp only
  split
  · next htext =>
    rw [htext] at hopens
    exact hopens
  · next hgone => exact require_refuses hrequires hgone policy policy'

/-! ## The life of a package -/

/-- The memory of the scripts of an instance has a chronicle from where its package was set up. -/
def Chronicled (t : Terms) (source : Source) (i : Instance) : Prop :=
  ∀ heap, i.heap = some heap → ∃ a ran todo, SetUp t source.modules a ∧
    Chronicle t ran a (.idle todo ⟨heap, i.services, none⟩)

theorem chronicled_afterAll (t : Terms) (policy : Policy) (generation : Nat) (source : Source)
    (ops : List (Policy × Operation)) : Chronicled t source (afterAll t (.new t policy generation source) ops) := by
  intro heap hheap
  obtain ⟨a, todo, hsetUp, hreaches⟩ := (lived_afterAll t policy generation source ops).heap heap hheap
  obtain ⟨ran, hran⟩ := exists_chronicle hreaches
  exact ⟨a, ran, todo, hsetUp, hran⟩

/-- **Each module runs at most once.**  Whatever is done with an instance, what its scripts did is a chronicle.  In
every chronicle, the modules that were taken out to be run are entries of the package, each of them at most once, and
exactly the others are left.  A script that asks for one of those gets its text run or an error; a script that asks
for any other name gets an error that names it, and the modules that are left stay the same.  The calls of `require`
that are under way at a time are no more than the modules that were run, and those no more than the package has. -/
theorem modules_run_at_most_once (t : Terms) (source : Source) :
    (∀ policy generation ops, Chronicled t source (afterAll t (.new t policy generation source) ops)) ∧
    ∀ a ran b, SetUp t source.modules a → Chronicle t ran a b →
      (ran.map (·.1)).Nodup ∧
      (∀ name text, (name, text) ∈ ran → source.modules[name]? = some text) ∧
      (∀ name, b.world.host.modules[name]? = if name ∈ ran.map (·.1) then none else source.modules[name]?) ∧
      (∀ todo m given, b = .running todo m → Requires m given → Required t m (moduleOf given)) ∧
      b.underWay ≤ ran.length ∧ ran.length ≤ source.modules.size := by
  refine ⟨fun policy generation ops => chronicled_afterAll t policy generation source ops,
    fun a ran b hsetUp hchronicle => ?_⟩
  have hran := hchronicle.ran hsetUp
  have hidle : a.underWay = 0 := by
    cases hsetUp
    rfl
  exact ⟨hran.once, hran.stored, hran.pending, fun todo m given _ hrequires => required_of_requires hrequires,
    hchronicle.underWay_le hidle, hran.length_le⟩

/-- A script that was started by the host and is about to start another module was run once, and may. -/
theorem paired_runs_each_once : ∃ a ran m, SetUp unlimited paired.modules a ∧
    Chronicle unlimited ran a (.running [] m) ∧ Requires m "part" ∧ (ran.map (·.1)).Nodup ∧ "part" ∉ ran.map (·.1) ∧
      Required unlimited m "part" ∧ m.underWay .require ≤ ran.length ∧ ran.length ≤ 2 := by
  obtain ⟨m, hreaches, hrequired, -, hpending⟩ := paired_reaches
  obtain ⟨ran, hchronicle⟩ := exists_chronicle hreaches
  have hrequires : Requires m "part" := requires_of_required? hrequired
  obtain ⟨honce, -, hleft, hstarts, hunderWay, hmost⟩ :=
    (modules_run_at_most_once unlimited paired).2 _ ran _ setUp_paired hchronicle
  have hname : moduleOf "part" = "part" := by decide +kernel
  refine ⟨_, ran, m, setUp_paired, hchronicle, hrequires, honce, fun hmem => ?_, ?_, hunderWay, hmost⟩
  · have hgone := hleft "part"
    rw [if_pos hmem, Activity.world_running, hpending] at hgone
    cases hgone
  · have hstarts := hstarts [] m "part" rfl hrequires
    rwa [hname] at hstarts

end ScriptWarden.Package
