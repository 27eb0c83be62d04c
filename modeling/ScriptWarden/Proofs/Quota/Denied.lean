import ScriptWarden.Proofs.Quota.Windows
set_option autoImplicit false

/-!
# Quota: denied flags

A gate keeps its refusals in two places: each budget knows whether its last use was refused, and the refusals of policy
are a set of their own.  The listing of denied capabilities and the question about a single one put the two together in
different ways, and agree (`mem_denied_iff`).  Over a run, a flag says what the last decision was: ticks and new windows
leave it alone (`isDenied_run`).
-/

namespace ScriptWarden.Quota

open Trust (Capability Effective)

/-! ## The listing -/

theorem mem_foldl_flagged (budgets : List (Capability × Budget)) (flagged : Std.ExtTreeMap Capability Unit)
    (c : Capability) :
    c ∈ budgets.foldl (fun flagged entry => if entry.2.denied then flagged.insert entry.1 () else flagged) flagged ↔
      c ∈ flagged ∨ ∃ b, (c, b) ∈ budgets ∧ b.denied = true := by
  induction budgets generalizing flagged with
  | nil => simp
  | cons entry rest ih =>
    obtain ⟨d, b⟩ := entry
    rw [List.foldl_cons, ih]
    by_cases hdenied : b.denied = true
    · simp only [hdenied, if_true, Std.ExtTreeMap.mem_insert, Std.LawfulEqOrd.compare_eq_iff_eq, List.mem_cons,
        Prod.mk.injEq]
      constructor
      · rintro ((rfl | hmem) | ⟨b', hmem, hb'⟩)
        · exact .inr ⟨b, .inl ⟨rfl, rfl⟩, hdenied⟩
        · exact .inl hmem
        · exact .inr ⟨b', .inr hmem, hb'⟩
      · rintro (hmem | ⟨b', ⟨rfl, rfl⟩ | hmem, hb'⟩)
        · exact .inl (.inr hmem)
        · exact .inl (.inl rfl)
        · exact .inr ⟨b', hmem, hb'⟩
    · simp only [hdenied, List.mem_cons, Prod.mk.injEq]
      refine or_congr .rfl ⟨fun ⟨b', hmem, hb'⟩ => ⟨b', .inr hmem, hb'⟩, ?_⟩
      rintro ⟨b', ⟨rfl, rfl⟩ | hmem, hb'⟩
      · exact absurd hb' hdenied
      · exact ⟨b', hmem, hb'⟩

namespace Gate

/-- The listing names exactly the capabilities whose flag is set. -/
theorem mem_denied_iff (g : Gate) (c : Capability) : c ∈ g.denied ↔ g.isDenied c = true := by
  simp only [denied, isDenied, Std.ExtTreeMap.mem_keys, Std.ExtTreeMap.foldl_eq_foldl_toList, mem_foldl_flagged,
    Bool.or_eq_true, Std.ExtTreeMap.contains_iff_mem, Option.any_eq_true,
    Std.ExtTreeMap.mem_toList_iff_getElem?_eq_some]

end Gate

/-! ## What a run decides -/

/-- What an operation sets the flag of policy of a capability to, if it does. -/
def Op.mark? (c : Capability) : Op → Option Bool
  | .flag d => if d = c then some true else none
  | .unflag d => if d = c then some false else none
  | _ => none

/-- What a run sets the flag of policy of a capability to, one after the other. -/
def marks (c : Capability) (ops : List Op) : List Bool := ops.filterMap (Op.mark? c)

theorem marks_append (c : Capability) (ops ops' : List Op) : marks c (ops ++ ops') = marks c ops ++ marks c ops' :=
  List.filterMap_append

theorem marks_singleton (c : Capability) (op : Op) : marks c [op] = (op.mark? c).toList := by
  cases hmark : op.mark? c with
  | none => exact List.filterMap_cons_none hmark
  | some mark => exact List.filterMap_cons_some hmark

theorem marks_snoc (c : Capability) (ops : List Op) (op : Op) :
    marks c (ops ++ [op]) = marks c ops ++ (op.mark? c).toList := by
  rw [marks_append, marks_singleton]

namespace Gate

/-- What a gate answers to the uses of a capability, one after the other. -/
def replies (c : Capability) (g : Gate) (ops : List Op) : List Bool := (g.answers c 0 ops).map (·.2)

theorem replies_snoc (c : Capability) (g : Gate) (ops : List Op) (op : Op) :
    g.replies c (ops ++ [op]) =
      g.replies c ops ++ if op.isUse c then [((g.run ops).tryUse c).1] else [] := by
  rw [replies, answers_snoc, List.map_append, replies]
  split <;> rfl

theorem run_append (g : Gate) (ops ops' : List Op) : g.run (ops ++ ops') = (g.run ops).run ops' := List.foldl_append

theorem replies_append (c : Capability) (g : Gate) (ops ops' : List Op) :
    g.replies c (ops ++ ops') = g.replies c ops ++ (g.run ops).replies c ops' := by
  induction ops' using List.reverseRecOn with
  | nil => simp [replies, answers]
  | append_singleton ops' op ih =>
    rw [← List.append_assoc, replies_snoc, replies_snoc, ih, run_append, List.append_assoc]

theorem refused_after (g : Gate) (c : Capability) (op : Op) :
    (g.after op).refused.contains c = (op.mark? c).getD (g.refused.contains c) := by
  cases op with
  | use d =>
    simp only [after, tryUse]
    split <;> rfl
  | tick trust => rfl
  | flag d =>
    by_cases hd : d = c
    · simp [after, flag, Op.mark?, hd]
    · simp [after, flag, Op.mark?, hd, Std.ExtTreeMap.contains_insert]
  | unflag d =>
    by_cases hd : d = c
    · simp [after, unflag, Op.mark?, hd]
    · simp [after, unflag, Op.mark?, hd, Std.ExtTreeMap.contains_erase]

/-- Policy last said what the set of its refusals says. -/
theorem refused_run (g : Gate) (ops : List Op) (c : Capability) :
    (g.run ops).refused.contains c = (marks c ops).getLast?.getD (g.refused.contains c) := by
  induction ops using List.reverseRecOn with
  | nil => rfl
  | append_singleton ops op ih =>
    rw [run_snoc, refused_after, ih, marks_snoc]
    cases op.mark? c with
    | none => simp
    | some mark => simp

end Gate

/-- Only a use of its capability changes the flag of a budget. -/
theorem Budget.denied_after (b : Budget) (c : Capability) (op : Op) :
    (b.after c op).denied = if op.isUse c then !b.take.1 else b.denied := by
  cases op with
  | use d =>
    by_cases hd : d = c
    · simp only [after, Op.isUse, hd, if_true, decide_true, take]
      split <;> rfl
    · simp [after, Op.isUse, hd]
  | tick trust =>
    simp only [after, Op.isUse, advance, Bool.false_eq_true, if_false]
    split <;> rfl
  | flag d => rfl
  | unflag d => rfl

namespace Gate

/-- A budget is flagged exactly if its last use was refused. -/
theorem denied_run (g : Gate) (ops : List Op) (c : Capability) :
    (g.run ops).budgets[c]?.map (·.denied) =
      g.budgets[c]?.map fun b => ((g.replies c ops).getLast?.map (!·)).getD b.denied := by
  induction ops using List.reverseRecOn with
  | nil => simp [replies, answers]
  | append_singleton ops op ih =>
    rw [run_snoc, budgets_after, replies_snoc]
    cases hnow : (g.run ops).budgets[c]? with
    | none =>
      rw [hnow] at ih
      cases hfirst : g.budgets[c]? with
      | none => rfl
      | some b => simp [hfirst] at ih
    | some b =>
      have hreply : ((g.run ops).tryUse c).1 = b.take.1 := by simp [tryUse, hnow]
      rw [hnow] at ih
      rw [Option.map_some, Option.map_some, Budget.denied_after, hreply]
      by_cases huse : op.isUse c = true
      · cases hfirst : g.budgets[c]? with
        | none => simp [hfirst] at ih
        | some b₀ => simp [huse]
      · simpa [huse] using ih

/-- **The flags tell the last decision**, whatever they told before the run. -/
theorem isDenied_run (g : Gate) (ops : List Op) (c : Capability) :
    (g.run ops).isDenied c = ((marks c ops).getLast?.getD (g.refused.contains c) ||
      g.budgets[c]?.any fun b => ((g.replies c ops).getLast?.map (!·)).getD b.denied) := by
  have hbudget := congrArg (·.any id) (denied_run g ops c)
  simp only [Option.any_map, id_eq] at hbudget
  rw [isDenied, refused_run]
  congr 1

/-- In the run of a gate that was just made, a capability is denied exactly if policy flagged it last, or it has a
budget and its last use was refused. -/
theorem isDenied_run_new (trust : Capability → Effective) (ops : List Op) (c : Capability) :
    ((new trust).run ops).isDenied c = true ↔ (marks c ops).getLast? = some true ∨
      c.refillRule.isSome = true ∧ ((new trust).replies c ops).getLast? = some false := by
  have hrefused : (new trust).refused.contains c = false := rfl
  rw [isDenied_run, hrefused, budgets_new, Bool.or_eq_true]
  refine or_congr ?_ ?_
  · cases (marks c ops).getLast? <;> simp
  · cases c.refillRule with
    | none => simp
    | some rule => cases ((new trust).replies c ops).getLast? <;> simp [Budget.new]

/-- A tick leaves every flag alone, also one that opens a new window. -/
theorem isDenied_tick (g : Gate) (trust : Capability → Effective) (c : Capability) :
    (g.tick trust).isDenied c = g.isDenied c := by
  have h := isDenied_run g [.tick trust] c
  have hnone := isDenied_run g [] c
  exact h.trans hnone.symm

end Gate

end ScriptWarden.Quota
