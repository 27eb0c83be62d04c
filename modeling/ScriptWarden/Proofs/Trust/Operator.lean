import ScriptWarden.Proofs.Trust.Persistence
set_option autoImplicit false

/-!
# The operator's group belongs to the operator

Who the operator is stands in two places: the policy names one principal, and the entry of that
principal is in the operator's group.  `Seated` says how the two hang together, namely that no entry
is in the operator's group but that of the principal named.  Every step keeps it: whoever becomes the
operator takes the former one's seat, moving up never ends in the operator's group, and nobody comes
back from a file as the operator.

What the policy names is also what its history says (`latest`): the principal that was made the
operator last, unless the policy has been loaded since.
-/

namespace ScriptWarden.Trust

/-! ## Steps -/

/-- An edit that does not name the operator's group. -/
def Edit.Plain : Edit → Prop
  | .setGroup _ g => g ≠ .operator
  | .tier _ (.setParent g) => g ≠ .operator
  | .principal _ (.setParent g) => g ≠ .operator
  | _ => True

/-- One step in the life of a policy. -/
inductive Step where
  | edit (e : Edit) (plain : e.Plain)
  /-- Save the policy and load what was saved. -/
  | reload

/-- The policy after a step; `none` if it could not be loaded. -/
def Step.apply (d : Defaults) : Step → Policy → Option Policy
  | .edit e _, m => some (e.apply m)
  | .reload, m => Policy.load? d m.save.toUTF8.toList

/-- The policy after some steps. -/
def run (d : Defaults) (m : Policy) (steps : List Step) : Option Policy :=
  steps.foldlM (fun m s => s.apply d m) m

/-- Who is the operator after a step, as the step says. -/
def Step.latest (before : Option String) : Step → Option String
  | .edit (.withOperator p) _ => some p
  | .edit _ _ => before
  | .reload => none

/-- The principal that was made the operator last, since the policy was last loaded. -/
def latestOperator (steps : List Step) : Option String := steps.foldl Step.latest none

/-- The policies to begin with: an empty one, and any that can be loaded. -/
inductive Initial (d : Defaults) : Policy → Prop where
  | new : Initial d (.new d)
  | load {bytes : List UInt8} {m : Policy} (h : Policy.load? d bytes = some m) : Initial d m

/-! ## The seat -/

/-- An entry in the operator's group is that of the operator. -/
def Policy.Seated (m : Policy) : Prop :=
  ∀ (p : String) (e : Principal), m.principals[p]? = some e → e.group = .operator → m.operator = some p

/-- The group of an entry that is yet to be made follows the seat as well. -/
theorem Policy.Seated.entry {m : Policy} (h : m.Seated) {p : String}
    (group : (m.entry p).group = .operator) : m.operator = some p := by
  cases he : m.principals[p]? with
  | some e => exact h p e he (by rwa [entry_of_some he] at group)
  | none =>
    rw [entry_of_none he, initialGroup] at group
    split at group
    · next seat => exact seat
    · cases group

/-- Nobody else comes to the operator's group by an edit of one entry. -/
theorem Policy.Seated.edit {m : Policy} (h : m.Seated) {p : String} {f : Principal → Principal}
    (hf : (f (m.entry p)).group = .operator → m.operator = some p) : (m.edit p f).Seated := by
  intro q e hget group
  rw [getElem?_edit] at hget
  split at hget
  · next hq =>
    obtain rfl := Option.some.inj hget
    exact hq ▸ hf group
  · exact h q e hget group

/-- Who becomes the operator takes the seat of whoever was it. -/
theorem Policy.Seated.withOperator {m : Policy} (h : m.Seated) (p : String) :
    (m.withOperator p).Seated := by
  intro q e hget group
  rw [getElem?_withOperator] at hget
  split at hget
  · next hq => rw [operator_withOperator, hq]
  · split at hget
    · obtain ⟨before, -, rfl⟩ := Option.map_eq_some_iff.mp hget
      cases group
    · next other => exact absurd (h q e hget group) other

theorem promoted_operator {g : Group} (h : g.promoted = .operator) : g = .operator := by
  cases g <;> first | rfl | cases h

theorem demoted_operator {g : Group} (h : g.demoted = .operator) : g = .operator := by
  cases g <;> first | rfl | cases h

/-- Every edit that does not name the operator's group keeps it to the operator. -/
theorem Policy.Seated.apply {m : Policy} (h : m.Seated) {e : Edit} (plain : e.Plain) :
    (e.apply m).Seated := by
  cases e with
  | withOperator p => exact h.withOperator p
  | touch p => exact h.edit h.entry
  | setGroup p g => exact h.edit fun group => absurd group plain
  | promote p =>
    refine h.edit fun group => h.entry ?_
    rw [← groupOf_eq]
    exact promoted_operator group
  | demote p =>
    refine h.edit fun group => h.entry ?_
    rw [← groupOf_eq]
    exact demoted_operator group
  | tier g change => exact h
  | principal p change =>
    refine h.edit fun group => ?_
    cases change with
    | setParent g => exact absurd group plain
    | _ => exact h.entry group

/-- Nobody comes back from a file as the operator. -/
theorem Policy.unseated_ofArchive (d : Defaults) (a : Archive) :
    ∀ (p : String) (e : Principal), (ofArchive d a).principals[p]? = some e → e.group ≠ .operator := by
  obtain ⟨tiers, start⟩ := foldl_restoreTier a.groups (new d)
  rw [ofArchive, start]
  refine List.foldlRecOn (motive := fun m : Policy =>
    ∀ (p : String) (e : Principal), m.principals[p]? = some e → e.group ≠ .operator)
    a.principals _ ?_ ?_
  · intro p e hget
    simp [new] at hget
  · intro m ih r _ p e hget
    rw [restorePrincipal, Std.ExtTreeMap.getElem?_insert] at hget
    split at hget
    · obtain rfl := Option.some.inj hget
      unfold unseat
      split
      · simp [Group.initial]
      · next other => exact other
    · exact ih p e hget

theorem Policy.seated_ofArchive (d : Defaults) (a : Archive) : (ofArchive d a).Seated :=
  fun p e hget group => absurd group (unseated_ofArchive d a p e hget)

/-! ## What a history says -/

/-- What holds of a policy at every moment, `latest` being the operator that its history names. -/
structure Policy.Kept (m : Policy) (latest : Option String) : Prop where
  seated : m.Seated
  fits : m.Fits
  operator : m.operator = latest

theorem Policy.kept_of_initial {d : Defaults} {m : Policy} (h : Initial d m) : m.Kept none := by
  cases h with
  | new => exact ⟨fun p e hget => by simp [new] at hget, fits_new d, rfl⟩
  | load h =>
    have fits := fits_of_load? h
    obtain ⟨a, -, rfl⟩ := Option.map_eq_some_iff.mp h
    exact ⟨seated_ofArchive d a, fits, operator_ofArchive d a⟩

/-- A step can be taken, and what held before holds after it. -/
theorem Policy.Kept.step {m : Policy} {latest : Option String} (h : m.Kept latest) (d : Defaults)
    (s : Step) : ∃ m', s.apply d m = some m' ∧ m'.Kept (s.latest latest) := by
  cases s with
  | edit e plain =>
    refine ⟨e.apply m, rfl, h.seated.apply plain, h.fits.apply e, ?_⟩
    cases e with
    | withOperator p => rfl
    | _ => exact h.operator
  | reload =>
    have loaded := load?_save h.fits d
    exact ⟨_, loaded, seated_ofArchive d _, fits_of_load? loaded, operator_ofArchive d _⟩

theorem Policy.Kept.run {m : Policy} {latest : Option String} (h : m.Kept latest) (d : Defaults)
    (steps : List Step) :
    ∃ m', run d m steps = some m' ∧ m'.Kept (steps.foldl Step.latest latest) := by
  induction steps generalizing m latest with
  | nil => exact ⟨m, rfl, h⟩
  | cons s steps ih =>
    obtain ⟨m₁, hstep, hkept⟩ := h.step d s
    obtain ⟨m₂, hrun, hkept⟩ := ih hkept
    refine ⟨m₂, ?_, hkept⟩
    rw [Trust.run, List.foldlM_cons, hstep]
    exact hrun

/-- From any policy to begin with, any steps can be taken, and whoever is then in the operator's
group, known or not, is the principal that was made the operator last since the policy was last
loaded. -/
theorem operator_is_latest {d : Defaults} {start : Policy} (h : Initial d start) (steps : List Step) :
    ∃ m, run d start steps = some m ∧
      ∀ p, m.groupOf p = .operator → latestOperator steps = some p := by
  obtain ⟨m, hrun, kept⟩ := (Policy.kept_of_initial h).run d steps
  refine ⟨m, hrun, fun p group => ?_⟩
  rw [groupOf_eq] at group
  exact kept.operator.symm.trans (kept.seated.entry group)

/-- Moving up from a fresh start never makes anybody the operator. -/
theorem operator_is_latest_promotions :
    Initial .builtin (.new .builtin) ∧
      ∃ m, run .builtin (.new .builtin)
        [.edit (.withOperator "ada") trivial, .edit (.promote "bob") trivial, .reload,
          .edit (.promote "ada") trivial] = some m ∧
        ∀ p, m.groupOf p ≠ .operator := by
  have start : Initial .builtin (.new .builtin) := .new
  obtain ⟨m, hrun, latest⟩ := operator_is_latest start
    [.edit (.withOperator "ada") trivial, .edit (.promote "bob") trivial, .reload,
      .edit (.promote "ada") trivial]
  refine ⟨start, m, hrun, fun p group => ?_⟩
  have := latest p group
  cases this

end ScriptWarden.Trust
