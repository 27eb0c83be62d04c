import ScriptWarden.Proofs.Trust.Record
set_option autoImplicit false

/-!
# Everything that can be done to a policy

`Edit` is the closed list of what may change a policy, and `Reached` says which policies there are: an
empty one, one from a file, and whatever edits make of them.

A property of all of them is shown once for every edit and once for a file.  The one shown here is
that every value fits the 32 bits that a file has for it (`fits_of_reached`): edits bring in such
values only, and a file that holds another one is refused.
-/

namespace ScriptWarden.Trust

open Std (ExtTreeMap TransCmp LawfulEqCmp)

/-! ## Edits -/

/-- A change of what is set for a group or a principal. -/
inductive Change where
  | set (c : Capability) (n : Int32)
  | clear (c : Capability)
  | reset (c : Capability)
  | clearAll
  | setCustom (name : String) (c : Capability) (n : Int32)
  | clearCustom (name : String) (c : Capability)
  | setParent (g : Group)
  | setVisible (visible : Bool)

namespace Change

/-- A group has no custom sets and no parent, so changes of these do nothing to it. -/
def onTier : Change → Tier → Tier
  | .set c n, t => t.set c n.toInt
  | .clear c, t => t.clear c
  | .reset c, t => t.clear c
  | .clearAll, t => t.clearAll
  | .setVisible visible, t => { t with visible }
  | .setCustom .., t => t
  | .clearCustom .., t => t
  | .setParent _, t => t

/-- A principal is shown if its group is, so its own visibility is nothing. -/
def onPrincipal : Change → Principal → Principal
  | .set c n, p => p.set c n.toInt
  | .clear c, p => p.clear c
  | .reset c, p => p.reset c
  | .clearAll, p => p.clearAll
  | .setCustom name c n, p => p.setCustom name c n.toInt
  | .clearCustom name c, p => p.clearCustom name c
  | .setParent group, p => { p with group }
  | .setVisible _, p => p

end Change

/-- What may be done to a policy. -/
inductive Edit where
  | withOperator (p : String)
  /-- Give a principal an entry if it has none. -/
  | touch (p : String)
  | setGroup (p : String) (g : Group)
  | promote (p : String)
  | demote (p : String)
  | tier (g : Group) (change : Change)
  | principal (p : String) (change : Change)

/-- The policy after an edit. -/
def Edit.apply : Edit → Policy → Policy
  | .withOperator p, m => m.withOperator p
  | .touch p, m => m.edit p id
  | .setGroup p g, m => m.setGroup p g
  | .promote p, m => (m.promote p).2
  | .demote p, m => (m.demote p).2
  | .tier g change, m => m.editTier g change.onTier
  | .principal p change, m => m.edit p change.onPrincipal

/-- The policies that edits lead to, from an empty one or one that was loaded. -/
inductive Reached (d : Defaults) : Policy → Prop where
  | new : Reached d (.new d)
  | load {bytes : List UInt8} {m : Policy} (h : Policy.load? d bytes = some m) : Reached d m
  | edit {m : Policy} (h : Reached d m) (e : Edit) : Reached d (e.apply m)

/-! ## Lookups after an edit -/

namespace Policy

theorem getElem?_edit (m : Policy) (p q : String) (f : Principal → Principal) :
    (m.edit p f).principals[q]? = if p = q then some (f (m.entry p)) else m.principals[q]? := by
  simp [edit, ExtTreeMap.getElem?_insert]

theorem entry_of_some {m : Policy} {p : String} {e : Principal} (h : m.principals[p]? = some e) :
    m.entry p = e := by
  rw [entry, h, Option.getD_some]

/-- The policy without an operator: whoever was it, unless it is `p`, has fallen back. -/
def released (m : Policy) (p : String) : Policy :=
  { m with
    principals :=
      match m.operator with
      | some previous =>
        if previous = p then m.principals
        else m.principals.modify previous fun e => { e with group := .initial }
      | none => m.principals
    operator := none }

theorem getElem?_released (m : Policy) (p q : String) :
    (m.released p).principals[q]? =
      if m.operator = some q ∧ q ≠ p then m.principals[q]?.map fun e => { e with group := .initial }
      else m.principals[q]? := by
  unfold released
  dsimp only
  cases m.operator with
  | none => simp
  | some previous =>
    by_cases hprev : previous = p
    · by_cases hq : previous = q
      · simp [hprev, hq.symm.trans hprev]
      · simp [hprev, hprev ▸ hq]
    · by_cases hq : previous = q
      · subst hq
        simp [hprev]
      · have other : ¬ compare previous q = .eq := fun h => hq (LawfulEqCmp.eq_of_compare h)
        simp [hprev, hq, ExtTreeMap.getElem?_modify, other]

/-- Entries when somebody becomes the operator. -/
theorem getElem?_withOperator (m : Policy) (p q : String) :
    (m.withOperator p).principals[q]? =
      if p = q then some { m.entry p with group := .operator }
      else if m.operator = some q then
        m.principals[q]?.map fun e => { e with group := .initial }
      else m.principals[q]? := by
  have placed := getElem?_edit (m.released p) p q fun e => { e with group := .operator }
  refine placed.trans ?_
  by_cases hq : p = q
  · have own : (m.released p).principals[p]? = m.principals[p]? := by
      rw [getElem?_released, if_neg (by simp)]
    rw [if_pos hq, if_pos hq, entry, entry, own]
    cases m.principals[p]? <;> rfl
  · rw [if_neg hq, if_neg hq, getElem?_released]
    simp [Ne.symm hq]

@[simp] theorem tiers_edit (m : Policy) (p : String) (f : Principal → Principal) :
    (m.edit p f).tiers = m.tiers := rfl

@[simp] theorem operator_edit (m : Policy) (p : String) (f : Principal → Principal) :
    (m.edit p f).operator = m.operator := rfl

@[simp] theorem tiers_withOperator (m : Policy) (p : String) :
    (m.withOperator p).tiers = m.tiers := rfl

@[simp] theorem operator_withOperator (m : Policy) (p : String) :
    (m.withOperator p).operator = some p := rfl

end Policy

theorem defaults_apply (e : Edit) (m : Policy) : (e.apply m).defaults = m.defaults := by
  cases e <;> rfl

/-! ## Values that fit -/

theorem inRange_insert {α : Type} {cmp : α → α → Ordering} [TransCmp cmp]
    {values : ExtTreeMap α Int cmp} (h : InRange values) (k : α) (n : Int32) :
    InRange (values.insert k n.toInt) := by
  intro k' n' hget
  rw [ExtTreeMap.getElem?_insert] at hget
  split at hget
  · obtain rfl := Option.some.inj hget
    have low := n.le_toInt
    have high := n.toInt_lt
    omega
  · exact h k' n' hget

theorem inRange_erase {α : Type} {cmp : α → α → Ordering} [TransCmp cmp]
    {values : ExtTreeMap α Int cmp} (h : InRange values) (k : α) : InRange (values.erase k) := by
  intro k' n hget
  rw [ExtTreeMap.getElem?_erase] at hget
  split at hget
  · cases hget
  · exact h k' n hget

/-- Every value set for a principal fits a signed word of 32 bits. -/
structure Principal.Fits (p : Principal) : Prop where
  own : InRange p.overrides
  custom : ∀ (name : String) (set : Overrides), p.custom[name]? = some set → InRange set

/-- Every value set in a policy fits a signed word of 32 bits. -/
structure Policy.Fits (m : Policy) : Prop where
  tiers : ∀ g, InRange (m.tiers g).overrides
  principals : ∀ (p : String) (e : Principal), m.principals[p]? = some e → e.Fits

theorem Principal.fits_empty (g : Group) : Principal.Fits { group := g } where
  own := inRange_empty
  custom name set h := by simp at h

theorem Change.fits_onTier (change : Change) {t : Tier} (h : InRange t.overrides) :
    InRange (change.onTier t).overrides := by
  cases change with
  | set c n => exact inRange_insert h c n
  | clear c => exact inRange_erase h c
  | reset c => exact inRange_erase h c
  | clearAll => exact inRange_empty
  | setCustom name c n => exact h
  | clearCustom name c => exact h
  | setParent g => exact h
  | setVisible visible => exact h

theorem Change.fits_onPrincipal (change : Change) {p : Principal} (h : p.Fits) :
    (change.onPrincipal p).Fits := by
  cases change with
  | set c n => exact ⟨inRange_insert h.own c n, h.custom⟩
  | clear c => exact ⟨inRange_erase h.own c, h.custom⟩
  | reset c =>
    refine ⟨inRange_erase h.own c, fun name set hget => ?_⟩
    obtain ⟨before, hbefore, rfl⟩ := Option.map_eq_some_iff.mp
      ((ExtTreeMap.getElem?_map (t := p.custom)).symm.trans hget)
    exact inRange_erase (h.custom name before hbefore) c
  | clearAll => exact Principal.fits_empty p.group
  | setCustom name c n =>
    refine ⟨h.own, fun name' set hget => ?_⟩
    rw [onPrincipal, Principal.setCustom, ExtTreeMap.getElem?_insert] at hget
    split at hget
    · obtain rfl := Option.some.inj hget
      cases hset : p.custom[name]? with
      | none => exact inRange_insert inRange_empty c n
      | some before => exact inRange_insert (h.custom name before hset) c n
    · exact h.custom name' set hget
  | clearCustom name c =>
    refine ⟨h.own, fun name' set hget => ?_⟩
    rw [onPrincipal, Principal.clearCustom, ExtTreeMap.getElem?_modify] at hget
    split at hget
    · obtain ⟨before, hbefore, rfl⟩ := Option.map_eq_some_iff.mp hget
      exact inRange_erase (h.custom name before hbefore) c
    · exact h.custom name' set hget
  | setParent g => exact ⟨h.own, h.custom⟩
  | setVisible visible => exact h

namespace Policy

theorem Fits.entry {m : Policy} (h : m.Fits) (p : String) : (m.entry p).Fits := by
  unfold Policy.entry
  cases he : m.principals[p]? with
  | none => exact Principal.fits_empty _
  | some e => exact h.principals p e he

theorem Fits.edit {m : Policy} (h : m.Fits) (p : String) {f : Principal → Principal}
    (hf : ∀ e : Principal, e.Fits → (f e).Fits) : (m.edit p f).Fits where
  tiers := h.tiers
  principals q e hget := by
    rw [getElem?_edit] at hget
    split at hget
    · obtain rfl := Option.some.inj hget
      exact hf _ (h.entry p)
    · exact h.principals q e hget

theorem Fits.apply {m : Policy} (h : m.Fits) (e : Edit) : (e.apply m).Fits := by
  have move : ∀ p g, (m.setGroup p g).Fits := fun p g => h.edit p fun _ he => ⟨he.own, he.custom⟩
  cases e with
  | withOperator p =>
    refine ⟨h.tiers, fun q e hget => ?_⟩
    rw [Edit.apply, getElem?_withOperator] at hget
    split at hget
    · obtain rfl := Option.some.inj hget
      exact ⟨(h.entry p).own, (h.entry p).custom⟩
    · split at hget
      · obtain ⟨before, hbefore, rfl⟩ := Option.map_eq_some_iff.mp hget
        have fits := h.principals q before hbefore
        exact ⟨fits.own, fits.custom⟩
      · exact h.principals q e hget
  | touch p => exact h.edit p fun _ he => he
  | setGroup p g => exact move p g
  | promote p => exact move p _
  | demote p => exact move p _
  | tier g change =>
    refine ⟨fun g' => ?_, h.principals⟩
    simp only [Edit.apply, editTier]
    split
    · exact change.fits_onTier (h.tiers g)
    · exact h.tiers g'
  | principal p change => exact h.edit p fun _ he => change.fits_onPrincipal he

theorem fits_new (d : Defaults) : (new d).Fits where
  tiers _ := inRange_empty
  principals p e h := by simp [new] at h

end Policy

end ScriptWarden.Trust
