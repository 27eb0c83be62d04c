import ScriptWarden.Proofs.Trust.Persistence
set_option autoImplicit false

/-!
# How far an edit reaches

A principal's value stands in layers: what is set for it directly, its custom sets, its group.
`Answers` says which layer the value comes from, with the custom sets in the order of the bytes of
their names, and `answers_iff` that the policy answers so.  An edit changes one layer of one principal
or one group, so whom it reaches is read off the layers that lie above.
-/

namespace ScriptWarden.Trust

open Std (ExtTreeMap TransCmp LawfulEqCmp)

/-! ## Layers -/

/-- Where a value may be set for a principal. -/
inductive Layer where
  | direct
  | custom (name : String)
  deriving DecidableEq

/-- The value that a layer holds. -/
def Principal.layer (e : Principal) : Layer → Capability → Effective
  | .direct, c => e.overrides[c]?
  | .custom name, c => e.custom[name]?.bind (·[c]?)

/-- The custom set whose name has the least bytes, of those that hold a capability, and what it
holds. -/
structure Principal.First (e : Principal) (c : Capability) (name : String) (n : Int) : Prop where
  holds : e.layer (.custom name) c = some n
  least : ∀ other, (e.layer (.custom other) c).isSome → name.toUTF8.toList ≤ other.toUTF8.toList

/-- Where the value of a principal comes from. -/
inductive Policy.Answers (m : Policy) (p : String) (c : Capability) : Effective → Prop where
  | direct {n : Int} (h : (m.entry p).layer .direct c = some n) : Answers m p c (some n)
  | custom {name : String} {n : Int} (unset : (m.entry p).layer .direct c = none)
      (first : (m.entry p).First c name n) : Answers m p c (some n)
  | group (unset : ∀ l, (m.entry p).layer l c = none) :
      Answers m p c (m.resolveGroup (m.groupOf p) c)

/-! ## Which layer answers -/

theorem values_eq_toList {α β : Type} {cmp : α → α → Ordering} [TransCmp cmp]
    (t : ExtTreeMap α β cmp) : t.values = t.toList.map Prod.snd := by
  obtain ⟨t⟩ := t
  induction t with
  | mk t =>
    change t.inner.values = (Std.DTreeMap.Internal.Impl.Const.toList t.inner).map Prod.snd
    rw [Std.DTreeMap.Internal.Impl.values_eq_map_snd,
      Std.DTreeMap.Internal.Impl.Const.toList_eq_toListModel_map, List.map_map]
    rfl

namespace Principal

theorem First.unique {e : Principal} {c : Capability} {name name' : String} {n n' : Int}
    (h : e.First c name n) (h' : e.First c name' n') : n = n' := by
  have below := h.least name' (by rw [h'.holds]; rfl)
  have above := h'.least name (by rw [h.holds]; rfl)
  have same : name = name' := by
    have bytes := List.le_antisymm below above
    rw [Text.toList_toUTF8, Text.toList_toUTF8] at bytes
    exact String.toList_inj.mp (Text.utf8_injective bytes)
  have holds := h.holds
  rw [same, h'.holds] at holds
  exact (Option.some.inj holds).symm

theorem First.congr {e e' : Principal} {c : Capability} {name : String} {n : Int}
    (h : e.First c name n) (layers : ∀ l, e'.layer l c = e.layer l c) : e'.First c name n where
  holds := (layers _).trans h.holds
  least other hother := h.least other (by rwa [← layers])

/-- The custom sets answer with what the first of them holds, or none of them holds anything. -/
theorem customValue_cases (e : Principal) (c : Capability) :
    (∃ name n, e.First c name n ∧ e.customValue c = some n) ∨
      (∀ name, e.layer (.custom name) c = none) ∧ e.customValue c = none := by
  have found : ∀ name set, (name, set) ∈ e.custom.toList ↔ e.custom[name]? = some set := fun _ _ =>
    ExtTreeMap.mem_toList_iff_getElem?_eq_some
  have listed : e.customValue c = e.custom.toList.findSome? fun x => x.2[c]? := by
    rw [customValue, values_eq_toList, List.findSome?_map]
    rfl
  cases hvalue : e.customValue c with
  | some n =>
    refine .inl ?_
    obtain ⟨before, ⟨name, set⟩, after, hlist, hset, hbefore⟩ :=
      List.findSome?_eq_some_iff.mp (listed.symm.trans hvalue)
    have hget : e.custom[name]? = some set := (found name set).mp (by simp [hlist])
    refine ⟨name, n, ⟨by rw [layer, hget]; exact hset, fun other hother => ?_⟩, rfl⟩
    obtain ⟨n', hother⟩ := Option.isSome_iff_exists.mp hother
    obtain ⟨set', hget', hset'⟩ := Option.bind_eq_some_iff.mp hother
    have mem := (found other set').mpr hget'
    rw [hlist] at mem
    rcases List.mem_append.mp mem with early | late
    · exact absurd (hbefore _ early) (by rw [hset']; simp)
    · rcases List.mem_cons.mp late with same | late
      · cases same
        exact List.le_refl _
      · -- the sets are listed in the order of their names
        have ordered := ExtTreeMap.ordered_keys_toList (t := e.custom)
        rw [hlist] at ordered
        obtain ⟨-, rest, -⟩ := List.pairwise_append.mp ordered
        have less : name < other :=
          compareOfLessAndEq_eq_lt.mp ((List.pairwise_cons.mp rest).1 _ late)
        exact List.le_of_lt (Text.toUTF8_lt_toUTF8 less)
  | none =>
    refine .inr ⟨fun name => ?_, rfl⟩
    rw [layer]
    cases hget : e.custom[name]? with
    | none => rfl
    | some set =>
      exact List.findSome?_eq_none_iff.mp (listed.symm.trans hvalue) _ ((found name set).mpr hget)

/-- What a principal overrides comes from its direct values, or else from the first of its custom
sets; or no layer holds anything. -/
theorem own_cases (e : Principal) (c : Capability) :
    (∃ n, e.layer .direct c = some n ∧ e.own c = some n) ∨
      (e.layer .direct c = none ∧ ∃ name n, e.First c name n ∧ e.own c = some n) ∨
      (∀ l, e.layer l c = none) ∧ e.own c = none := by
  cases hdirect : e.layer .direct c with
  | some n =>
    have direct : e.overrides[c]? = some n := hdirect
    exact .inl ⟨n, rfl, by rw [own, direct]; rfl⟩
  | none =>
    have direct : e.overrides[c]? = none := hdirect
    have rest : e.own c = e.customValue c := by
      rw [own, direct]
      rfl
    rw [rest]
    rcases customValue_cases e c with custom | ⟨sets, nothing⟩
    · exact .inr (.inl ⟨rfl, custom⟩)
    · refine .inr (.inr ⟨fun l => ?_, nothing⟩)
      cases l with
      | direct => exact hdirect
      | custom name => exact sets name

/-- A principal overrides a capability exactly if some layer holds it. -/
theorem hasOverride_iff (e : Principal) (c : Capability) :
    e.hasOverride c = true ↔ ∃ l n, e.layer l c = some n := by
  rw [hasOverride]
  rcases own_cases e c with ⟨n, holds, hown⟩ | ⟨-, name, n, first, hown⟩ | ⟨unset, hown⟩
  · simpa [hown] using ⟨.direct, n, holds⟩
  · simpa [hown] using ⟨.custom name, n, first.holds⟩
  · simp [hown, unset]

end Principal

namespace Policy

/-- Some layer answers with the value of a principal. -/
theorem answers_resolve (m : Policy) (p : String) (c : Capability) :
    m.Answers p c (m.resolve p c) := by
  rw [resolve_eq, ← groupOf_eq]
  rcases (m.entry p).own_cases c with ⟨n, holds, hown⟩ | ⟨direct, name, n, first, hown⟩ | ⟨unset, hown⟩
  · rw [hown]
    exact .direct holds
  · rw [hown]
    exact .custom direct first
  · rw [hown]
    exact .group unset

/-- No two layers answer differently. -/
theorem Answers.unique {m : Policy} {p : String} {c : Capability} {v v' : Effective}
    (h : m.Answers p c v) (h' : m.Answers p c v') : v = v' := by
  cases h with
  | direct holds =>
    cases h' with
    | direct holds' => exact holds.symm.trans holds'
    | custom direct => rw [direct] at holds; cases holds
    | group unset => rw [unset] at holds; cases holds
  | custom direct first =>
    cases h' with
    | direct holds => rw [direct] at holds; cases holds
    | custom _ first' => rw [first.unique first']
    | group unset => have := first.holds; rw [unset] at this; cases this
  | group unset =>
    cases h' with
    | direct holds => rw [unset] at holds; cases holds
    | custom _ first => have := first.holds; rw [unset] at this; cases this
    | group _ => rfl

/-- The value of a principal is what its first layer that holds one answers with. -/
theorem answers_iff (m : Policy) (p : String) (c : Capability) (v : Effective) :
    m.Answers p c v ↔ m.resolve p c = v :=
  ⟨fun h => (m.answers_resolve p c).unique h, fun h => h ▸ m.answers_resolve p c⟩

/-- The same layers over a group of the same value answer alike. -/
theorem Answers.congr {m m' : Policy} {p : String} {c : Capability} {v : Effective}
    (h : m.Answers p c v) (layers : ∀ l, (m'.entry p).layer l c = (m.entry p).layer l c)
    (group : m'.resolveGroup (m'.groupOf p) c = m.resolveGroup (m.groupOf p) c) :
    m'.Answers p c v := by
  cases h with
  | direct holds => exact .direct ((layers _).trans holds)
  | custom direct first => exact .custom ((layers _).trans direct) (first.congr layers)
  | group unset =>
    rw [← group]
    exact .group fun l => (layers l).trans (unset l)

theorem resolve_congr {m m' : Policy} {p : String} {c : Capability}
    (layers : ∀ l, (m'.entry p).layer l c = (m.entry p).layer l c)
    (group : m'.resolveGroup (m'.groupOf p) c = m.resolveGroup (m.groupOf p) c) :
    m'.resolve p c = m.resolve p c :=
  (answers_iff m' p c _).mp ((m.answers_resolve p c).congr layers group)

/-- Where a layer holds a value, the group does not matter. -/
theorem resolve_congr_of_override {m m' : Policy} {p : String} {c : Capability}
    (layers : ∀ l, (m'.entry p).layer l c = (m.entry p).layer l c)
    (overridden : (m.entry p).hasOverride c = true) : m'.resolve p c = m.resolve p c := by
  obtain ⟨l, n, holds⟩ := ((m.entry p).hasOverride_iff c).mp overridden
  refine (answers_iff m' p c _).mp ?_
  have answers := m.answers_resolve p c
  generalize m.resolve p c = v at answers
  cases answers with
  | direct holds => exact .direct ((layers _).trans holds)
  | custom direct first => exact .custom ((layers _).trans direct) (first.congr layers)
  | group unset =>
    rw [unset] at holds
    cases holds

/-- A principal that overrides nothing has the value of its group. -/
theorem resolve_of_unset {m : Policy} {p : String} {c : Capability}
    (unset : ∀ l, (m.entry p).layer l c = none) :
    m.resolve p c = m.resolveGroup (m.groupOf p) c :=
  (answers_iff m p c _).mp (.group unset)

theorem entry_edit (m : Policy) (p q : String) (f : Principal → Principal) :
    (m.edit p f).entry q = if p = q then f (m.entry p) else m.entry q := by
  unfold entry
  rw [getElem?_edit]
  split <;> rfl

end Policy

namespace Principal

theorem layer_set (e : Principal) (c d : Capability) (n : Int) (l : Layer) :
    (e.set c n).layer l d = if c = d ∧ l = .direct then some n else e.layer l d := by
  cases l <;> simp [set, layer, ExtTreeMap.getElem?_insert]

theorem layer_clear (e : Principal) (c d : Capability) (l : Layer) :
    (e.clear c).layer l d = if c = d ∧ l = .direct then none else e.layer l d := by
  cases l <;> simp [clear, layer, ExtTreeMap.getElem?_erase]

theorem layer_reset (e : Principal) (c d : Capability) (l : Layer) :
    (e.reset c).layer l d = if c = d then none else e.layer l d := by
  cases l with
  | direct => simp [reset, layer, ExtTreeMap.getElem?_erase]
  | custom name =>
    cases hget : e.custom[name]? <;> simp [reset, layer, hget, ExtTreeMap.getElem?_erase]

theorem layer_setCustom (e : Principal) (name : String) (c d : Capability) (n : Int) (l : Layer) :
    (e.setCustom name c n).layer l d =
      if c = d ∧ l = .custom name then some n else e.layer l d := by
  cases l with
  | direct => simp [setCustom, layer]
  | custom other =>
    by_cases same : other = name
    · subst same
      cases hget : e.custom[other]? <;> simp [setCustom, layer, hget, ExtTreeMap.getElem?_insert]
    · simp [setCustom, layer, ExtTreeMap.getElem?_insert, same, Ne.symm same]

theorem layer_clearCustom (e : Principal) (name : String) (c d : Capability) (l : Layer) :
    (e.clearCustom name c).layer l d =
      if c = d ∧ l = .custom name then none else e.layer l d := by
  cases l with
  | direct => simp [clearCustom, layer]
  | custom other =>
    by_cases same : other = name
    · subst same
      cases hget : e.custom[other]? <;> simp [clearCustom, layer, hget, ExtTreeMap.getElem?_erase]
    · simp [clearCustom, layer, ExtTreeMap.getElem?_modify, same, Ne.symm same]

end Principal

/-! ## Changes of one value -/

/-- A change of one capability's value, without the capability. -/
inductive Assignment where
  | set (n : Int32)
  | clear
  | reset
  | setCustom (name : String) (n : Int32)
  | clearCustom (name : String)

namespace Assignment

/-- The change for a capability. -/
def of (a : Assignment) (c : Capability) : Change :=
  match a with
  | .set n => .set c n
  | .clear => .clear c
  | .reset => .reset c
  | .setCustom name n => .setCustom name c n
  | .clearCustom name => .clearCustom name c

/-- What a layer holds afterwards, if it held `before`. -/
def after (a : Assignment) (l : Layer) (before : Effective) : Effective :=
  match a, l with
  | .set n, .direct => some n.toInt
  | .clear, .direct => none
  | .reset, _ => none
  | .setCustom name n, .custom other => if other = name then some n.toInt else before
  | .clearCustom name, .custom other => if other = name then none else before
  | _, _ => before

/-- A change writes one capability, in the layers it is about. -/
theorem layer_onPrincipal (a : Assignment) (c d : Capability) (e : Principal) (l : Layer) :
    ((a.of c).onPrincipal e).layer l d =
      if c = d then a.after l (e.layer l d) else e.layer l d := by
  cases a with
  | set n => exact (e.layer_set c d n.toInt l).trans (by cases l <;> simp [after])
  | clear => exact (e.layer_clear c d l).trans (by cases l <;> simp [after])
  | reset => exact (e.layer_reset c d l).trans (by simp [after])
  | setCustom name n =>
    refine (e.layer_setCustom name c d n.toInt l).trans ?_
    by_cases hc : c = d <;> cases l <;> simp [after, hc]
  | clearCustom name =>
    refine (e.layer_clearCustom name c d l).trans ?_
    by_cases hc : c = d <;> cases l <;> simp [after, hc]

/-- For a group there is one layer, which a change of a custom set leaves alone. -/
theorem overrides_onTier (a : Assignment) (c d : Capability) (t : Tier) :
    ((a.of c).onTier t).overrides[d]? =
      if c = d then a.after .direct t.overrides[d]? else t.overrides[d]? := by
  cases a with
  | set n => simp [of, after, Change.onTier, Tier.set, ExtTreeMap.getElem?_insert]
  | clear => simp [of, after, Change.onTier, Tier.clear, ExtTreeMap.getElem?_erase]
  | reset => simp [of, after, Change.onTier, Tier.clear, ExtTreeMap.getElem?_erase]
  | setCustom name n => simp [of, after, Change.onTier]
  | clearCustom name => simp [of, after, Change.onTier]

theorem group_onPrincipal (a : Assignment) (c : Capability) (e : Principal) :
    ((a.of c).onPrincipal e).group = e.group := by
  cases a <;> rfl

end Assignment

/-! ## The reach of an edit -/

/-- What a change of a principal's value reaches.  The layers say what is set for the principal
afterwards, and so which layer answers; nobody else's value changes, and no other value of the
principal. -/
structure Policy.PrincipalReach (m : Policy) (p : String) (c : Capability) (a : Assignment)
    (m' : Policy) : Prop where
  others : ∀ q d, q ≠ p ∨ d ≠ c → m'.resolve q d = m.resolve q d
  layers : ∀ l, (m'.entry p).layer l c = a.after l ((m.entry p).layer l c)
  group : m'.resolveGroup (m'.groupOf p) c = m.resolveGroup (m.groupOf p) c
  answers : ∀ v, m'.resolve p c = v ↔ m'.Answers p c v
  reset : a = .reset → m'.resolve p c = m.resolveGroup (m.groupOf p) c

/-- What a change of a group's value reaches: the principals of the group that do not override it. -/
structure Policy.TierReach (m : Policy) (g : Group) (c : Capability) (a : Assignment)
    (m' : Policy) : Prop where
  value : m'.resolveGroup g c = (a.after .direct (m.tiers g).overrides[c]? <|> m.defaults.value g c)
  inherits : ∀ q, m.groupOf q = g → (∀ l, (m.entry q).layer l c = none) →
    m'.resolve q c = m'.resolveGroup g c
  others : ∀ q d, ¬ (d = c ∧ m.groupOf q = g ∧ ∀ l, (m.entry q).layer l c = none) →
    m'.resolve q d = m.resolve q d

/-- What a move of a principal to a group reaches: the values that the principal does not override. -/
structure Policy.MoveReach (m : Policy) (p : String) (g : Group) (m' : Policy) : Prop where
  group : m'.groupOf p = g
  others : ∀ q, q ≠ p → m'.groupOf q = m.groupOf q ∧ m'.principals[q]? = m.principals[q]? ∧
    ∀ c, m'.resolve q c = m.resolve q c
  overridden : ∀ c, (∃ l n, (m.entry p).layer l c = some n) → m'.resolve p c = m.resolve p c
  inherits : ∀ c, (∀ l, (m.entry p).layer l c = none) → m'.resolve p c = m.resolveGroup g c
  back : ∀ q c, (m'.setGroup p (m.groupOf p)).resolve q c = m.resolve q c

namespace Policy

/-- An edit of one entry does not reach the others. -/
theorem resolve_edit_of_ne {m : Policy} {p q : String} (f : Principal → Principal) (h : q ≠ p)
    (c : Capability) : (m.edit p f).resolve q c = m.resolve q c := by
  have entry : (m.edit p f).entry q = m.entry q := by rw [entry_edit, if_neg h.symm]
  rw [resolve_eq, resolve_eq, entry]
  rfl

theorem principalReach (m : Policy) (p : String) (c : Capability) (a : Assignment) :
    m.PrincipalReach p c a ((Edit.principal p (a.of c)).apply m) := by
  have entry : ((Edit.principal p (a.of c)).apply m).entry p = (a.of c).onPrincipal (m.entry p) :=
    (entry_edit m p p _).trans (if_pos rfl)
  have layers : ∀ l d, (((Edit.principal p (a.of c)).apply m).entry p).layer l d =
      if c = d then a.after l ((m.entry p).layer l d) else (m.entry p).layer l d := by
    intro l d
    rw [entry, a.layer_onPrincipal]
  have group : ∀ d, ((Edit.principal p (a.of c)).apply m).resolveGroup
      (((Edit.principal p (a.of c)).apply m).groupOf p) d = m.resolveGroup (m.groupOf p) d := by
    intro d
    rw [groupOf_eq, groupOf_eq, entry, a.group_onPrincipal]
    rfl
  refine ⟨?_, fun l => ?_, group c, fun v => (answers_iff _ p c v).symm, ?_⟩
  · rintro q d (hq | hd)
    · exact resolve_edit_of_ne _ hq d
    · by_cases hq : q = p
      · subst hq
        refine resolve_congr (fun l => ?_) (group d)
        rw [layers, if_neg hd.symm]
      · exact resolve_edit_of_ne _ hq d
  · rw [layers, if_pos rfl]
  · rintro rfl
    rw [← group c]
    refine resolve_of_unset fun l => ?_
    rw [layers, if_pos rfl]
    rfl

theorem tierReach (m : Policy) (g : Group) (c : Capability) (a : Assignment) :
    m.TierReach g c a ((Edit.tier g (a.of c)).apply m) := by
  have value : ∀ h d, ((Edit.tier g (a.of c)).apply m).resolveGroup h d =
      if h = g ∧ c = d then (a.after .direct (m.tiers g).overrides[d]? <|> m.defaults.value g d)
      else m.resolveGroup h d := by
    intro h d
    by_cases hg : h = g
    · subst hg
      by_cases hc : c = d <;> simp [Edit.apply, editTier, resolveGroup, a.overrides_onTier, hc]
    · simp [Edit.apply, editTier, resolveGroup, hg]
  refine ⟨(value g c).trans (if_pos ⟨rfl, rfl⟩), ?_, ?_⟩
  · rintro q rfl unset
    exact resolve_of_unset unset
  · intro q d outside
    by_cases reached : m.groupOf q = g ∧ c = d
    · obtain ⟨hg, rfl⟩ := reached
      have overridden : (m.entry q).hasOverride c = true := by
        rw [Principal.hasOverride_iff]
        simp [hg, Option.eq_none_iff_forall_ne_some] at outside
        exact outside
      exact resolve_congr_of_override (fun _ => rfl) overridden
    · refine resolve_congr (fun _ => rfl) ?_
      exact (value _ d).trans (if_neg reached)

theorem moveReach (m : Policy) (p : String) (g : Group) : m.MoveReach p g (m.setGroup p g) := by
  have entry : (m.setGroup p g).entry p = { m.entry p with group := g } :=
    (entry_edit m p p _).trans (if_pos rfl)
  have group : (m.setGroup p g).groupOf p = g := by rw [groupOf_eq, entry]
  have layers : ∀ l c, ((m.setGroup p g).entry p).layer l c = (m.entry p).layer l c := by
    intro l c
    rw [entry]
    cases l <;> rfl
  refine ⟨group, fun q hq => ⟨?_, ?_, resolve_edit_of_ne _ hq⟩, fun c h => ?_, fun c unset => ?_, ?_⟩
  · rw [groupOf_eq, groupOf_eq, setGroup, entry_edit, if_neg hq.symm]
  · rw [setGroup, getElem?_edit, if_neg hq.symm]
  · exact resolve_congr_of_override (fun l => layers l c) ((Principal.hasOverride_iff _ c).mpr h)
  · have inherited := resolve_of_unset fun l => (layers l c).trans (unset l)
    rw [inherited, group]
    rfl
  · intro q c
    by_cases hq : q = p
    · subst hq
      have back : ((m.setGroup q g).setGroup q (m.groupOf q)).entry q = m.entry q := by
        rw [setGroup, entry_edit, if_pos rfl, entry, groupOf_eq]
      rw [resolve_eq, resolve_eq, back]
      rfl
    · exact (resolve_edit_of_ne _ hq c).trans (resolve_edit_of_ne _ hq c)

end Policy

/-- Edits of a policy reach what they are about and nothing else, whatever the policy is. -/
theorem edits_reach (m : Policy) :
    (∀ p c a, m.PrincipalReach p c a ((Edit.principal p (Assignment.of a c)).apply m)) ∧
    (∀ g c a, m.TierReach g c a ((Edit.tier g (Assignment.of a c)).apply m)) ∧
    (∀ p g, m.MoveReach p g ((Edit.setGroup p g).apply m)) ∧
    (∀ p, m.MoveReach p (m.promote p).1 ((Edit.promote p).apply m)) ∧
    ∀ p, m.MoveReach p (m.demote p).1 ((Edit.demote p).apply m) :=
  ⟨m.principalReach, m.tierReach, m.moveReach, fun p => m.moveReach p _, fun p => m.moveReach p _⟩

end ScriptWarden.Trust
