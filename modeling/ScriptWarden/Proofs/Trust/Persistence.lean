import ScriptWarden.Proofs.Trust.Edits
set_option autoImplicit false

/-!
# A policy after it was saved and loaded

Three things are lost on the way through a file: what was set for a blocked principal, the seat of the
operator, and entries in which nothing is set.  Everything else comes back as it was.

The proof follows the file.  Its text holds the archive it was written for (`load?_save`), so the
loaded policy is that of the archive; of this policy every lookup is known from the old one
(`tiers_ofArchive`, `getElem?_ofArchive`), and `kept` is what becomes of one entry.
-/

namespace ScriptWarden.Trust

open Std (ExtTreeMap TransCmp LawfulEqCmp)

/-! ## One record -/

namespace Record

theorem inRange_named {o : Overrides} (h : InRange o) : InRange (named o) := by
  intro s n hget
  obtain ⟨c, -, hc⟩ := (getElem?_named o s n).mp hget
  exact h c n hc

theorem inRange_overrides {values : ExtTreeMap String Int} (h : InRange values) :
    InRange (overrides values) := by
  intro c n hget
  exact h c.name n ((getElem?_overrides values c n).mp hget)

theorem fits_ofTier {t : Tier} (h : InRange t.overrides) (g : Group) : (ofTier g t).Fits where
  trust := inRange_named h
  custom name values hget := by simp [ofTier] at hget

theorem fits_ofPrincipal {p : Principal} (h : p.Fits) (name : String) :
    (ofPrincipal name p).Fits := by
  unfold ofPrincipal
  split
  · exact ⟨inRange_empty, fun name values hget => by simp at hget⟩
  · refine ⟨inRange_named h.own, fun set values hget => ?_⟩
    obtain ⟨o, ho, rfl⟩ := Option.map_eq_some_iff.mp
      ((ExtTreeMap.getElem?_map (t := p.custom)).symm.trans hget)
    exact inRange_named (h.custom set o ho)

/-- The record of a group stands for the group. -/
theorem toTier?_ofTier (g : Group) (t : Tier) : (ofTier g t).toTier? = some (g, t) := by
  simp [toTier?, ofTier, Group.ofName?_name, overrides_named]

/-- The record of a principal stands for the principal, unless it is blocked. -/
theorem toPrincipal_ofPrincipal {p : Principal} (h : p.group ≠ .blocked) (name : String) :
    (ofPrincipal name p).toPrincipal = p := by
  have custom : (p.custom.map fun _ set => named set).map (fun _ values => overrides values) =
      p.custom := by
    refine ExtTreeMap.ext_getElem? fun k => ?_
    rw [ExtTreeMap.getElem?_map, ExtTreeMap.getElem?_map, Option.map_map]
    have undo : (overrides ∘ named) = id := funext overrides_named
    rw [undo, Option.map_id_fun, id_eq]
  rw [ofPrincipal, if_neg h]
  simp [toPrincipal, Group.ofName?_name, overrides_named, custom]

theorem toPrincipal_ofPrincipal_blocked {p : Principal} (h : p.group = .blocked) (name : String) :
    (ofPrincipal name p).toPrincipal = { group := .blocked } := by
  have nothing : overrides ∅ = ∅ := rfl
  rw [ofPrincipal, if_pos h, h]
  simp [toPrincipal, Group.ofName?_name, nothing]

theorem name_ofPrincipal (name : String) (p : Principal) : (ofPrincipal name p).name = name := by
  unfold ofPrincipal
  split <;> rfl

end Record

/-! ## The policy of an archive -/

/-- What becomes of an entry on its way through a file. -/
def Principal.kept (e : Principal) : Option Principal :=
  if e.hasChanges || e.group ≠ .initial then
    some (if e.group = .blocked then { group := .blocked } else Policy.unseat e)
  else none

namespace Policy

theorem foldl_restorePrincipal (records : List Record) (m : Policy) :
    records.foldl restorePrincipal m =
      { m with
        principals := m.principals.insertMany
          (records.map fun r => (r.name, unseat r.toPrincipal)) } := by
  induction records generalizing m with
  | nil => rfl
  | cons r records ih =>
    rw [List.foldl_cons, ih, List.map_cons, ExtTreeMap.insertMany_cons]
    rfl

theorem foldl_restoreTier (records : List Record) (m : Policy) :
    ∃ tiers, records.foldl restoreTier m = { m with tiers } := by
  induction records generalizing m with
  | nil => exact ⟨m.tiers, rfl⟩
  | cons r records ih =>
    obtain ⟨tiers, h⟩ := ih (m.restoreTier r)
    refine ⟨tiers, ?_⟩
    rw [List.foldl_cons, h]
    unfold restoreTier
    split <;> rfl

/-- The record of a group, if it holds anything. -/
def tierRecord? (m : Policy) (g : Group) : Option Record :=
  if (m.tiers g).hasChanges || !(m.tiers g).visible then some (.ofTier g (m.tiers g)) else none

/-- A group that is not written is as it is in the beginning. -/
theorem tier_of_not_written {m : Policy} {g : Group} (h : m.tierRecord? g = none) :
    m.tiers g = {} := by
  have unchanged : ¬ ((m.tiers g).hasChanges || !(m.tiers g).visible) = true := by
    intro e
    rw [tierRecord?, if_pos e] at h
    cases h
  simp only [Tier.hasChanges, Bool.or_eq_true, Bool.not_eq_true', not_or, Bool.not_eq_false]
    at unchanged
  have empty : (m.tiers g).overrides = ∅ := ExtTreeMap.isEmpty_iff.mp unchanged.1
  have shown : (m.tiers g).visible = true := unchanged.2
  rcases htier : m.tiers g with ⟨overrides, visible⟩
  rw [htier] at empty shown
  obtain rfl : overrides = ∅ := empty
  obtain rfl : visible = true := shown
  rfl

theorem tiers_restoreTier (start : Policy) (g h : Group) (t : Tier) :
    (start.restoreTier (.ofTier g t)).tiers h = if h = g then t else start.tiers h := by
  simp [restoreTier, Record.toTier?_ofTier, editTier]

/-- Groups that are put back one after the other, over groups in which nothing is set, are as they
were. -/
theorem tiers_restored (m : Policy) (groups : List Group) (start : Policy) (g : Group)
    (fresh : start.tiers g = {} ∨ start.tiers g = m.tiers g)
    (listed : g ∈ groups ∨ start.tiers g = m.tiers g) :
    ((groups.filterMap m.tierRecord?).foldl restoreTier start).tiers g = m.tiers g := by
  induction groups generalizing start with
  | nil => exact listed.resolve_left (by simp)
  | cons x groups ih =>
    rw [List.filterMap_cons]
    cases hx : m.tierRecord? x with
    | none =>
      refine ih start fresh ?_
      rcases listed with hmem | same
      · rcases List.mem_cons.mp hmem with rfl | hmem
        · -- nothing is written of this group, for nothing is set in it
          right
          rw [tier_of_not_written hx] at fresh ⊢
          exact fresh.elim id id
        · exact .inl hmem
      · exact .inr same
    | some r =>
      obtain ⟨-, hr⟩ := Option.ite_none_right_eq_some.mp hx
      obtain rfl := Option.some.inj hr
      rw [List.foldl_cons]
      by_cases hg : g = x
      · have back : (start.restoreTier (.ofTier x (m.tiers x))).tiers g = m.tiers g := by
          rw [tiers_restoreTier, if_pos hg, hg]
        exact ih _ (.inr back) (.inr back)
      · have other : (start.restoreTier (.ofTier x (m.tiers x))).tiers g = start.tiers g := by
          rw [tiers_restoreTier, if_neg hg]
        refine ih _ (other ▸ fresh) ?_
        rcases listed with hmem | same
        · exact .inl ((List.mem_cons.mp hmem).resolve_left hg)
        · exact .inr (other ▸ same)

/-- The record of a principal, if there is anything to keep of it. -/
def principalRecord? (x : String × Principal) : Option Record :=
  if x.2.hasChanges || x.2.group ≠ .initial then some (.ofPrincipal x.1 x.2) else none

theorem toArchive_eq (m : Policy) :
    m.toArchive = ⟨Group.all.filterMap m.tierRecord?, m.principals.toList.filterMap principalRecord?⟩ :=
  rfl

/-- Reading the record of an entry gives what is kept of it. -/
theorem kept_eq (x : String × Principal) :
    (principalRecord? x).map (fun r => (r.name, unseat r.toPrincipal)) =
      x.2.kept.map fun e => (x.1, e) := by
  unfold principalRecord? Principal.kept
  split
  · by_cases blocked : x.2.group = .blocked
    · simp [Record.name_ofPrincipal, Record.toPrincipal_ofPrincipal_blocked blocked, blocked, unseat]
    · simp [Record.name_ofPrincipal, Record.toPrincipal_ofPrincipal blocked, blocked]
  · rfl

/-- Every group of the archive's policy is as it was. -/
theorem tiers_ofArchive (d : Defaults) (m : Policy) (g : Group) :
    (ofArchive d m.toArchive).tiers g = m.tiers g := by
  rw [ofArchive, foldl_restorePrincipal, toArchive_eq]
  exact tiers_restored m Group.all (new d) g (.inl rfl) (.inl (Group.mem_all g))

/-- Every entry of the archive's policy is what is kept of the old one. -/
theorem getElem?_ofArchive (d : Defaults) (m : Policy) (p : String) :
    (ofArchive d m.toArchive).principals[p]? = m.principals[p]?.bind Principal.kept := by
  have entries : (ofArchive d m.toArchive).principals = ExtTreeMap.ofList
      (m.principals.toList.filterMap fun x => x.2.kept.map fun e => (x.1, e)) compare := by
    obtain ⟨tiers, h⟩ := foldl_restoreTier (Group.all.filterMap m.tierRecord?) (new d)
    rw [ofArchive, foldl_restorePrincipal, toArchive_eq, h, List.map_filterMap,
      ExtTreeMap.ofList_eq_insertMany_empty]
    simp only [kept_eq]
    rfl
  refine Option.ext fun e => ?_
  rw [entries, getElem?_rekey, Option.bind_eq_some_iff]
  · constructor
    · rintro ⟨q, old, hget, hplace⟩
      obtain ⟨e', he', same⟩ := Option.map_eq_some_iff.mp hplace
      cases same
      exact ⟨old, hget, he'⟩
    · rintro ⟨old, hget, hkept⟩
      exact ⟨p, old, hget, by rw [hkept]; rfl⟩
  · rintro x y u v hu hv same
    obtain ⟨_, _, rfl⟩ := Option.map_eq_some_iff.mp hu
    obtain ⟨_, _, rfl⟩ := Option.map_eq_some_iff.mp hv
    exact same

theorem defaults_ofArchive (d : Defaults) (a : Archive) : (ofArchive d a).defaults = d := by
  obtain ⟨tiers, h⟩ := foldl_restoreTier a.groups (new d)
  rw [ofArchive, foldl_restorePrincipal, h]
  rfl

theorem operator_ofArchive (d : Defaults) (a : Archive) : (ofArchive d a).operator = none := by
  obtain ⟨tiers, h⟩ := foldl_restoreTier a.groups (new d)
  rw [ofArchive, foldl_restorePrincipal, h]
  rfl

/-! ## Through the file -/

/-- A policy whose values fit can be loaded again, and what is loaded is what its archive stands
for. -/
theorem load?_save {m : Policy} (h : m.Fits) (d : Defaults) :
    load? d m.save.toUTF8.toList = some (ofArchive d m.toArchive) := by
  have groups : ∀ r ∈ m.toArchive.groups, r.Fits := by
    intro r hr
    obtain ⟨g, -, hg⟩ := List.mem_filterMap.mp hr
    obtain ⟨-, e⟩ := Option.ite_none_right_eq_some.mp hg
    cases e
    exact Record.fits_ofTier (h.tiers g) g
  have principals : ∀ r ∈ m.toArchive.principals, r.Fits := by
    intro r hr
    obtain ⟨x, hx, hr⟩ := List.mem_filterMap.mp hr
    obtain ⟨-, e⟩ := Option.ite_none_right_eq_some.mp hr
    cases e
    exact Record.fits_ofPrincipal
      (h.principals x.1 x.2 (ExtTreeMap.mem_toList_iff_getElem?_eq_some.mp hx)) x.1
  rw [load?, save, readArchive?_pretty groups principals]
  rfl

theorem Fits.restoreTier {m : Policy} (h : m.Fits) {r : Record} (hr : r.Fits) :
    (m.restoreTier r).Fits := by
  unfold Policy.restoreTier
  split
  · next g t ht =>
    obtain ⟨g', -, e⟩ := Option.map_eq_some_iff.mp ht
    cases e
    refine ⟨fun g' => ?_, h.principals⟩
    simp only [editTier]
    split
    · exact Record.inRange_overrides hr.trust
    · exact h.tiers g'
  · exact h

theorem Fits.restorePrincipal {m : Policy} (h : m.Fits) {r : Record} (hr : r.Fits) :
    (m.restorePrincipal r).Fits := by
  have fits : r.toPrincipal.Fits := by
    refine ⟨Record.inRange_overrides hr.trust, fun name set hget => ?_⟩
    obtain ⟨values, hvalues, rfl⟩ := Option.map_eq_some_iff.mp
      ((ExtTreeMap.getElem?_map (t := r.custom)).symm.trans hget)
    exact Record.inRange_overrides (hr.custom name values hvalues)
  refine ⟨h.tiers, fun q e hget => ?_⟩
  rw [Policy.restorePrincipal, ExtTreeMap.getElem?_insert] at hget
  split at hget
  · obtain rfl := Option.some.inj hget
    unfold unseat
    split
    · exact ⟨fits.own, fits.custom⟩
    · exact fits
  · exact h.principals q e hget

/-- The policies that can be loaded have values that fit. -/
theorem fits_of_load? {d : Defaults} {bytes : List UInt8} {m : Policy}
    (h : load? d bytes = some m) : m.Fits := by
  obtain ⟨a, ha, rfl⟩ := Option.map_eq_some_iff.mp h
  obtain ⟨groups, principals⟩ := Archive.fits_of_readArchive? ha
  have tiers : (a.groups.foldl Policy.restoreTier (new d)).Fits :=
    List.foldlRecOn a.groups _ (fits_new d) fun m hm r hr => hm.restoreTier (groups r hr)
  exact List.foldlRecOn a.principals _ tiers fun m hm r hr => hm.restorePrincipal (principals r hr)

end Policy

/-- Every value of a policy that can be reached fits 32 bits. -/
theorem fits_of_reached {d : Defaults} {m : Policy} (h : Reached d m) : m.Fits := by
  induction h with
  | new => exact Policy.fits_new d
  | load h => exact Policy.fits_of_load? h
  | edit _ e ih => exact ih.apply e

theorem defaults_of_reached {d : Defaults} {m : Policy} (h : Reached d m) : m.defaults = d := by
  induction h with
  | new => rfl
  | load h =>
    obtain ⟨a, -, rfl⟩ := Option.map_eq_some_iff.mp h
    exact Policy.defaults_ofArchive d a
  | edit _ e ih => rw [defaults_apply, ih]

/-! ## What comes back -/

namespace Principal

/-- Nothing is found where nothing is set. -/
theorem own_of_no_changes {e : Principal} (h : e.hasChanges = false) (c : Capability) :
    e.own c = none := by
  obtain ⟨direct, sets⟩ := Bool.or_eq_false_iff.mp h
  have empty : e.overrides = ∅ := ExtTreeMap.isEmpty_iff.mp (by simpa using direct)
  have nothing : e.customValue c = none := by
    refine List.findSome?_eq_none_iff.mpr fun set hset => ?_
    have hempty := List.any_eq_false.mp sets set hset
    have none : set = ∅ := ExtTreeMap.isEmpty_iff.mp (by simpa using hempty)
    simp [none]
  rw [own, empty, nothing]
  simp

theorem kept_operator {e : Principal} (h : e.group = .operator) :
    e.kept = some { e with group := .initial } := by
  simp [kept, h, Policy.unseat, Group.initial]

theorem kept_blocked {e : Principal} (h : e.group = .blocked) :
    e.kept = some { group := .blocked } := by
  simp [kept, h, Group.initial]

/-- An entry that is neither blocked nor the operator's comes back, or there was nothing in it. -/
theorem kept_other {e : Principal} (blocked : e.group ≠ .blocked) (operator : e.group ≠ .operator) :
    e.kept = some e ∨ e.kept = none ∧ e.group = .initial ∧ ∀ c, e.own c = none := by
  unfold kept
  by_cases written : (e.hasChanges || decide (e.group ≠ .initial)) = true
  · left
    rw [if_pos written, if_neg blocked, Policy.unseat, if_neg operator]
  · right
    rw [Bool.not_eq_true, Bool.or_eq_false_iff] at written
    refine ⟨by simp [written.1, written.2], by simpa using written.2, own_of_no_changes written.1⟩

end Principal

theorem entry_of_none {m : Policy} {p : String} (h : m.principals[p]? = none) :
    m.entry p = { group := m.initialGroup p } := by
  rw [Policy.entry, h, Option.getD_none]

theorem own_empty (g : Group) (c : Capability) : Principal.own { group := g } c = none :=
  Principal.own_of_no_changes rfl c

/-- The group of a principal is that of its entry, made or not. -/
theorem groupOf_eq (m : Policy) (p : String) : m.groupOf p = (m.entry p).group := by
  unfold Policy.groupOf Policy.entry
  cases m.principals[p]? <;> rfl

/-- The value of a principal is that of its entry, made or not. -/
theorem resolve_eq (m : Policy) (p : String) (c : Capability) :
    m.resolve p c = ((m.entry p).own c <|> m.resolveGroup (m.entry p).group c) := by
  unfold Policy.resolve Policy.entry
  cases m.principals[p]? with
  | some e => rfl
  | none =>
    have := own_empty (m.initialGroup p) c
    simp [this]

namespace Policy

/-- Nobody is the operator of an archive's policy. -/
theorem initialGroup_ofArchive (d : Defaults) (a : Archive) (p : String) :
    (ofArchive d a).initialGroup p = .initial := by
  rw [initialGroup, operator_ofArchive, if_neg (by simp)]

theorem entry_ofArchive_operator (d : Defaults) {m : Policy} {p : String}
    (h : m.groupOf p = .operator) :
    (ofArchive d m.toArchive).entry p = { m.entry p with group := .initial } := by
  cases he : m.principals[p]? with
  | some e =>
    have group : e.group = .operator := by rwa [groupOf_eq, entry_of_some he] at h
    have kept : (ofArchive d m.toArchive).principals[p]? = some { e with group := .initial } := by
      rw [getElem?_ofArchive, he]
      exact Principal.kept_operator group
    rw [entry_of_some kept, entry_of_some he]
  | none =>
    have kept : (ofArchive d m.toArchive).principals[p]? = none := by
      rw [getElem?_ofArchive, he, Option.bind_none]
    rw [entry_of_none kept, entry_of_none he, initialGroup_ofArchive]

theorem entry_ofArchive_blocked (d : Defaults) {m : Policy} {p : String}
    (h : m.groupOf p = .blocked) :
    (ofArchive d m.toArchive).entry p = { group := .blocked } := by
  cases he : m.principals[p]? with
  | some e =>
    have group : e.group = .blocked := by rwa [groupOf_eq, entry_of_some he] at h
    have kept : (ofArchive d m.toArchive).principals[p]? = some { group := .blocked } := by
      rw [getElem?_ofArchive, he]
      exact Principal.kept_blocked group
    rw [entry_of_some kept]
  | none =>
    -- nobody is blocked without an entry
    rw [groupOf_eq, entry_of_none he, initialGroup] at h
    split at h <;> cases h

theorem entry_ofArchive_other (d : Defaults) {m : Policy} {p : String}
    (blocked : m.groupOf p ≠ .blocked) (operator : m.groupOf p ≠ .operator) :
    ((ofArchive d m.toArchive).entry p).group = (m.entry p).group ∧
      ∀ c, ((ofArchive d m.toArchive).entry p).own c = (m.entry p).own c := by
  have lost : (ofArchive d m.toArchive).principals[p]? = none →
      (ofArchive d m.toArchive).entry p = { group := .initial } := by
    intro hnone
    rw [entry_of_none hnone, initialGroup_ofArchive]
  rw [groupOf_eq] at blocked operator
  cases he : m.principals[p]? with
  | some e =>
    rw [entry_of_some he] at blocked operator ⊢
    have found := getElem?_ofArchive d m p
    rw [he, Option.bind_some] at found
    rcases Principal.kept_other blocked operator with kept | ⟨kept, group, nothing⟩
    · rw [entry_of_some (found.trans kept)]
      exact ⟨rfl, fun _ => rfl⟩
    · rw [lost (found.trans kept), group]
      exact ⟨rfl, fun c => by rw [own_empty, nothing]⟩
  | none =>
    have hnone : (ofArchive d m.toArchive).principals[p]? = none := by
      rw [getElem?_ofArchive, he, Option.bind_none]
    rw [entry_of_none he] at operator ⊢
    have initial : m.initialGroup p = .initial := by
      unfold initialGroup at operator ⊢
      split
      · next seat => exact absurd (if_pos seat) operator
      · rfl
    rw [lost hnone, initial]
    exact ⟨rfl, fun _ => rfl⟩

theorem resolveGroup_ofArchive {d : Defaults} {m : Policy} (h : m.defaults = d) (g : Group)
    (c : Capability) : (ofArchive d m.toArchive).resolveGroup g c = m.resolveGroup g c := by
  rw [resolveGroup, resolveGroup, tiers_ofArchive, defaults_ofArchive, h]

end Policy

/-- Whatever policy is reached, what it is saved as can be loaded, and what is loaded answers as the
saved one does: for every group; and for every principal, known or not, unless it is blocked, which it
then still is with nothing set for it, or was the operator, who is in the initial group with all its
values. -/
theorem saved_policy_returns {d : Defaults} {m : Policy} (h : Reached d m) :
    ∃ m', Policy.load? d m.save.toUTF8.toList = some m' ∧
      (∀ p, m.groupOf p ≠ .blocked → m.groupOf p ≠ .operator →
        m'.groupOf p = m.groupOf p ∧
        ∀ c, m'.resolve p c = m.resolve p c ∧
          (m'.entry p).hasOverride c = (m.entry p).hasOverride c) ∧
      (∀ p, m.groupOf p = .blocked →
        m'.groupOf p = .blocked ∧
        ∀ c, (m'.entry p).hasOverride c = false ∧ m'.resolve p c = m'.resolveGroup .blocked c) ∧
      (∀ p, m.groupOf p = .operator →
        m'.groupOf p = .initial ∧ (m'.entry p).overrides = (m.entry p).overrides ∧
          (m'.entry p).custom = (m.entry p).custom) ∧
      (∀ g, (m'.tiers g).overrides = (m.tiers g).overrides ∧
        (m'.tiers g).visible = (m.tiers g).visible ∧
        ∀ c, m'.resolveGroup g c = m.resolveGroup g c) := by
  have declared := defaults_of_reached h
  refine ⟨_, Policy.load?_save (fits_of_reached h) d, ?_, ?_, ?_, ?_⟩
  · intro p blocked operator
    obtain ⟨group, own⟩ := Policy.entry_ofArchive_other d blocked operator
    refine ⟨by rw [groupOf_eq, groupOf_eq, group], fun c => ⟨?_, ?_⟩⟩
    · rw [resolve_eq, resolve_eq, group, own, Policy.resolveGroup_ofArchive declared]
    · rw [Principal.hasOverride, Principal.hasOverride, own]
  · intro p blocked
    have entry := Policy.entry_ofArchive_blocked d blocked
    refine ⟨by rw [groupOf_eq, entry], fun c => ⟨?_, ?_⟩⟩
    · rw [entry, Principal.hasOverride, own_empty]
      rfl
    · rw [resolve_eq, entry, own_empty]
      simp
  · intro p operator
    have entry := Policy.entry_ofArchive_operator d operator
    exact ⟨by rw [groupOf_eq, entry], by rw [entry], by rw [entry]⟩
  · intro g
    rw [Policy.tiers_ofArchive]
    exact ⟨rfl, rfl, fun c => Policy.resolveGroup_ofArchive declared g c⟩

/-- A policy with one principal that was moved and given a value. -/
def samplePolicy : Policy :=
  (Edit.principal "ada" (.set .playSound 3)).apply ((Edit.setGroup "ada" .trusted).apply (.new .builtin))

theorem saved_policy_returns_ada :
    Reached .builtin samplePolicy ∧
      ∃ m', Policy.load? .builtin samplePolicy.save.toUTF8.toList = some m' ∧
        m'.groupOf "ada" = .trusted ∧ m'.resolve "ada" .playSound = some 3 := by
  have reached : Reached .builtin samplePolicy := .edit (.edit .new _) _
  have entry : samplePolicy.entry "ada" =
      { group := .trusted, overrides := (∅ : Overrides).insert .playSound 3 } := by
    rfl
  have group : samplePolicy.groupOf "ada" = .trusted := by rw [groupOf_eq, entry]
  obtain ⟨m', hload, other, -⟩ := saved_policy_returns reached
  obtain ⟨hgroup, hvalue⟩ := other "ada" (by rw [group]; decide) (by rw [group]; decide)
  refine ⟨reached, m', hload, hgroup.trans group, (hvalue .playSound).1.trans ?_⟩
  rw [resolve_eq, entry, Principal.own]
  simp

end ScriptWarden.Trust
