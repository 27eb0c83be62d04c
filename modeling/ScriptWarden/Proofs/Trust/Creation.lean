import ScriptWarden.Proofs.Trust.Normal
set_option autoImplicit false

/-!
# Making an entry changes no answer

A principal without an entry and one with a blank entry in the initial group are told apart by nothing
that a policy answers and by nothing that is saved of it.  So an entry may be made at any time, as
edits do that turn out to change nothing.

`Padded` says that one policy is the other with some blank entries more.  Every operation keeps it
(`Padded.edit` and `Padded.withOperator` are the two kinds of edits of entries) and lets the same be
heard.  The entry that is made for the operator would not be blank, but the operator has one from the
moment it is named (`Present`).
-/

namespace ScriptWarden.Trust

open Std (ExtTreeMap TransCmp LawfulEqCmp)

/-! ## Sessions -/

/-- A policy and the files around it. -/
structure Session where
  policy : Policy
  files : String → Option (List UInt8)

/-- What a session may be asked to do. -/
inductive Operation where
  | edit (e : Edit)
  | save (path : String)
  /-- Load the file at a path, with these declared values: an empty policy if there is no file, the old
  one if it cannot be read. -/
  | load (path : String) (defaults : Defaults)

/-- What is heard of an operation. -/
inductive Heard where
  | nothing
  | group (g : Group)
  | saved (text : String)
  | loaded (readable : Bool)

namespace Session

/-- The first session: nothing is set. -/
def new (d : Defaults) (files : String → Option (List UInt8)) : Session :=
  { policy := .new d, files }

/-- What is heard of an edit. -/
def heardOf (m : Policy) : Edit → Heard
  | .promote p => .group (m.promote p).1
  | .demote p => .group (m.demote p).1
  | _ => .nothing

/-- Do one operation. -/
def perform (s : Session) : Operation → Heard × Session
  | .edit e => (heardOf s.policy e, { s with policy := e.apply s.policy })
  | .save path =>
    let text := s.policy.save
    (.saved text, { s with
      files := fun other => if other = path then some text.toUTF8.toList else s.files other })
  | .load path d =>
    match s.files path with
    | none => (.loaded true, { s with policy := .new d })
    | some bytes =>
      match Policy.load? d bytes with
      | some m => (.loaded true, { s with policy := m })
      | none => (.loaded false, s)

/-- Do some operations. -/
def run (s : Session) : List Operation → List Heard × Session
  | [] => ([], s)
  | o :: os =>
    let (heard, s) := s.perform o
    let (rest, s) := s.run os
    (heard :: rest, s)

theorem run_cons (s : Session) (o : Operation) (os : List Operation) :
    s.run (o :: os) =
      ((s.perform o).1 :: ((s.perform o).2.run os).1, ((s.perform o).2.run os).2) := rfl

theorem run_append (s : Session) (os os' : List Operation) :
    s.run (os ++ os') =
      ((s.run os).1 ++ ((s.run os).2.run os').1, ((s.run os).2.run os').2) := by
  induction os generalizing s with
  | nil => rfl
  | cons o os ih =>
    rw [List.cons_append, run_cons, ih, run_cons]
    rfl

theorem length_run (s : Session) (os : List Operation) :
    (s.run os).1.length = os.length := by
  induction os generalizing s with
  | nil => rfl
  | cons o os ih => rw [run_cons, List.length_cons, List.length_cons, ih]

end Session

/-! ## Blank entries -/

namespace Policy

/-- The operator has an entry. -/
def Present (m : Policy) : Prop :=
  ∀ p, m.operator = some p → m.principals[p]? ≠ none

/-- The second policy is the first one with some blank entries more. -/
structure Padded (m m' : Policy) : Prop where
  defaults : m'.defaults = m.defaults
  tiers : m'.tiers = m.tiers
  operator : m'.operator = m.operator
  principals : ∀ q, m'.principals[q]? = m.principals[q]? ∨
    m.principals[q]? = none ∧ m'.principals[q]? = some { group := .initial } ∧ m.operator ≠ some q

theorem Padded.refl (m : Policy) : m.Padded m := ⟨rfl, rfl, rfl, fun _ => .inl rfl⟩

variable {m m' : Policy}

theorem Padded.entry (h : m.Padded m') (q : String) : m'.entry q = m.entry q := by
  rcases h.principals q with same | ⟨absent, blank, other⟩
  · rw [Policy.entry, Policy.entry, same, initialGroup, initialGroup, h.operator]
  · rw [entry_of_some blank, entry_of_none absent, initialGroup, if_neg other]

theorem Padded.groupOf (h : m.Padded m') (q : String) : m'.groupOf q = m.groupOf q := by
  rw [groupOf_eq, groupOf_eq, h.entry]

theorem Padded.resolve (h : m.Padded m') (q : String) (c : Capability) :
    m'.resolve q c = m.resolve q c := by
  rw [resolve_eq, resolve_eq, h.entry, resolveGroup, resolveGroup, h.tiers, h.defaults]

/-- Blank entries are not saved. -/
theorem Padded.save (h : m.Padded m') : m'.save = m.save := by
  refine congrArg (fun a : Archive => a.toJson.pretty) (toArchive_congr (fun g => ?_) fun q => ?_)
  · rw [tierRecord?, tierRecord?, h.tiers]
  · rcases h.principals q with same | ⟨absent, blank, -⟩
    · rw [recordOf?, recordOf?, same]
    · rw [recordOf?, recordOf?, absent, blank]
      rfl

/-- An entry that is edited is there in both. -/
theorem Padded.edit (h : m.Padded m') (p : String) (f : Principal → Principal) :
    (m.edit p f).Padded (m'.edit p f) := by
  refine ⟨h.defaults, h.tiers, h.operator, fun q => ?_⟩
  rw [getElem?_edit, getElem?_edit, h.entry]
  by_cases hq : p = q
  · rw [if_pos hq, if_pos hq]
    exact .inl rfl
  · rw [if_neg hq, if_neg hq]
    exact h.principals q

theorem Padded.setGroup (h : m.Padded m') (p : String) (g : Group) :
    (m.setGroup p g).Padded (m'.setGroup p g) :=
  h.edit p fun e => { e with group := g }

theorem Padded.withOperator (h : m.Padded m') (p : String) :
    (m.withOperator p).Padded (m'.withOperator p) := by
  refine ⟨h.defaults, h.tiers, rfl, fun q => ?_⟩
  rw [getElem?_withOperator, getElem?_withOperator, h.entry, h.operator, operator_withOperator]
  by_cases hq : p = q
  · rw [if_pos hq, if_pos hq]
    exact .inl rfl
  · rw [if_neg hq, if_neg hq]
    rcases h.principals q with same | ⟨absent, blank, other⟩
    · rw [same]
      exact .inl rfl
    · -- the former operator has no blank entry, so nothing is taken from one
      rw [if_neg other, if_neg other]
      exact .inr ⟨absent, blank, fun e => hq (Option.some.inj e)⟩

theorem Padded.apply (h : m.Padded m') (e : Edit) : (e.apply m).Padded (e.apply m') := by
  cases e with
  | withOperator p => exact h.withOperator p
  | touch p => exact h.edit p id
  | setGroup p g => exact h.setGroup p g
  | promote p =>
    rw [Edit.apply, Edit.apply, promote, promote, h.groupOf]
    exact h.setGroup p _
  | demote p =>
    rw [Edit.apply, Edit.apply, demote, demote, h.groupOf]
    exact h.setGroup p _
  | tier g change =>
    refine ⟨h.defaults, ?_, h.operator, h.principals⟩
    rw [Edit.apply, Edit.apply, editTier, editTier, h.tiers]
  | principal p change => exact h.edit p _

/-- The entry that is made for a principal is blank, for the operator has one. -/
theorem padded_touch (h : m.Present) (p : String) : m.Padded ((Edit.touch p).apply m) := by
  refine ⟨rfl, rfl, rfl, fun q => ?_⟩
  rw [Edit.apply, getElem?_edit]
  by_cases hq : p = q
  · subst hq
    rw [if_pos rfl]
    cases hentry : m.principals[p]? with
    | some e => exact .inl (by rw [entry_of_some hentry]; rfl)
    | none =>
      have other : m.operator ≠ some p := fun e => h p e hentry
      refine .inr ⟨rfl, ?_, other⟩
      rw [entry_of_none hentry, initialGroup, if_neg other]
      rfl
  · rw [if_neg hq]
    exact .inl rfl

/-! ## The operator has an entry -/

theorem present_of_vacant (h : m.Vacant) : m.Present := by
  intro p seat
  rw [h.operator] at seat
  cases seat

theorem Present.edit (h : m.Present) (p : String) (f : Principal → Principal) :
    (m.edit p f).Present := by
  intro q seat
  rw [getElem?_edit]
  split
  · exact Option.some_ne_none _
  · exact h q seat

theorem Present.apply (h : m.Present) (e : Edit) : (e.apply m).Present := by
  cases e with
  | withOperator p =>
    intro q seat
    obtain rfl : p = q := Option.some.inj seat
    rw [Edit.apply, getElem?_withOperator, if_pos rfl]
    exact Option.some_ne_none _
  | tier g change => exact h
  | touch p => exact h.edit p _
  | setGroup p g => exact h.edit p _
  | promote p => exact h.edit p _
  | demote p => exact h.edit p _
  | principal p change => exact h.edit p _

theorem vacant_new (d : Defaults) : (new d).Vacant := ⟨rfl, fun p e h => by simp [new] at h⟩

end Policy

/-! ## Sessions side by side -/

namespace Session

theorem present_perform {s : Session} (h : s.policy.Present) (o : Operation) :
    (s.perform o).2.policy.Present := by
  cases o with
  | edit e => exact h.apply e
  | save path => exact h
  | load path d =>
    unfold perform
    dsimp only
    split
    · exact Policy.present_of_vacant (Policy.vacant_new d)
    · split
      · next hload =>
        obtain ⟨a, -, rfl⟩ := Option.map_eq_some_iff.mp hload
        exact Policy.present_of_vacant (Policy.vacant_ofArchive d a)
      · exact h

theorem present_run {s : Session} (h : s.policy.Present) (os : List Operation) :
    (s.run os).2.policy.Present := by
  induction os generalizing s with
  | nil => exact h
  | cons o os ih => exact ih (present_perform h o)

/-- The same files, and a policy with blank entries more. -/
structure Padded (s s' : Session) : Prop where
  policy : s.policy.Padded s'.policy
  files : s'.files = s.files

/-- Every operation lets the same be heard and keeps the two sessions side by side. -/
theorem Padded.perform {s s' : Session} (h : s.Padded s') (o : Operation) :
    (s'.perform o).1 = (s.perform o).1 ∧ (s.perform o).2.Padded (s'.perform o).2 := by
  cases o with
  | edit e =>
    refine ⟨?_, h.policy.apply e, h.files⟩
    cases e with
    | promote p => exact congrArg (fun g : Group => Heard.group g.promoted) (h.policy.groupOf p)
    | demote p => exact congrArg (fun g : Group => Heard.group g.demoted) (h.policy.groupOf p)
    | _ => rfl
  | save path =>
    refine ⟨congrArg Heard.saved h.policy.save, h.policy, ?_⟩
    simp only [Session.perform, h.policy.save, h.files]
  | load path d =>
    unfold Session.perform
    dsimp only
    rw [h.files]
    split
    · exact ⟨rfl, .refl _, rfl⟩
    · split
      · exact ⟨rfl, .refl _, rfl⟩
      · exact ⟨rfl, h⟩

theorem Padded.run {s s' : Session} (h : s.Padded s') (os : List Operation) :
    (s'.run os).1 = (s.run os).1 ∧ (s.run os).2.Padded (s'.run os).2 := by
  induction os generalizing s s' with
  | nil => exact ⟨rfl, h⟩
  | cons o os ih =>
    obtain ⟨heard, next⟩ := h.perform o
    obtain ⟨rest, last⟩ := ih next
    rw [run_cons, run_cons]
    exact ⟨by rw [heard, rest], last⟩

end Session

/-- Wherever in a session an entry is made, everything else that is heard in the session stays the same,
and at its end everybody has the same group and the same values, the same is allowed, and the same
text is saved. -/
theorem creation_is_unobservable (d : Defaults) (files : String → Option (List UInt8))
    (before after : List Operation) (p : String) :
    ∃ (early late : List Heard) (s s' : Session),
      (Session.new d files).run (before ++ after) = (early ++ late, s) ∧
      (Session.new d files).run (before ++ .edit (.touch p) :: after) =
        (early ++ .nothing :: late, s') ∧
      early.length = before.length ∧
      (∀ q, s'.policy.groupOf q = s.policy.groupOf q) ∧
      (∀ q c, s'.policy.resolve q c = s.policy.resolve q c) ∧
      (∀ q c least, s'.policy.allows q c least = s.policy.allows q c least) ∧
      s'.policy.save = s.policy.save ∧ s'.files = s.files := by
  let reached := ((Session.new d files).run before).2
  have present : reached.policy.Present :=
    Session.present_run (Policy.present_of_vacant (Policy.vacant_new d)) before
  have touched : reached.Padded (reached.perform (.edit (.touch p))).2 :=
    ⟨Policy.padded_touch present p, rfl⟩
  obtain ⟨late, last⟩ := touched.run after
  refine ⟨_, _, _, _, Session.run_append .., ?_, Session.length_run .., last.policy.groupOf,
    last.policy.resolve, ?_, last.policy.save, last.files⟩
  · rw [Session.run_append, Session.run_cons, ← late]
    rfl
  · intro q c least
    rw [Policy.allows, Policy.allows, last.policy.resolve]

end ScriptWarden.Trust
