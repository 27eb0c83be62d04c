import Mathlib.Algebra.GroupWithZero.Nat
import Mathlib.Data.List.Perm.Basic
import ScriptWarden.Proofs.Bridge.Selection
set_option autoImplicit false

/-!
# Bridge: the signature that fits best

Arguments *fit* a signature if it has room for all of them and each of its parameters takes the one in its place; what
they are *worth* to it is the sum of their scores.  Arguments that do not fit fail at one place, the first.  All of that
is said here without the function that computes scores, and so is what is chosen among any signatures, whether they are
apart or not (`best_fit_chosen`): the one that is worth strictly more than all others that fit.  If there is none, the
refusal names the first two that share the highest worth, or the first failure among those that are furthest right.
-/

namespace ScriptWarden.Bridge

variable {s s' : Signature} {ss ss' : List Signature} {args : List Argument} {m m' : Mismatch}

/-! ## Fitting arguments -/

theorem matchScore?_nil {a : Argument} (h : a.isNil = true) (t : ArgType) : matchScore? t a = none := by
  cases a with
  | nil => cases t <;> rfl
  | _ => cases h

namespace Signature

/-- There are no more arguments than parameters, and every parameter takes the argument in its place. -/
structure Fits (s : Signature) (args : List Argument) : Prop where
  room : args.length ≤ s.length
  takes : ∀ (i : Nat) p, s[i]? = some p → p.Takes (args[i]?.getD .nil)

/-- The sum of the scores of the arguments; what is left out adds nothing. -/
def worth (s : Signature) (args : List Argument) : Nat :=
  ((s.zip args).map fun (p, a) => (matchScore? p.type a).getD 0).sum

theorem fits_iff_accepts : s.Fits args ↔ Accepts s args :=
  ⟨fun h => (accepts_iff s args).2 ⟨h.room, h.takes⟩, fun h =>
    let ⟨hroom, htakes⟩ := (accepts_iff s args).1 h
    ⟨hroom, htakes⟩⟩

theorem worth_cons (p : Param) (ps : Signature) (args : List Argument) :
    worth (p :: ps) args = (matchScore? p.type (args.headD .nil)).getD 0 + worth ps args.tail := by
  cases args with
  | nil =>
    have hnone : matchScore? p.type .nil = none := matchScore?_nil rfl p.type
    simp [worth, hnone]
  | cons a rest => rfl

end Signature

/-- What the scores add up to is what the arguments are worth. -/
theorem worth_of_scoreFrom {index n : Nat} (h : scoreFrom index s args = .ok n) : s.worth args = n := by
  induction s generalizing index args n with
  | nil =>
    cases h
    rfl
  | cons p ps ih =>
    rw [Signature.worth_cons]
    unfold scoreFrom at h
    simp only at h
    split at h
    · next hnil =>
      split at h
      · rw [matchScore?_nil hnil, ih h, Option.getD_none, Nat.zero_add]
      · cases h
    · split at h
      · cases h
      · next k hk =>
        cases hrest : scoreFrom (index + 1) ps args.tail with
        | error m => simp [hrest, Except.map] at h
        | ok rest =>
          rw [hrest] at h
          cases h
          rw [hk, ih hrest, Option.getD_some]

/-- A signature accepts what fits it, with what that is worth for a score. -/
theorem score_eq_ok_iff {n : Nat} : score s args = .ok n ↔ s.Fits args ∧ s.worth args = n := by
  have hworth : ∀ n, score s args = .ok n → s.worth args = n := by
    intro n h
    unfold score at h
    split at h
    · cases h
    · exact worth_of_scoreFrom h
  constructor
  · exact fun h => ⟨Signature.fits_iff_accepts.2 ⟨n, h⟩, hworth n h⟩
  · rintro ⟨hfits, rfl⟩
    obtain ⟨n, hn⟩ := Signature.fits_iff_accepts.1 hfits
    rw [hworth n hn, hn]

/-! ## Arguments that do not fit -/

/-- How an argument fails to be taken: nothing is there, or it is of another type. -/
def Param.failure (p : Param) (place : Nat) (a : Argument) : Mismatch :=
  if a.isNil then .missing place p else .wrongType place p a.label

/-- A parameter does not take the argument in its place, and it is the first one. -/
structure Signature.FailsAt (s : Signature) (args : List Argument) (i : Nat) (p : Param) : Prop where
  param : s[i]? = some p
  before : ∀ (j : Nat) q, j < i → s[j]? = some q → q.Takes (args[j]?.getD .nil)
  fails : ¬ p.Takes (args[i]?.getD .nil)

/-- Why arguments do not fit a signature. -/
inductive Signature.Misfits (s : Signature) (args : List Argument) : Mismatch → Prop
  | tooMany (hlong : s.length < args.length) : Misfits s args (.tooMany s.length args.length)
  | fails {i : Nat} {p : Param} (hroom : args.length ≤ s.length) (hfails : s.FailsAt args i p) :
    Misfits s args (p.failure (i + 1) (args[i]?.getD .nil))

theorem Signature.FailsAt.unique {i j : Nat} {p q : Param} (h : s.FailsAt args i p) (h' : s.FailsAt args j q) :
    i = j ∧ p = q := by
  rcases Nat.lt_trichotomy i j with hlt | rfl | hlt
  · exact absurd (h'.before i p hlt h.param) h.fails
  · exact ⟨rfl, Option.some.inj (h.param.symm.trans h'.param)⟩
  · exact absurd (h.before j q hlt h'.param) h'.fails

theorem Signature.Misfits.not_fits (h : s.Misfits args m) : ¬ s.Fits args := by
  intro hfits
  cases h with
  | tooMany hlong => exact Nat.not_lt.2 hfits.room hlong
  | fails hroom hfails => exact hfails.fails (hfits.takes _ _ hfails.param)

/-- There is one reason. -/
theorem Signature.Misfits.unique (h : s.Misfits args m) (h' : s.Misfits args m') : m = m' := by
  cases h with
  | tooMany hlong =>
    cases h' with
    | tooMany => rfl
    | fails hroom => exact absurd hlong (Nat.not_lt.2 hroom)
  | fails hroom hfails =>
    cases h' with
    | tooMany hlong => exact absurd hlong (Nat.not_lt.2 hroom)
    | fails hroom' hfails' =>
      obtain ⟨rfl, rfl⟩ := hfails.unique hfails'
      rfl

section FirstArgument

variable {p : Param} {ps : Signature}

theorem getD_zero (args : List Argument) : args[0]?.getD .nil = args.headD .nil := by cases args <;> rfl

/-- The first argument fails, -/
theorem Signature.failsAt_head (h : ¬ p.Takes (args.headD .nil)) : Signature.FailsAt (p :: ps) args 0 p where
  param := rfl
  before _ _ hj := absurd hj (Nat.not_lt_zero _)
  fails := by rwa [getD_zero]

/-- or it is taken, and a later one fails. -/
theorem Signature.FailsAt.cons {i : Nat} {q : Param} (htakes : p.Takes (args.headD .nil))
    (h : Signature.FailsAt ps args.tail i q) : Signature.FailsAt (p :: ps) args (i + 1) q where
  param := h.param
  before j r hj hr := by
    cases j with
    | zero =>
      cases hr
      rwa [getD_zero]
    | succ j => simpa only [List.getElem?_tail] using h.before j r (Nat.lt_of_succ_lt_succ hj) hr
  fails := by simpa only [List.getElem?_tail] using h.fails

end FirstArgument

theorem failsAt_of_scoreFrom {index : Nat} (h : scoreFrom index s args = .error m) :
    ∃ (i : Nat) (p : Param), s.FailsAt args i p ∧ m = p.failure (index + i) (args[i]?.getD .nil) := by
  induction s generalizing index args with
  | nil => cases h
  | cons p ps ih =>
    have hlater (htakes : p.Takes (args.headD .nil)) (hrest : scoreFrom (index + 1) ps args.tail = .error m) :
        ∃ (i : Nat) (q : Param), Signature.FailsAt (p :: ps) args i q ∧
          m = q.failure (index + i) (args[i]?.getD .nil) := by
      obtain ⟨i, q, hfails, hm⟩ := ih hrest
      refine ⟨i + 1, q, hfails.cons htakes, ?_⟩
      rw [hm, List.getElem?_tail, Nat.add_right_comm, Nat.add_assoc]
    unfold scoreFrom at h
    simp only at h
    split at h
    · next hnil =>
      split at h
      · next hoptional => exact hlater (by rwa [Param.Takes, if_pos hnil]) h
      · next hrequired =>
        cases h
        exact ⟨0, p, Signature.failsAt_head (by rwa [Param.Takes, if_pos hnil]),
          by rw [getD_zero, Param.failure, if_pos hnil, Nat.add_zero]⟩
    · next hgiven =>
      split at h
      · next hnone =>
        cases h
        refine ⟨0, p, Signature.failsAt_head ?_, by rw [getD_zero, Param.failure, if_neg hgiven, Nat.add_zero]⟩
        rw [Param.Takes, if_neg hgiven, hnone]
        exact Bool.false_ne_true
      · next k hk =>
        refine hlater (by rw [Param.Takes, if_neg hgiven, hk]; rfl) ?_
        cases hrest : scoreFrom (index + 1) ps args.tail with
        | error m' =>
          rw [hrest] at h
          cases h
          rfl
        | ok n => simp [hrest, Except.map] at h

/-- A signature that does not accept the arguments says why they do not fit. -/
theorem score_eq_error_iff : score s args = .error m ↔ s.Misfits args m := by
  have hreason : ∀ m, score s args = .error m → s.Misfits args m := by
    intro m h
    unfold score at h
    split at h
    · next hlong =>
      cases h
      exact .tooMany hlong
    · next hshort =>
      obtain ⟨i, p, hfails, rfl⟩ := failsAt_of_scoreFrom h
      rw [Nat.add_comm 1]
      exact .fails (Nat.not_lt.1 hshort) hfails
  refine ⟨hreason m, fun h => ?_⟩
  cases hscore : score s args with
  | ok n => exact absurd (score_eq_ok_iff.1 hscore).1 h.not_fits
  | error m' => rw [h.unique (hreason m' hscore)]

/-! ## The highest score -/

/-- No signature that the arguments fit is worth more than this one. -/
structure Leads (ss : List Signature) (args : List Argument) (i : Nat) (n : Nat) : Prop where
  fits : ∃ s, ss[i]? = some s ∧ s.Fits args ∧ s.worth args = n
  most : ∀ (j : Nat) s, ss[j]? = some s → s.Fits args → s.worth args ≤ n

theorem mem_accepted {i n : Nat} :
    (i, n) ∈ accepted ss args ↔ ∃ s, ss[i]? = some s ∧ s.Fits args ∧ s.worth args = n := by
  simp only [accepted, List.mem_filterMap, Prod.exists, List.mem_zipIdx_iff_getElem?]
  constructor
  · rintro ⟨s, j, hs, hscore⟩
    split at hscore
    · next k hk =>
      cases hscore
      exact ⟨s, hs, score_eq_ok_iff.1 hk⟩
    · cases hscore
  · rintro ⟨s, hs, hscore⟩
    exact ⟨s, i, hs, by rw [score_eq_ok_iff.2 hscore]⟩

/-- Scores stand in the order of the signatures. -/
theorem acceptedFrom_ordered (k : Nat) (ss : List Signature) (args : List Argument) :
    (∀ e ∈ acceptedFrom k ss args, k ≤ e.1) ∧ (acceptedFrom k ss args).Pairwise fun e e' => e.1 < e'.1 := by
  induction ss generalizing k with
  | nil => exact ⟨fun _ he => absurd he List.not_mem_nil, .nil⟩
  | cons s rest ih =>
    obtain ⟨hfrom, hordered⟩ := ih (k + 1)
    have hlater : ∀ e ∈ acceptedFrom (k + 1) rest args, k ≤ e.1 := fun e he => Nat.le_of_succ_le (hfrom e he)
    rw [acceptedFrom_cons]
    split
    · refine ⟨?_, List.pairwise_cons.2 ⟨fun e he => hfrom e he, hordered⟩⟩
      rintro e (_ | ⟨_, he⟩)
      · exact Nat.le_refl k
      · exact hlater e he
    · exact ⟨hlater, hordered⟩

/-- The scores that are the highest. -/
def leaders (ss : List Signature) (args : List Argument) : List (Nat × Nat) :=
  (accepted ss args).filter fun p => p.2 = (accepted ss args).foldl (fun n p => max n p.2) 0

theorem highest_eq (l : List (Nat × Nat)) : l.foldl (fun n p => max n p.2) 0 = ((l.map (·.2)).max?).getD 0 := by
  rw [← List.foldl_map (f := fun p : Nat × Nat => p.2) (g := max), List.foldl_max, Nat.zero_max]

theorem mem_leaders {i n : Nat} : (i, n) ∈ leaders ss args ↔ Leads ss args i n := by
  rw [leaders, List.mem_filter, decide_eq_true_iff, highest_eq]
  generalize hscores : (accepted ss args).map (·.2) = scores
  have hscore : ∀ k, k ∈ scores ↔ ∃ (j : Nat) (s : Signature), ss[j]? = some s ∧ s.Fits args ∧ s.worth args = k := by
    intro k
    rw [← hscores, List.mem_map]
    constructor
    · rintro ⟨⟨j, k⟩, hmem, rfl⟩
      exact ⟨j, mem_accepted.1 hmem⟩
    · rintro ⟨j, hj⟩
      exact ⟨(j, k), mem_accepted.2 hj, rfl⟩
  constructor
  · rintro ⟨hmem, hmax⟩
    refine ⟨mem_accepted.1 hmem, fun j s hs hfits => ?_⟩
    have hworth : s.worth args ∈ scores := (hscore _).2 ⟨j, s, hs, hfits, rfl⟩
    cases hbest : scores.max? with
    | none =>
      rw [List.max?_eq_none_iff.1 hbest] at hworth
      cases hworth
    | some best =>
      have hn : n = best := by rwa [hbest, Option.getD_some] at hmax
      rw [hn]
      exact (List.max?_eq_some_iff.1 hbest).2 _ hworth
  · intro h
    refine ⟨mem_accepted.2 h.fits, ?_⟩
    have hbest : scores.max? = some n := by
      refine List.max?_eq_some_iff.2 ⟨(hscore n).2 ⟨i, h.fits⟩, fun k hk => ?_⟩
      obtain ⟨j, s, hs, hfits, rfl⟩ := (hscore k).1 hk
      exact h.most j s hs hfits
    rw [hbest, Option.getD_some]

theorem leaders_ordered (ss : List Signature) (args : List Argument) :
    (leaders ss args).Pairwise fun e e' => e.1 < e'.1 :=
  (acceptedFrom_ordered 0 ss args).2.filter _

/-- If anything fits there is a signature that leads. -/
theorem leads_of_fits {i : Nat} (hs : ss[i]? = some s) (hfits : s.Fits args) : ∃ j n, Leads ss args j n := by
  have hmem : (i, s.worth args) ∈ accepted ss args := mem_accepted.2 ⟨s, hs, hfits, rfl⟩
  cases hbest : ((accepted ss args).map (·.2)).max? with
  | none =>
    have hempty : accepted ss args = [] := List.map_eq_nil_iff.1 (List.max?_eq_none_iff.1 hbest)
    rw [hempty] at hmem
    cases hmem
  | some best =>
    obtain ⟨⟨j, n⟩, hj, rfl⟩ := List.mem_map.1 (List.max?_mem hbest)
    refine ⟨j, n, mem_leaders.1 (List.mem_filter.2 ⟨hj, ?_⟩)⟩
    rw [highest_eq, hbest, Option.getD_some, decide_eq_true_iff]

theorem Leads.same {i j n n' : Nat} (h : Leads ss args i n) (h' : Leads ss args j n') : n = n' := by
  obtain ⟨s, hs, hfits, rfl⟩ := h.fits
  obtain ⟨s', hs', hfits', rfl⟩ := h'.fits
  exact Nat.le_antisymm (h'.most i s hs hfits) (h.most j s' hs' hfits')

/-! ## The furthest failure -/

/-- The first failure among those that are furthest right. -/
def Furthest (ss : List Signature) (args : List Argument) (m : Mismatch) : Prop :=
  ∃ before s after, ss = before ++ s :: after ∧ s.Misfits args m ∧
    (∀ s' ∈ before, ∀ m', s'.Misfits args m' → m'.place < m.place) ∧
    ∀ s' ∈ after, ∀ m', s'.Misfits args m' → m'.place ≤ m.place

section Furthest

variable {l before after : List Mismatch} {best : Mismatch} {found : Option Mismatch}

theorem furthest_of_first (hfound : ∀ b ∈ found, b.place < m.place) (hbefore : ∀ m' ∈ before, m'.place < m.place)
    (hafter : ∀ m' ∈ after, m'.place ≤ m.place) : furthest found (before ++ m :: after) = some m := by
  have hstays : ∀ after : List Mismatch, (∀ m' ∈ after, m'.place ≤ m.place) → furthest (some m) after = some m := by
    intro after
    induction after with
    | nil => exact fun _ => rfl
    | cons m' rest ih =>
      intro hafter
      have hle : ¬ m.place < m'.place := Nat.not_lt.2 (hafter m' List.mem_cons_self)
      simp only [furthest, if_neg hle]
      exact ih fun m' hm' => hafter m' (List.mem_cons_of_mem _ hm')
  induction before generalizing found with
  | nil =>
    cases found with
    | none => exact hstays after hafter
    | some b =>
      have hlt : b.place < m.place := hfound b rfl
      simp only [List.nil_append, furthest, if_pos hlt]
      exact hstays after hafter
  | cons m' rest ih =>
    have hrest : ∀ m' ∈ rest, m'.place < m.place := fun m' hm' => hbefore m' (List.mem_cons_of_mem _ hm')
    have hfirst : m'.place < m.place := hbefore m' List.mem_cons_self
    cases found with
    | none => exact ih (by rintro b ⟨⟩; exact hfirst) hrest
    | some b =>
      refine ih ?_ hrest
      rintro b' ⟨⟩
      split
      · exact hfirst
      · exact hfound b rfl

theorem exists_first (best : Mismatch) (rest : List Mismatch) : ∃ m before after, best :: rest = before ++ m :: after ∧
    (∀ m' ∈ before, m'.place < m.place) ∧ ∀ m' ∈ after, m'.place ≤ m.place := by
  induction rest generalizing best with
  | nil => exact ⟨best, [], [], rfl, fun _ h => absurd h List.not_mem_nil, fun _ h => absurd h List.not_mem_nil⟩
  | cons next rest ih =>
    obtain ⟨m, before, after, hsplit, hbefore, hafter⟩ := ih next
    by_cases hlt : best.place < m.place
    · refine ⟨m, best :: before, after, by rw [hsplit, List.cons_append], ?_, hafter⟩
      rintro m' (_ | ⟨_, hm'⟩)
      · exact hlt
      · exact hbefore m' hm'
    · refine ⟨best, [], next :: rest, rfl, fun _ h => absurd h List.not_mem_nil, fun m' hm' => ?_⟩
      have hle : m.place ≤ best.place := Nat.not_lt.1 hlt
      rw [hsplit] at hm'
      obtain hin | hin := List.mem_append.1 hm'
      · exact Nat.le_trans (Nat.le_of_lt (hbefore m' hin)) hle
      · obtain _ | ⟨_, hin⟩ := hin
        · exact hle
        · exact Nat.le_trans (hafter m' hin) hle

theorem mem_mismatches : m ∈ mismatches ss args ↔ ∃ s ∈ ss, s.Misfits args m := by
  simp only [mismatches, List.mem_filterMap]
  refine exists_congr fun s => and_congr_right fun _ => ?_
  rw [← score_eq_error_iff]
  cases score s args <;> simp

theorem mismatches_append (ss ss' : List Signature) (args : List Argument) :
    mismatches (ss ++ ss') args = mismatches ss args ++ mismatches ss' args := List.filterMap_append

theorem mismatches_cons (h : s.Misfits args m) (ss : List Signature) :
    mismatches (s :: ss) args = m :: mismatches ss args := by
  unfold mismatches
  rw [List.filterMap_cons, score_eq_error_iff.2 h]

theorem furthest_eq_some_iff : furthest none (mismatches ss args) = some m ↔ Furthest ss args m := by
  constructor
  · intro h
    cases hl : mismatches ss args with
    | nil =>
      rw [hl] at h
      cases h
    | cons first rest =>
      obtain ⟨m', before, after, hsplit, hbefore, hafter⟩ := exists_first first rest
      rw [hl, hsplit, furthest_of_first (fun _ hb => by cases hb) hbefore hafter] at h
      cases h
      rw [hsplit] at hl
      obtain ⟨ss₁, ss₂, rfl, h₁, h₂⟩ := List.filterMap_eq_append_iff.1 hl
      obtain ⟨ss₃, s, ss₄, rfl, h₃, hs, h₄⟩ := List.filterMap_eq_cons_iff.1 h₂
      have hmisfits : s.Misfits args m := by
        rw [← score_eq_error_iff]
        split at hs
        · cases hs
        · next m' hm' =>
          cases hs
          exact hm'
      refine ⟨ss₁ ++ ss₃, s, ss₄, by rw [List.append_assoc], hmisfits, fun s' hs' m' hm' => ?_, fun s' hs' m' hm' => ?_⟩
      · -- of those before it only the ones that fit were passed over
        obtain hin | hin := List.mem_append.1 hs'
        · exact hbefore m' (h₁ ▸ mem_mismatches.2 ⟨s', hin, hm'⟩)
        · have hnone := h₃ s' hin
          rw [score_eq_error_iff.2 hm'] at hnone
          cases hnone
      · exact hafter m' (h₄ ▸ mem_mismatches.2 ⟨s', hs', hm'⟩)
  · rintro ⟨before, s, after, rfl, hmisfits, hbefore, hafter⟩
    rw [mismatches_append, mismatches_cons hmisfits]
    refine furthest_of_first (fun _ hb => by cases hb) (fun m' hm' => ?_) fun m' hm' => ?_
    · obtain ⟨s', hs', hm'⟩ := mem_mismatches.1 hm'
      exact hbefore s' hs' m' hm'
    · obtain ⟨s', hs', hm'⟩ := mem_mismatches.1 hm'
      exact hafter s' hs' m' hm'

end Furthest

/-! ## The choice -/

section Choice

theorem select_eq (ss : List Signature) (args : List Argument) : select ss args =
    match leaders ss args with
    | [] =>
      match furthest none (mismatches ss args) with
      | some m => .error (.mismatch m)
      | none => .error .empty
    | [(i, _)] => .ok i
    | (i, _) :: (j, _) :: _ => .error (.ambiguous i j) := rfl

theorem leaders_eq_nil_iff : leaders ss args = [] ↔ ∀ s ∈ ss, ¬ s.Fits args := by
  constructor
  · intro hnone s hs hfits
    obtain ⟨i, hi⟩ := List.getElem?_of_mem hs
    obtain ⟨j, n, hleads⟩ := leads_of_fits hi hfits
    have hmem : (j, n) ∈ leaders ss args := mem_leaders.2 hleads
    rw [hnone] at hmem
    cases hmem
  · refine fun hnone => List.eq_nil_iff_forall_not_mem.2 fun ⟨i, n⟩ hmem => ?_
    obtain ⟨s, hs, hfits, -⟩ := (mem_leaders.1 hmem).fits
    exact hnone s (List.mem_of_getElem? hs) hfits

/-- A signature that is worth strictly more than every other one that fits. -/
def Outscores (ss : List Signature) (args : List Argument) (i : Nat) : Prop :=
  ∃ s, ss[i]? = some s ∧ s.Fits args ∧
    ∀ (j : Nat) s', j ≠ i → ss[j]? = some s' → s'.Fits args → s'.worth args < s.worth args

theorem outscores_iff_leads {i : Nat} :
    Outscores ss args i ↔ ∃ n, Leads ss args i n ∧ ∀ j n', Leads ss args j n' → j = i := by
  constructor
  · rintro ⟨s, hs, hfits, hless⟩
    refine ⟨s.worth args, ⟨⟨s, hs, hfits, rfl⟩, fun j s' hs' hfits' => ?_⟩, fun j n' hleads => ?_⟩
    · by_cases hj : j = i
      · subst hj
        cases hs.symm.trans hs'
        exact Nat.le_refl _
      · exact Nat.le_of_lt (hless j s' hj hs' hfits')
    · by_contra hj
      obtain ⟨s', hs', hfits', rfl⟩ := hleads.fits
      exact Nat.not_le.2 (hless j s' hj hs' hfits') (hleads.most i s hs hfits)
  · rintro ⟨n, hleads, hunique⟩
    obtain ⟨s, hs, hfits, rfl⟩ := hleads.fits
    refine ⟨s, hs, hfits, fun j s' hj hs' hfits' => ?_⟩
    refine Nat.lt_of_le_of_ne (hleads.most j s' hs' hfits') fun heq => hj ?_
    exact hunique j _ ⟨⟨s', hs', hfits', heq⟩, hleads.most⟩

theorem select_eq_ok_iff_outscores {i : Nat} : select ss args = .ok i ↔ Outscores ss args i := by
  have hordered := leaders_ordered ss args
  rw [outscores_iff_leads, select_eq]
  simp only [← mem_leaders]
  generalize leaders ss args = l at hordered
  match l with
  | [] =>
    simp only [List.not_mem_nil, false_and, exists_false, iff_false]
    split <;> nofun
  | [(j, n)] => simp [eq_comm]
  | (j, n) :: (k, n') :: rest =>
    have hlt : j < k := (List.pairwise_cons.1 hordered).1 _ List.mem_cons_self
    refine iff_of_false nofun ?_
    rintro ⟨-, -, hunique⟩
    have hj : j = i := hunique j n List.mem_cons_self
    have hk : k = i := hunique k n' (List.mem_cons_of_mem _ List.mem_cons_self)
    omega

/-- The first two of the signatures that lead. -/
structure FirstTwo (ss : List Signature) (args : List Argument) (i j : Nat) : Prop where
  lt : i < j
  first : ∃ n, Leads ss args i n
  second : ∃ n, Leads ss args j n
  later : ∀ k n, Leads ss args k n → k = i ∨ k = j ∨ j < k

theorem select_eq_ambiguous_iff {i j : Nat} : select ss args = .error (.ambiguous i j) ↔ FirstTwo ss args i j := by
  have hordered := leaders_ordered ss args
  have hiff : FirstTwo ss args i j ↔ i < j ∧ (∃ n, (i, n) ∈ leaders ss args) ∧ (∃ n, (j, n) ∈ leaders ss args) ∧
      ∀ k n, (k, n) ∈ leaders ss args → k = i ∨ k = j ∨ j < k := by
    simp only [mem_leaders]
    exact ⟨fun h => ⟨h.lt, h.first, h.second, h.later⟩, fun h => ⟨h.1, h.2.1, h.2.2.1, h.2.2.2⟩⟩
  rw [hiff, select_eq]
  generalize leaders ss args = l at hordered
  match l with
  | [] =>
    refine iff_of_false (fun h => ?_) fun h => ?_
    · cases hm : furthest none (mismatches ss args) <;> simp [hm] at h
    · obtain ⟨-, ⟨n, hn⟩, -⟩ := h
      cases hn
  | [(k, n)] =>
    refine iff_of_false nofun fun ⟨hlt, ⟨_, hi⟩, ⟨_, hj⟩, _⟩ => ?_
    cases List.mem_singleton.1 hi
    cases List.mem_singleton.1 hj
    exact Nat.lt_irrefl _ hlt
  | (k, n) :: (k', n') :: rest =>
    obtain ⟨hfirst, hrest⟩ := List.pairwise_cons.1 hordered
    have hsecond := (List.pairwise_cons.1 hrest).1
    have hlt : k < k' := hfirst _ List.mem_cons_self
    constructor
    · rintro ⟨⟩
      refine ⟨hlt, ⟨n, List.mem_cons_self⟩, ⟨n', List.mem_cons_of_mem _ List.mem_cons_self⟩, ?_⟩
      rintro e _ (_ | ⟨_, _ | ⟨_, hlater⟩⟩)
      · exact .inl rfl
      · exact .inr (.inl rfl)
      · exact .inr (.inr (hsecond _ hlater))
    · rintro ⟨hij, ⟨_, hi⟩, ⟨_, hj⟩, hlater⟩
      have hk := hlater k n List.mem_cons_self
      have hk' := hlater k' n' (List.mem_cons_of_mem _ List.mem_cons_self)
      -- everything on the list stands at its head or after it
      have hplace : ∀ e n'', (e, n'') ∈ (k, n) :: (k', n') :: rest → e = k ∨ e = k' ∨ k' < e := by
        rintro e _ (_ | ⟨_, _ | ⟨_, hin⟩⟩)
        · exact .inl rfl
        · exact .inr (.inl rfl)
        · exact .inr (.inr (hsecond _ hin))
      have hi := hplace _ _ hi
      have hj := hplace _ _ hj
      obtain ⟨rfl, rfl⟩ : k = i ∧ k' = j := by omega
      rfl

theorem exists_ambiguous_iff : (∃ i j, select ss args = .error (.ambiguous i j)) ↔
    ∃ i j n, i ≠ j ∧ Leads ss args i n ∧ Leads ss args j n := by
  constructor
  · rintro ⟨i, j, h⟩
    obtain ⟨hlt, ⟨n, hi⟩, ⟨n', hj⟩, -⟩ := select_eq_ambiguous_iff.1 h
    obtain rfl := hi.same hj
    exact ⟨i, j, n, Nat.ne_of_lt hlt, hi, hj⟩
  · rintro ⟨i, j, n, hne, hi, hj⟩
    have hi := mem_leaders.2 hi
    have hj := mem_leaders.2 hj
    rw [select_eq]
    generalize leaders ss args = l at hi hj
    match l with
    | [] => cases hi
    | [(k, _)] =>
      cases List.mem_singleton.1 hi
      cases List.mem_singleton.1 hj
      exact absurd rfl hne
    | (k, _) :: (k', _) :: rest => exact ⟨k, k', rfl⟩

theorem select_eq_mismatch_iff :
    select ss args = .error (.mismatch m) ↔ (∀ s ∈ ss, ¬ s.Fits args) ∧ Furthest ss args m := by
  rw [← leaders_eq_nil_iff, ← furthest_eq_some_iff, select_eq]
  match leaders ss args with
  | [] =>
    cases furthest none (mismatches ss args) <;> simp
  | [(i, _)] => simp
  | (i, _) :: (j, _) :: rest => simp

/-- Without signatures there is nothing to report. -/
theorem select_eq_empty_iff : select ss args = .error .empty ↔ ss = [] := by
  constructor
  · intro h
    cases ss with
    | nil => rfl
    | cons s rest =>
      have hnone : leaders (s :: rest) args = [] := by
        rw [select_eq] at h
        split at h
        · assumption
        · cases h
        · cases h
      have hfurthest : furthest none (mismatches (s :: rest) args) = none := by
        rw [select_eq, hnone] at h
        cases hm : furthest none (mismatches (s :: rest) args) with
        | none => rfl
        | some m =>
          rw [hm] at h
          cases h
      cases hscore : score s args with
      | ok n => exact absurd (score_eq_ok_iff.1 hscore).1 (leaders_eq_nil_iff.1 hnone s List.mem_cons_self)
      | error m =>
        obtain ⟨m', before, after, hsplit, hbefore, hafter⟩ := exists_first m (mismatches rest args)
        rw [mismatches_cons (score_eq_error_iff.1 hscore), hsplit,
          furthest_of_first (fun _ hb => by cases hb) hbefore hafter] at hfurthest
        cases hfurthest
  · rintro rfl
    rfl

/-- What is chosen, without its place among the signatures. -/
theorem chosen?_eq_some_iff_outscores : chosen? ss args = some s ↔
    ∃ rest, ss.Perm (s :: rest) ∧ s.Fits args ∧ ∀ s' ∈ rest, s'.Fits args → s'.worth args < s.worth args := by
  have hchosen : chosen? ss args = some s ↔ ∃ i, select ss args = .ok i ∧ ss[i]? = some s := by
    unfold chosen?
    cases select ss args <;> simp
  rw [hchosen]
  constructor
  · rintro ⟨i, hi, hs⟩
    obtain ⟨s', hs', hfits, hless⟩ := select_eq_ok_iff_outscores.1 hi
    cases hs.symm.trans hs'
    obtain ⟨hlt, rfl⟩ := List.getElem?_eq_some_iff.1 hs
    refine ⟨ss.eraseIdx i, (List.getElem_cons_eraseIdx_perm hlt).symm, hfits, fun s' hs' => ?_⟩
    obtain ⟨j, hj, hs'⟩ := List.mem_eraseIdx_iff_getElem?.1 hs'
    exact hless j s' hj hs'
  · rintro ⟨rest, hperm, hfits, hless⟩
    obtain ⟨i, hs⟩ := List.getElem?_of_mem (hperm.mem_iff.2 List.mem_cons_self)
    refine ⟨i, select_eq_ok_iff_outscores.2 ⟨s, hs, hfits, fun j s' hj hs' => hless s' ?_⟩, hs⟩
    obtain ⟨hlt, rfl⟩ := List.getElem?_eq_some_iff.1 hs
    have hothers : (ss.eraseIdx i).Perm rest := ((List.getElem_cons_eraseIdx_perm hlt).trans hperm).cons_inv
    exact hothers.mem_iff.1 (List.mem_eraseIdx_iff_getElem?.2 ⟨j, hj, hs'⟩)

/-- The order of the signatures has no part in what is chosen. -/
theorem chosen?_reordered (hperm : ss'.Perm ss) (args : List Argument) : chosen? ss' args = chosen? ss args := by
  ext s
  rw [chosen?_eq_some_iff_outscores, chosen?_eq_some_iff_outscores]
  exact exists_congr fun rest => and_congr_left fun _ => ⟨hperm.symm.trans, hperm.trans⟩

/-- What the choice among signatures does for some arguments. -/
structure ChoosesBest (ss : List Signature) (args : List Argument) : Prop where
  /-- A signature is chosen if the arguments fit it and it is worth strictly more than all others that they fit. -/
  chosen : ∀ i, select ss args = .ok i ↔ Outscores ss args i
  /-- The call is ambiguous if two of those that the arguments fit share the highest worth; -/
  tied : (∃ i j, select ss args = .error (.ambiguous i j)) ↔ ∃ i j n, i ≠ j ∧ Leads ss args i n ∧ Leads ss args j n
  /-- the first two of them are named. -/
  named : ∀ i j, select ss args = .error (.ambiguous i j) ↔ FirstTwo ss args i j
  /-- If the arguments fit none, the first failure among those that are furthest right is reported, -/
  missed : ∀ m, select ss args = .error (.mismatch m) ↔ (∀ s ∈ ss, ¬ s.Fits args) ∧ Furthest ss args m
  /-- and there is one unless there is no signature at all. -/
  empty : select ss args = .error .empty ↔ ss = []
  /-- The order of the signatures has no part in what is chosen. -/
  reordered : ∀ ss', ss'.Perm ss → chosen? ss' args = chosen? ss args

/-- **The one best signature is chosen.** -/
theorem best_fit_chosen (ss : List Signature) (args : List Argument) : ChoosesBest ss args where
  chosen _ := select_eq_ok_iff_outscores
  tied := exists_ambiguous_iff
  named _ _ := select_eq_ambiguous_iff
  missed _ := select_eq_mismatch_iff
  empty := select_eq_empty_iff
  reordered _ hperm := chosen?_reordered hperm args

/-- A whole number is an integer before it is a number, and one that is converted ties with any other conversion. -/
example : chosen? [[required "x" .number], [required "x" .integer, optional "flag" .boolean]] [.integer 4] =
      some [required "x" .integer, optional "flag" .boolean] ∧
    select [[required "a" .any], [required "n" .integer], [required "t" .string], [required "b" .any]]
      [.integer 4, .nil] = .error (.mismatch (.tooMany 1 2)) ∧
    select [[required "a" .any], [required "b" .boolean], [required "t" .string]] [.integer 4] =
      .error (.ambiguous 0 2) := by
  decide

end Choice

end ScriptWarden.Bridge
