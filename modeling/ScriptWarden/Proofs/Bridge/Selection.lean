import Mathlib.Data.List.Basic
import ScriptWarden.Bridge.Selection
set_option autoImplicit false

/-!
# Bridge: overloads that are apart

A signature accepts arguments or does not; its score only says how well.  Two signatures are *apart* if at some
place one of them needs an argument that the other one has no room for, or takes only arguments of another kind.  Of
signatures that are apart at most one accepts what a script passes, so neither scores nor the order of the signatures
have a part in the choice (`select_eq_ok_iff`, `chosen_perm`).
-/

namespace ScriptWarden.Bridge

variable {s s' : Signature} {args : List Argument}

/-! ## What a signature accepts -/

/-- Does a signature accept the arguments, whatever its score? -/
def Accepts (s : Signature) (args : List Argument) : Prop := ∃ n, score s args = .ok n

/-- Does a parameter take an argument?  What is left out must be optional. -/
def Param.Takes (p : Param) (a : Argument) : Prop :=
  if a.isNil then p.isOptional else (matchScore? p.type a).isSome

theorem Param.takes_of_required {p : Param} {a : Argument} (h : p.Takes a) (hp : p.isOptional = false) :
    a.isNil = false ∧ (matchScore? p.type a).isSome := by
  unfold Param.Takes at h
  split at h
  · rw [hp] at h
    cases h
  · next hnil => exact ⟨by simpa using hnil, h⟩

theorem scoreFrom_isOk (index : Nat) (s : Signature) (args : List Argument) :
    (∃ n, scoreFrom index s args = .ok n) ↔
      ∀ (i : Nat) p, s[i]? = some p → p.Takes (args[i]?.getD .nil) := by
  induction s generalizing index args with
  | nil => simp [scoreFrom]
  | cons p ps ih =>
    have hsplit : (∀ (i : Nat) q, (p :: ps)[i]? = some q → q.Takes (args[i]?.getD .nil)) ↔
        p.Takes (args.headD .nil) ∧ ∀ (i : Nat) q, ps[i]? = some q → q.Takes (args.tail[i]?.getD .nil) := by
      constructor
      · intro h
        exact ⟨by simpa [List.headD_eq_head?_getD, List.head?_eq_getElem?] using h 0 p rfl,
          fun i q hq => by simpa [List.getElem?_tail] using h (i + 1) q hq⟩
      · rintro ⟨hfirst, hrest⟩ i q hq
        cases i with
        | zero =>
          cases hq
          simpa [List.headD_eq_head?_getD, List.head?_eq_getElem?] using hfirst
        | succ i => simpa [List.getElem?_tail] using hrest i q hq
    rw [hsplit, ← ih (index + 1) args.tail, scoreFrom]
    simp only [Param.Takes]
    generalize scoreFrom (index + 1) ps args.tail = rest
    split
    · cases p.isOptional <;> simp
    · cases matchScore? p.type (args.headD .nil) with
      | none => simp
      | some n => cases rest <;> simp [Except.map]

/-- A signature accepts arguments for which it has room if each of its parameters takes the one in its place. -/
theorem accepts_iff (s : Signature) (args : List Argument) :
    Accepts s args ↔ args.length ≤ s.length ∧
      ∀ (i : Nat) p, s[i]? = some p → p.Takes (args[i]?.getD .nil) := by
  rw [← scoreFrom_isOk 1 s args]
  unfold Accepts score
  split
  · next hlong => simp [Nat.not_le.2 hlong]
  · next hshort => simp [Nat.not_lt.1 hshort]

/-- What is chosen accepts the arguments. -/
theorem accepts_of_select {ss : List Signature} {i : Nat} (h : select ss args = .ok i) :
    ∃ s, ss[i]? = some s ∧ Accepts s args := by
  unfold select at h
  simp only at h
  split at h
  · split at h <;> cases h
  · next n hbest =>
    cases h
    have hmem : (i, n) ∈ accepted ss args :=
      (List.mem_filter.1 (hbest ▸ List.mem_singleton_self (i, n))).1
    obtain ⟨⟨s, j⟩, hs, hscore⟩ := List.mem_filterMap.1 hmem
    cases hn : score s args with
    | error m => simp [hn] at hscore
    | ok m =>
      simp only [hn, Option.some.injEq, Prod.mk.injEq] at hscore
      obtain ⟨rfl, -⟩ := hscore
      exact ⟨s, List.mem_zipIdx_iff_getElem?.1 hs, m, hn⟩
  · cases h

/-! ## Signatures that are apart -/

/-- The kind of arguments that a type takes: numbers pass as texts. -/
def ArgType.kind : ArgType → ArgType
  | .integer | .number => .string
  | t => t

/-- The kind of an argument. -/
def Argument.kind? : Argument → Option ArgType
  | .integer _ | .number _ | .string _ => some .string
  | .boolean _ => some .boolean
  | .table (some [_, _, _]) => some .vec3
  | .table (some [_, _, _, _]) => some .vec4
  | .object type _ => some (.object type)
  | .function _ => some .function
  | _ => none

theorem kind_of_match {t : ArgType} {a : Argument} (h : (matchScore? t a).isSome) :
    t = .any ∨ a.kind? = some t.kind := by
  unfold matchScore? at h
  split at h
  case h_11 type found _ =>
    refine .inr ?_
    split at h
    · next heq => rw [heq]; rfl
    · cases h
  case h_13 => exact .inl rfl
  case h_14 => cases h
  all_goals exact .inr rfl

/-- Do two types exclude each other?  No argument is of both then. -/
def ArgType.Excludes (t t' : ArgType) : Prop := t ≠ .any ∧ t' ≠ .any ∧ t.kind ≠ t'.kind

instance (t t' : ArgType) : Decidable (t.Excludes t') := inferInstanceAs (Decidable (_ ∧ _ ∧ _))

theorem ArgType.Excludes.symm {t t' : ArgType} (h : t.Excludes t') : t'.Excludes t :=
  ⟨h.2.1, h.1, h.2.2.symm⟩

theorem ArgType.Excludes.not_match {t t' : ArgType} (h : t.Excludes t') {a : Argument}
    (ha : (matchScore? t a).isSome) : ¬ (matchScore? t' a).isSome := by
  intro ha'
  have hkind := (kind_of_match ha).resolve_left h.1
  have hkind' := (kind_of_match ha').resolve_left h.2.1
  exact h.2.2 (Option.some.inj (hkind.symm.trans hkind'))

/-- Do the parameters in one place clash?  One of them needs an argument that the other one does not take. -/
def Clash : Option Param → Option Param → Prop
  | some p, some p' => (p.isOptional && p'.isOptional) = false ∧ p.type.Excludes p'.type
  | some p, none | none, some p => p.isOptional = false
  | none, none => False

instance (p p' : Option Param) : Decidable (Clash p p') :=
  match p, p' with
  | some _, some _ => inferInstanceAs (Decidable (_ ∧ _))
  | some _, none | none, some _ => inferInstanceAs (Decidable (_ = _))
  | none, none => inferInstanceAs (Decidable False)

theorem Clash.symm {p p' : Option Param} (h : Clash p p') : Clash p' p := by
  cases p <;> cases p'
  · exact h
  · exact h
  · exact h
  · exact ⟨Bool.and_comm _ _ ▸ h.1, h.2.symm⟩

/-- Signatures that accept no arguments in common. -/
def Apart (s s' : Signature) : Prop :=
  ∃ i ∈ List.range (max s.length s'.length), Clash s[i]? s'[i]?

instance (s s' : Signature) : Decidable (Apart s s') := inferInstanceAs (Decidable (∃ _ ∈ _, _))

theorem Apart.symm (h : Apart s s') : Apart s' s := by
  obtain ⟨i, hi, hclash⟩ := h
  exact ⟨i, Nat.max_comm s.length s'.length ▸ hi, hclash.symm⟩

/-- A parameter that must be given makes the arguments reach its place. -/
theorem Accepts.length_of_required (h : Accepts s args) {i : Nat} {p : Param} (hp : s[i]? = some p)
    (hrequired : p.isOptional = false) : i < args.length := by
  have hgiven := (Param.takes_of_required (((accepts_iff s args).1 h).2 i p hp) hrequired).1
  by_contra hbeyond
  rw [List.getElem?_eq_none (Nat.not_lt.1 hbeyond)] at hgiven
  cases hgiven

theorem Accepts.lt_length (h : Accepts s args) {i : Nat} (hi : i < args.length) : i < s.length :=
  Nat.lt_of_lt_of_le hi ((accepts_iff s args).1 h).1

theorem Apart.not_accepts (h : Apart s s') (hs : Accepts s args) : ¬ Accepts s' args := by
  intro hs'
  obtain ⟨i, -, hclash⟩ := h
  cases hp : s[i]? with
  | none =>
    cases hp' : s'[i]? with
    | none => simp [Clash, hp, hp'] at hclash
    | some p' =>
      have hroom := hs.lt_length (hs'.length_of_required hp' (by simpa [Clash, hp, hp'] using hclash))
      simp [List.getElem?_eq_getElem hroom] at hp
  | some p =>
    cases hp' : s'[i]? with
    | none =>
      have hroom := hs'.lt_length (hs.length_of_required hp (by simpa [Clash, hp, hp'] using hclash))
      simp [List.getElem?_eq_getElem hroom] at hp'
    | some p' =>
      obtain ⟨hneeded, hexcludes⟩ : _ ∧ p.type.Excludes p'.type := by simpa [Clash, hp, hp'] using hclash
      have htakes := ((accepts_iff s args).1 hs).2 i p hp
      have htakes' := ((accepts_iff s' args).1 hs').2 i p' hp'
      unfold Param.Takes at htakes htakes'
      split at htakes
      · next hnil => simp_all
      · next hgiven =>
        rw [if_neg hgiven] at htakes'
        exact hexcludes.not_match htakes htakes'

/-! ## Choosing among signatures that are apart -/

section Choice

variable {ss : List Signature}

/-- The scores of the signatures that accept the arguments, numbered from `k` on. -/
def acceptedFrom (k : Nat) (ss : List Signature) (args : List Argument) : List (Nat × Nat) :=
  (ss.zipIdx k).filterMap fun (s, i) =>
    match score s args with
    | .ok n => some (i, n)
    | .error _ => none

theorem acceptedFrom_cons (k : Nat) (s : Signature) (ss : List Signature) (args : List Argument) :
    acceptedFrom k (s :: ss) args =
      match score s args with
      | .ok n => (k, n) :: acceptedFrom (k + 1) ss args
      | .error _ => acceptedFrom (k + 1) ss args := by
  unfold acceptedFrom
  rw [List.zipIdx_cons, List.filterMap_cons]
  cases hscore : score s args <;> simp only [hscore]

theorem acceptedFrom_cases (hss : ss.Pairwise Apart) (args : List Argument) (k : Nat) :
    (∀ s ∈ ss, ¬ Accepts s args) ∧ acceptedFrom k ss args = [] ∨
      ∃ (i : Nat) (s : Signature) (n : Nat),
        ss[i]? = some s ∧ Accepts s args ∧ acceptedFrom k ss args = [(k + i, n)] := by
  induction ss generalizing k with
  | nil => exact .inl ⟨by simp, rfl⟩
  | cons s rest ih =>
    obtain ⟨hfirst, hrest⟩ := List.pairwise_cons.1 hss
    rw [acceptedFrom_cons]
    cases hscore : score s args with
    | error m =>
      have hrefused : ¬ Accepts s args := by
        rintro ⟨n, hn⟩
        rw [hscore] at hn
        cases hn
      obtain ⟨hnone, hempty⟩ | ⟨i, s', n, hs', haccepts, hone⟩ := ih hrest (k + 1)
      · refine .inl ⟨?_, hempty⟩
        rintro s' (_ | ⟨_, hs'⟩)
        · exact hrefused
        · exact hnone s' hs'
      · exact .inr ⟨i + 1, s', n, hs', haccepts, hone.trans (by rw [Nat.add_assoc, Nat.add_comm 1])⟩
    | ok n =>
      have haccepts : Accepts s args := ⟨n, hscore⟩
      refine .inr ⟨0, s, n, rfl, haccepts, ?_⟩
      obtain ⟨-, hempty⟩ | ⟨i, s', m, hs', haccepts', -⟩ := ih hrest (k + 1)
      · simp [hempty]
      · exact absurd haccepts' ((hfirst s' (List.mem_of_getElem? hs')).not_accepts haccepts)

theorem select_of_accepted {i n : Nat} (h : accepted ss args = [(i, n)]) : select ss args = .ok i := by
  simp [select, h]

theorem select_cases (hss : ss.Pairwise Apart) (args : List Argument) :
    (∀ s ∈ ss, ¬ Accepts s args) ∧ (select ss args = .error .empty ∨
        ∃ m, select ss args = .error (.mismatch m)) ∨
      ∃ (i : Nat) (s : Signature), ss[i]? = some s ∧ Accepts s args ∧ select ss args = .ok i := by
  obtain ⟨hnone, hempty⟩ | ⟨i, s, n, hs, haccepts, hone⟩ := acceptedFrom_cases hss args 0
  · refine .inl ⟨hnone, ?_⟩
    have haccepted : accepted ss args = [] := hempty
    unfold select
    simp only [haccepted, List.filter_nil]
    split
    · exact .inr ⟨_, rfl⟩
    · exact .inl rfl
  · exact .inr ⟨i, s, hs, haccepts, select_of_accepted (n := n) (by rw [← Nat.zero_add i]; exact hone)⟩

/-- At most one of the signatures accepts the arguments. -/
theorem accepts_unique (hss : ss.Pairwise Apart) {i j : Nat} (hi : ss[i]? = some s) (hj : ss[j]? = some s')
    (hs : Accepts s args) (hs' : Accepts s' args) : i = j := by
  obtain ⟨hlt, rfl⟩ := List.getElem?_eq_some_iff.1 hi
  obtain ⟨hlt', rfl⟩ := List.getElem?_eq_some_iff.1 hj
  rcases Nat.lt_trichotomy i j with h | h | h
  · exact absurd hs' ((List.pairwise_iff_getElem.1 hss i j hlt hlt' h).not_accepts hs)
  · exact h
  · exact absurd hs ((List.pairwise_iff_getElem.1 hss j i hlt' hlt h).not_accepts hs')

/-- No two signatures fit equally well. -/
theorem select_ne_ambiguous (hss : ss.Pairwise Apart) (args : List Argument) (i j : Nat) :
    select ss args ≠ .error (.ambiguous i j) := by
  obtain ⟨-, h | ⟨m, h⟩⟩ | ⟨k, s, -, -, h⟩ := select_cases hss args <;> rw [h] <;> nofun

/-- The signature that is chosen is the one that accepts the arguments: scores have no part in it. -/
theorem select_eq_ok_iff (hss : ss.Pairwise Apart) (args : List Argument) (i : Nat) :
    select ss args = .ok i ↔ ∃ s, ss[i]? = some s ∧ Accepts s args := by
  obtain ⟨hnone, hrefused⟩ | ⟨k, s, hs, haccepts, hk⟩ := select_cases hss args
  · constructor
    · intro h
      obtain hrefused | ⟨m, hrefused⟩ := hrefused <;> rw [hrefused] at h <;> cases h
    · rintro ⟨s, hs, haccepts⟩
      exact absurd haccepts (hnone s (List.mem_of_getElem? hs))
  · constructor
    · intro h
      rw [hk] at h
      cases h
      exact ⟨s, hs, haccepts⟩
    · rintro ⟨s', hs', haccepts'⟩
      rw [hk, accepts_unique hss hs hs' haccepts haccepts']

/-- The signature that is chosen for the arguments, if any is. -/
def chosen? (ss : List Signature) (args : List Argument) : Option Signature :=
  match select ss args with
  | .ok i => ss[i]?
  | .error _ => none

theorem chosen?_eq_some_iff (hss : ss.Pairwise Apart) (args : List Argument) (s : Signature) :
    chosen? ss args = some s ↔ s ∈ ss ∧ Accepts s args := by
  unfold chosen?
  obtain ⟨hnone, hrefused⟩ | ⟨i, s', hs', haccepts, hi⟩ := select_cases hss args
  · have hnever : ¬ (s ∈ ss ∧ Accepts s args) := fun h => hnone s h.1 h.2
    obtain hrefused | ⟨m, hrefused⟩ := hrefused <;> simp [hrefused, hnever]
  · rw [hi]
    simp only [hs', Option.some.injEq]
    constructor
    · rintro rfl
      exact ⟨List.mem_of_getElem? hs', haccepts⟩
    · rintro ⟨hs, haccepts'⟩
      obtain ⟨j, hj⟩ := List.getElem?_of_mem hs
      obtain rfl := accepts_unique hss hs' hj haccepts haccepts'
      exact Option.some.inj (hs'.symm.trans hj)

/-- The order in which the signatures stand has no part in the choice. -/
theorem chosen?_perm (hss : ss.Pairwise Apart) {ss' : List Signature} (hperm : ss'.Perm ss)
    (args : List Argument) : chosen? ss' args = chosen? ss args := by
  have hss' : ss'.Pairwise Apart := (hperm.pairwise_iff fun h => h.symm).2 hss
  ext s
  rw [chosen?_eq_some_iff hss', chosen?_eq_some_iff hss, hperm.mem_iff]

end Choice

end ScriptWarden.Bridge
