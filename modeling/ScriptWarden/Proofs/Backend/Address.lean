import Mathlib.Data.List.DropRight
import ScriptWarden.Backend
set_option autoImplicit false

/-!
# Addresses, and where a path leads

What the backend sees of an address is its path: the text between the authority and the first `?` or
`#`, with dot segments removed.  This module says what that means for a text (`pathOf`, `withoutDots`)
without looking at how the address was put together, and then what comes out for an address of
`Backend.url`.

A dot segment is `.` or `..`, and either dot may be written as the escape `%2e` or `%2E`.  The first
stays where it is and the second drops the segment before it; where a dot segment is the last one, an
empty segment is left in its place, so that the path still ends in a slash.

`below_root_iff` is the point: behind a root without dot segments, a path whose dot segments are at
most its last one leaves the root in one case only, that it consists of a double dot and nothing else.
-/

namespace ScriptWarden.Backend

/-! ## The path of an address -/

/-- A query or a fragment begins. -/
def endsPath (c : Char) : Bool := c == '?' || c == '#'

/-- The authority is over. -/
def endsAuthority (c : Char) : Bool := c == '/' || endsPath c

/-- What follows the scheme. -/
def afterScheme : List Char → List Char
  | ':' :: '/' :: '/' :: rest => rest
  | _ :: rest => afterScheme rest
  | [] => []

/-- What precedes the query and the fragment. -/
def beforeQuery (cs : List Char) : List Char := cs.takeWhile fun c => !endsPath c

/-- The path of an address. -/
def pathOf (address : List Char) : List Char :=
  beforeQuery ((afterScheme address).dropWhile fun c => !endsAuthority c)

/-! ## Dot segments -/

/-- The ways to write a dot. -/
def dotSpellings : List (List Char) := [['.'], ['%', '2', 'e'], ['%', '2', 'E']]

/-- A segment that stays where it is. -/
def isSingleDot (s : List Char) : Bool := dotSpellings.contains s

/-- A segment that leads one step up. -/
def isDoubleDot (s : List Char) : Bool :=
  (dotSpellings.flatMap fun a => dotSpellings.map fun b => a ++ b).contains s

/-- Either of them. -/
def isDots (s : List Char) : Bool := isSingleDot s || isDoubleDot s

/-- Follow segments one by one.  `kept` holds what is left of those passed, the last one first. -/
def follow (kept : List (List Char)) : List (List Char) → List (List Char)
  | [] => kept.reverse
  | s :: rest =>
    if isDots s then
      let above := if isDoubleDot s then kept.tail else kept
      follow (if rest.isEmpty then [] :: above else above) rest
    else follow (s :: kept) rest

/-- Segments with slashes between them. -/
def joined (segments : List (List Char)) : List Char := ['/'].intercalate segments

/-- The path with its dot segments removed.  What precedes the first slash is no segment. -/
def withoutDots (path : List Char) : List Char :=
  match path.splitOn '/' with
  | [] => []
  | front :: segments => joined (front :: follow [] segments)

theorem joined_splitOn (cs : List Char) : joined (cs.splitOn '/') = cs :=
  List.intercalate_splitOn '/'

theorem joined_append {xs ys : List (List Char)} (hx : xs ≠ []) (hy : ys ≠ []) :
    joined (xs ++ ys) = joined xs ++ '/' :: joined ys := by
  induction xs with
  | nil => exact absurd rfl hx
  | cons x xs ih =>
    cases xs with
    | nil => simp [joined, List.intercalate_cons_of_ne_nil hy]
    | cons x' xs =>
      have tail : joined ((x' :: xs) ++ ys) = joined (x' :: xs) ++ '/' :: joined ys := ih (by simp)
      simp only [joined, List.cons_append, List.intercalate_cons_cons] at tail ⊢
      rw [tail]
      simp

/-- Segments that are no dots are kept as they are. -/
theorem follow_append {segments : List (List Char)} (h : ∀ s ∈ segments, isDots s = false)
    (kept rest : List (List Char)) :
    follow kept (segments ++ rest) = follow (segments.reverse ++ kept) rest := by
  induction segments generalizing kept with
  | nil => rfl
  | cons s segments ih =>
    have head : isDots s = false := h s List.mem_cons_self
    have tail := ih (fun t ht => h t (List.mem_cons_of_mem _ ht)) (s :: kept)
    simp only [List.cons_append, follow, head, Bool.false_eq_true, if_false, tail,
      List.reverse_cons, List.append_assoc, List.nil_append]

/-- Where segments lead of which at most the last one is a dot segment. -/
theorem follow_path {front : List (List Char)} (h : ∀ s ∈ front, isDots s = false)
    (last : List Char) :
    follow [] (front ++ [last]) =
      if isDoubleDot last then front.dropLast ++ [[]]
      else if isSingleDot last then front ++ [[]]
      else front ++ [last] := by
  rw [follow_append h, List.append_nil]
  by_cases double : isDoubleDot last
  · simp [follow, isDots, double]
  · by_cases single : isSingleDot last
    · simp [follow, isDots, double, single]
    · simp [follow, isDots, double, single]

theorem slash_notMem_of_isDoubleDot {s : List Char} (h : isDoubleDot s = true) : '/' ∉ s := by
  have spellings : ∀ t ∈ dotSpellings.flatMap fun a => dotSpellings.map fun b => a ++ b, '/' ∉ t := by
    decide
  exact spellings s (List.contains_iff_mem.mp h)

/-! ## Below a root -/

/-- A root is empty, or the text before its first slash is. -/
theorem splitOn_root {root : List Char} (rooted : root = [] ∨ root.head? = some '/') :
    ∃ up, root.splitOn '/' = [] :: up := by
  rcases rooted with rfl | hhead
  · exact ⟨[], List.splitOn_nil '/'⟩
  · obtain ⟨tail, rfl⟩ : ∃ tail, root = '/' :: tail := List.head?_eq_some_iff.mp hhead
    exact ⟨tail.splitOn '/', List.splitOn_append_cons_self [] tail⟩

/-- Whatever follows all segments of the root is below it. -/
theorem root_isPrefix_joined {root : List Char} {up : List (List Char)}
    (hup : root = joined ([] :: up)) {segments : List (List Char)} (hne : segments ≠ []) :
    (root ++ ['/']) <+: joined ([] :: (up ++ segments)) := by
  rw [← List.cons_append, joined_append (List.cons_ne_nil _ _) hne, ← hup]
  exact ⟨joined segments, by simp⟩

/-- With a segment of the root gone, what is left is too short to hold the root. -/
theorem not_root_isPrefix_joined {root b : List Char} {up : List (List Char)}
    (hup : root = joined ([] :: (up ++ [b]))) :
    ¬ (root ++ ['/']) <+: joined ([] :: (up ++ [[]])) := by
  intro below
  have root_len : root.length = (joined ([] :: up)).length + (b.length + 1) := by
    rw [hup, ← List.cons_append, joined_append (List.cons_ne_nil _ _) (List.cons_ne_nil _ _)]
    simp [joined]
  have path_len : (joined ([] :: (up ++ [[]]))).length = (joined ([] :: up)).length + 1 := by
    rw [← List.cons_append, joined_append (List.cons_ne_nil _ _) (List.cons_ne_nil _ _)]
    simp [joined]
  have := below.length_le
  rw [List.length_append, List.length_singleton] at this
  omega

/-- A double dot is one segment. -/
theorem isDoubleDot_iff_segments {cs last : List Char} {first : List (List Char)}
    (h : cs.splitOn '/' = first ++ [last]) :
    isDoubleDot cs = true ↔ first = [] ∧ isDoubleDot last = true := by
  constructor
  · intro double
    have one : cs.splitOn '/' = [] ++ [cs] :=
      List.splitOn_eq_singleton (slash_notMem_of_isDoubleDot double)
    obtain ⟨hfirst, hlast⟩ := List.append_singleton_inj.mp (h.symm.trans one)
    exact ⟨hfirst, hlast ▸ double⟩
  · rintro ⟨rfl, double⟩
    have whole : cs = last := by
      rw [← joined_splitOn cs, h]
      simp [joined]
    exact whole ▸ double

/-- Segments behind a root, of which at most the last one is a dot segment, lead out of it only as a
double dot that nothing precedes, and not out of the empty root. -/
theorem below_segments_iff {root last : List Char} {up first : List (List Char)}
    (hup : root = joined ([] :: up)) (plain : ∀ s ∈ up ++ first, isDots s = false) :
    (root ++ ['/']) <+: joined ([] :: follow [] ((up ++ first) ++ [last])) ↔
      up = [] ∨ ¬ (first = [] ∧ isDoubleDot last = true) := by
  rw [follow_path plain]
  by_cases double : isDoubleDot last
  · rw [if_pos double]
    rcases List.eq_nil_or_concat' first with rfl | ⟨first, s, rfl⟩
    · -- nothing precedes the double dot, and it takes the last segment of the root away
      rw [List.append_nil]
      rcases List.eq_nil_or_concat' up with rfl | ⟨up, b, rfl⟩
      · exact iff_of_true (root_isPrefix_joined hup (List.cons_ne_nil _ _)) (.inl rfl)
      · rw [List.dropLast_concat]
        exact iff_of_false (not_root_isPrefix_joined hup) (by simp [double])
    · -- the double dot takes a segment of the rest away
      rw [← List.append_assoc, List.dropLast_concat, List.append_assoc]
      exact iff_of_true (root_isPrefix_joined hup (by simp)) (.inr (by simp))
  · rw [if_neg double, List.append_assoc, List.append_assoc]
    split
    · exact iff_of_true (root_isPrefix_joined hup (by simp)) (.inr (by simp [double]))
    · exact iff_of_true (root_isPrefix_joined hup (by simp)) (.inr (by simp [double]))

/-- Behind a root without dot segments come segments of which at most the last one is a dot segment.
The path stays below the root unless that last one is a double dot and nothing precedes it. -/
theorem below_root_iff {root rest : List Char} (rooted : root = [] ∨ root.head? = some '/')
    (hroot : ∀ s ∈ root.splitOn '/', isDots s = false)
    (hrest : ∀ s ∈ (rest.splitOn '/').dropLast, isDots s = false) :
    (root ++ ['/']) <+: withoutDots (root ++ '/' :: rest) ↔
      root = [] ∨ isDoubleDot rest = false := by
  obtain ⟨up, hup⟩ := splitOn_root rooted
  obtain ⟨first, last, hlast⟩ : ∃ first last, rest.splitOn '/' = first ++ [last] :=
    ⟨_, _, (List.dropLast_append_getLast (List.splitOn_ne_nil '/' rest)).symm⟩
  rw [hlast, List.dropLast_concat] at hrest
  have root_eq : root = joined ([] :: up) := by rw [← hup, joined_splitOn]
  have empty_iff : root = [] ↔ up = [] := by
    constructor
    · rintro rfl
      simpa using hup.symm
    · rintro rfl
      simpa [joined] using root_eq
  have plain : ∀ s ∈ up ++ first, isDots s = false := by
    intro s hs
    rcases List.mem_append.mp hs with hs | hs
    · exact hroot s (hup ▸ List.mem_cons_of_mem _ hs)
    · exact hrest s hs
  have path_eq : withoutDots (root ++ '/' :: rest) =
      joined ([] :: follow [] ((up ++ first) ++ [last])) := by
    have split : (root ++ '/' :: rest).splitOn '/' = [] :: ((up ++ first) ++ [last]) := by
      rw [List.splitOn_append_cons_self, hup, hlast, List.cons_append, List.append_assoc]
    rw [withoutDots, split]
  rw [path_eq, below_segments_iff root_eq plain, ← isDoubleDot_iff_segments hlast, empty_iff,
    Bool.not_eq_true]

/-! ## The addresses of a backend -/

/-- A base address in its parts, without a query or a fragment. -/
structure Address where
  scheme : List Char
  authority : List Char
  path : List Char
  scheme_plain : ':' ∉ scheme
  authority_nonempty : authority ≠ []
  authority_plain : ∀ c ∈ authority, endsAuthority c = false
  path_rooted : path = [] ∨ path.head? = some '/'
  path_plain : ∀ c ∈ path, endsPath c = false

namespace Address

/-- The address as it is written. -/
def text (a : Address) : String :=
  String.ofList (a.scheme ++ (':' :: '/' :: '/' :: (a.authority ++ a.path)))

/-- The path without the slashes at its end. -/
def root (a : Address) : List Char := a.path.rdropWhile (· = '/')

theorem root_isPrefix (a : Address) : a.root <+: a.path := List.rdropWhile_prefix _ a.path

theorem root_rooted (a : Address) : a.root = [] ∨ a.root.head? = some '/' := by
  obtain ⟨tail, htail⟩ := a.root_isPrefix
  rcases a.path_rooted with hpath | hpath
  · rw [hpath] at htail
    exact .inl (List.append_eq_nil_iff.mp htail).1
  · cases hroot : a.root with
    | nil => exact .inl rfl
    | cons c cs =>
      rw [← htail, hroot] at hpath
      exact .inr hpath

theorem root_plain (a : Address) : ∀ c ∈ a.root, endsPath c = false := fun c hc =>
  a.path_plain c (a.root_isPrefix.subset hc)

/-- The slashes at the end of a path hold no dot segments. -/
theorem root_dots (a : Address) (h : ∀ s ∈ a.path.splitOn '/', isDots s = false) :
    ∀ s ∈ a.root.splitOn '/', isDots s = false := by
  have parts : a.root ++ a.path.rtakeWhile (· = '/') = a.path :=
    List.rdropWhile_append_rtakeWhile
  cases hslashes : a.path.rtakeWhile (· = '/') with
  | nil =>
    rw [hslashes, List.append_nil] at parts
    rwa [parts]
  | cons c more =>
    have hc : c = '/' := by
      have mem : c ∈ a.path.rtakeWhile (· = '/') := hslashes ▸ List.mem_cons_self
      simpa using List.mem_rtakeWhile_imp mem
    intro s hs
    refine h s ?_
    rw [← parts, hslashes, hc, List.splitOn_append_cons_self]
    exact List.mem_append_left _ hs

end Address

theorem afterScheme_append {scheme : List Char} (h : ':' ∉ scheme) (rest : List Char) :
    afterScheme (scheme ++ (':' :: '/' :: '/' :: rest)) = rest := by
  induction scheme with
  | nil => rfl
  | cons c scheme ih =>
    have hc : c ≠ ':' := fun e => h (e ▸ List.mem_cons_self)
    have tail := ih fun hmem => h (List.mem_cons_of_mem _ hmem)
    rw [List.cons_append, afterScheme.eq_2, tail]
    intro _ e
    exact absurd e hc

theorem toList_root_text (a : Address) :
    (Backend.root a.text).toList = a.scheme ++ (':' :: '/' :: '/' :: (a.authority ++ a.root)) := by
  -- trimming stops at the authority, whose last character is no slash
  have stop : (a.authority.reverse ++ (a.scheme ++ [':', '/', '/']).reverse).dropWhile (· = '/') =
      a.authority.reverse ++ (a.scheme ++ [':', '/', '/']).reverse := by
    obtain ⟨front, c, hc⟩ := (List.eq_nil_or_concat' a.authority).resolve_left a.authority_nonempty
    have plain : endsAuthority c = false := a.authority_plain c (by simp [hc])
    have ne : c ≠ '/' := by
      rintro rfl
      exact absurd plain (by decide)
    simp [hc, ne]
  have trim : (a.path.reverse ++ (a.authority.reverse ++ (a.scheme ++ [':', '/', '/']).reverse)).dropWhile
      (· = '/') = a.root.reverse ++ (a.authority.reverse ++ (a.scheme ++ [':', '/', '/']).reverse) := by
    rw [List.dropWhile_append, stop, Address.root, List.rdropWhile, List.reverse_reverse]
    split
    · next empty => rw [List.isEmpty_iff.mp empty, List.nil_append]
    · rfl
  have bytes : a.text.toList.reverse =
      a.path.reverse ++ (a.authority.reverse ++ (a.scheme ++ [':', '/', '/']).reverse) := by
    simp [Address.text]
  rw [Backend.root, String.toList_ofList, bytes, trim]
  simp

/-- What the backend sees of a path behind a base address. -/
theorem pathOf_url (a : Address) (p : String) :
    pathOf (url a.text p).toList = a.root ++ '/' :: beforeQuery (p.toList.dropWhile (· = '/')) := by
  have address : (url a.text p).toList = a.scheme ++ (':' :: '/' :: '/' ::
      (a.authority ++ (a.root ++ '/' :: p.toList.dropWhile (· = '/')))) := by
    simp [url, toList_root_text]
  have authority : (a.authority ++ (a.root ++ '/' :: p.toList.dropWhile (· = '/'))).dropWhile
      (fun c => !endsAuthority c) = a.root ++ '/' :: p.toList.dropWhile (· = '/') := by
    rw [List.dropWhile_append_of_pos fun c hc => by simp [a.authority_plain c hc]]
    -- what follows the authority begins with a slash, be it one of the root or the one behind it
    rcases a.root_rooted with hroot | hroot
    · rw [hroot]
      rfl
    · obtain ⟨tail, htail⟩ : ∃ tail, a.root = '/' :: tail := List.head?_eq_some_iff.mp hroot
      rw [htail]
      rfl
  rw [pathOf, address, afterScheme_append a.scheme_plain, authority, beforeQuery,
    List.takeWhile_append_of_pos fun c hc => by simp [a.root_plain c hc]]
  rfl

end ScriptWarden.Backend
