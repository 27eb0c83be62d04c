import ScriptWarden.Api.Network
import ScriptWarden.Proofs.Backend.Address
import ScriptWarden.Proofs.Text.Utf8
set_option autoImplicit false

/-!
# Accepted paths

`checkPath` looks at the decoded path, all of it, and cuts it at slashes; the backend looks at the
path as it is written, up to the first `?` or `#`, and cuts that.  The two agree on every segment that
ends in a slash: decoding treats the parts before and behind a written slash on their own, so a
segment written as dots is a dot segment of the decoded path too (`written_dots`).

They do not agree on a last segment that a query or a fragment follows.  To `checkPath` the query is
part of the segment, so `..?x` is no double dot; to the backend it is one.  `accepted_below_root` says
what this costs: an accepted path leads out of a root in exactly this case, that its part before the
query is a double dot and nothing else.
-/

namespace ScriptWarden.Api

open Backend (Address isDots isDoubleDot beforeQuery endsPath pathOf withoutDots)
open Text (utf8 ofByteList)

/-! ## Decoding -/

theorem segments_eq_splitOn (cs : List Char) : segments cs = cs.splitOn '/' := by
  induction cs with
  | nil => rfl
  | cons c rest ih =>
    rw [segments, ih, List.splitOn_cons_eq_if_modifyHead]
    by_cases hc : c = '/'
    · simp [hc]
    · cases hrest : rest.splitOn '/' with
      | nil => exact absurd hrest (List.splitOn_ne_nil '/' rest)
      | cons s more => simp [hc]

/-- A byte in front stays unless two hexadecimal digits make an escape of it. -/
theorem percentDecode_cons {b : UInt8} {rest : List UInt8}
    (h : ∀ x y tail, b = 0x25 → rest = x :: y :: tail → hexDigit? x = none ∨ hexDigit? y = none) :
    percentDecode (b :: rest) = b :: percentDecode rest := by
  match rest with
  | [] => simp [percentDecode]
  | [x] => simp [percentDecode]
  | x :: y :: tail =>
    by_cases hb : b = 0x25
    · subst hb
      rcases h x y tail rfl rfl with hx | hy
      · simp [percentDecode, hx]
      · cases hx : hexDigit? x <;> simp [percentDecode, hx, hy]
    · rw [percentDecode.eq_2]
      intro _ _ _ e
      exact absurd e hb

/-- The parts before and behind a written slash are decoded on their own. -/
theorem percentDecode_slash (xs ys : List UInt8) :
    percentDecode (xs ++ 0x2F :: ys) = percentDecode xs ++ 0x2F :: percentDecode ys := by
  have slash : percentDecode (0x2F :: ys) = 0x2F :: percentDecode ys :=
    percentDecode_cons fun x y tail hb => absurd hb (by decide)
  fun_induction percentDecode xs with
  | case1 a b rest m n hm hn ih => simp [percentDecode, hm, hn, ih]
  | case2 a b rest hnot ih =>
    have stays : percentDecode (0x25 :: (a :: b :: rest ++ 0x2F :: ys)) =
        0x25 :: percentDecode (a :: b :: rest ++ 0x2F :: ys) := by
      refine percentDecode_cons ?_
      rintro x y tail - e
      obtain ⟨hx, hy, -⟩ : a = x ∧ b = y ∧ rest ++ 0x2F :: ys = tail := by simpa using e
      rw [← hx, ← hy]
      cases ha : hexDigit? a with
      | none => exact .inl rfl
      | some m =>
        cases hb : hexDigit? b with
        | none => exact .inr rfl
        | some n => exact absurd hb (hnot m n ha)
    rw [List.cons_append, stays, ih]
    rfl
  | case3 b rest hnot ih =>
    -- the slash is no digit, so it makes no escape of a percent sign before it
    have stays : percentDecode (b :: (rest ++ 0x2F :: ys)) =
        b :: percentDecode (rest ++ 0x2F :: ys) := by
      refine percentDecode_cons ?_
      rintro x y tail rfl e
      match rest with
      | [] =>
        obtain ⟨hx, -⟩ : 0x2F = x ∧ ys = y :: tail := by simpa using e
        exact .inl (by rw [← hx]; decide)
      | [a] =>
        obtain ⟨-, hy, -⟩ : a = x ∧ 0x2F = y ∧ ys = tail := by simpa using e
        exact .inr (by rw [← hy]; decide)
      | a :: b :: rest => exact absurd rfl (hnot a b rest rfl)
    rw [List.cons_append, stays, ih]
    rfl
  | case4 => exact slash

/-- A segment that is written as dots is, decoded, a dot segment. -/
theorem percentDecode_dots {s : List Char} (h : isDots s = true) :
    ∃ t, percentDecode (utf8 s) = utf8 t ∧ '/' ∉ t ∧ isDotSegment t = true := by
  have singles : ∀ s ∈ Backend.dotSpellings, percentDecode (utf8 s) = utf8 ['.'] := by decide
  have doubles : ∀ s ∈ Backend.dotSpellings.flatMap fun a => Backend.dotSpellings.map (a ++ ·),
      percentDecode (utf8 s) = utf8 ['.', '.'] := by decide
  rcases Bool.or_eq_true_iff.mp h with h | h
  · exact ⟨['.'], singles s (List.contains_iff_mem.mp h), by decide, rfl⟩
  · exact ⟨['.', '.'], doubles s (List.contains_iff_mem.mp h), by decide, rfl⟩

/-- Where the decoded path has no dot segments, no segment of the path as written is one. -/
theorem written_dots {written decoded : List Char}
    (h : percentDecode (utf8 written) = utf8 decoded)
    (plain : ∀ s ∈ decoded.splitOn '/', isDotSegment s = false) :
    ∀ s ∈ written.splitOn '/', isDots s = false := by
  by_cases slash : '/' ∈ written
  · -- cut at a slash: both parts are shorter, and the decoded path is cut at a slash as well
    obtain ⟨xs, ys, rfl⟩ := List.mem_iff_append.mp slash
    have enc : utf8 (xs ++ '/' :: ys) = utf8 xs ++ 0x2F :: utf8 ys := by
      rw [Text.utf8_append, Text.utf8_cons, Text.encodeChar_of_ascii (by decide)]
      rfl
    rw [enc, percentDecode_slash] at h
    obtain ⟨ds, es, rfl, hds, hes⟩ := Text.utf8_split (a := '/') (by decide) h.symm
    rw [List.splitOn_append_cons_self] at plain ⊢
    intro s hs
    rcases List.mem_append.mp hs with hs | hs
    · exact written_dots hds.symm (fun t ht => plain t (List.mem_append_left _ ht)) s hs
    · exact written_dots hes.symm (fun t ht => plain t (List.mem_append_right _ ht)) s hs
  · rw [List.splitOn_eq_singleton slash]
    intro s hs
    rw [List.mem_singleton.mp hs, Bool.eq_false_iff]
    intro dots
    obtain ⟨t, ht, hslash, hdot⟩ := percentDecode_dots dots
    have same : decoded = t := Text.utf8_injective (h.symm.trans ht)
    have := plain t (by rw [same, List.splitOn_eq_singleton hslash]; exact List.mem_cons_self)
    rw [hdot] at this
    cases this
termination_by written.length
decreasing_by all_goals simp_all <;> omega

/-! ## What an accepted path looks like -/

/-- Where one list of characters begins another, its segments but the last one are segments of the
other. -/
theorem dropLast_splitOn_isPrefix (c : Char) (xs ys : List Char) :
    (xs.splitOn c).dropLast <+: (xs ++ ys).splitOn c := by
  induction xs with
  | nil => simp
  | cons x xs ih =>
    rw [List.cons_append, List.splitOn_cons_eq_if_modifyHead, List.splitOn_cons_eq_if_modifyHead]
    split
    · rw [List.dropLast_cons_of_ne_nil (List.splitOn_ne_nil c xs)]
      exact List.cons_prefix_cons.mpr ⟨rfl, ih⟩
    · cases hxs : xs.splitOn c with
      | nil => exact absurd hxs (List.splitOn_ne_nil c xs)
      | cons s more =>
        cases more with
        | nil => simp
        | cons s' more =>
          rw [hxs, List.dropLast_cons_cons] at ih
          obtain ⟨tail, htail⟩ := ih
          rw [← htail]
          exact ⟨tail, by simp⟩

theorem checkPath_ok {p : String} (h : checkPath p = .ok ()) :
    p.toList.head? = some '/' ∧
      ∃ decoded : List Char, percentDecode (utf8 p.toList) = utf8 decoded ∧
        ∀ s ∈ decoded.splitOn '/', isDotSegment s = false := by
  unfold checkPath at h
  split at h
  · cases h
  · next absolute =>
    split at h
    · cases h
    · next decoded hdecoded =>
      rw [Text.toList_toUTF8] at hdecoded
      have bytes := Text.utf8_of_fromUTF8? hdecoded
      refine ⟨by simpa using absolute, decoded.toList, bytes, ?_⟩
      dsimp only at h
      split at h
      · cases h
      · split at h
        · cases h
        · next none => simpa [segments_eq_splitOn] using none

/-- Nothing is sent with a path that has not been accepted. -/
theorem requestOf_checked {c : Bridge.Call} {r : Host.Request} (h : requestOf c = .ok r) :
    checkPath r.path = .ok () := by
  simp only [requestOf, Bridge.Call.fail, bind, Except.bind, pure, Except.pure] at h
  -- every branch fails but the one behind all four checks
  repeat' split at h
  all_goals cases h
  next accepted _ _ _ => exact accepted

/-- No segment of an accepted path is written as dots. -/
theorem accepted_dots {p : String} (h : checkPath p = .ok ()) :
    ∀ s ∈ p.toList.splitOn '/', isDots s = false := by
  obtain ⟨-, decoded, bytes, plain⟩ := checkPath_ok h
  exact written_dots bytes plain

/-- An accepted path is cut where the slashes in front of it end. -/
theorem accepted_cut {p : String} (h : checkPath p = .ok ()) :
    ∃ front, p.toList = front ++ '/' :: p.toList.dropWhile (· = '/') := by
  obtain ⟨rest, hrest⟩ : ∃ rest, p.toList = '/' :: rest :=
    List.head?_eq_some_iff.mp (checkPath_ok h).1
  have parts : p.toList.takeWhile (· = '/') ++ p.toList.dropWhile (· = '/') = p.toList :=
    List.takeWhile_append_dropWhile
  rcases List.eq_nil_or_concat' (p.toList.takeWhile (· = '/')) with hnone | ⟨front, c, hsome⟩
  · simp [hrest] at hnone
  · have slash : c = '/' := by
      have mem : c ∈ p.toList.takeWhile (· = '/') := by simp [hsome]
      simpa using List.mem_takeWhile_imp mem
    rw [hsome, slash, List.append_assoc] at parts
    exact ⟨front, parts.symm⟩

/-- Without the slashes in front the segments of an accepted path are no dots either. -/
theorem accepted_dots_dropWhile {p : String} (h : checkPath p = .ok ()) :
    ∀ s ∈ (p.toList.dropWhile (· = '/')).splitOn '/', isDots s = false := by
  obtain ⟨front, cut⟩ := accepted_cut h
  intro s hs
  refine accepted_dots h s ?_
  rw [cut, List.splitOn_append_cons_self]
  exact List.mem_append_right _ hs

/-- Before its query, an accepted path has no dots but for its last segment. -/
theorem accepted_dots_beforeQuery {p : String} (h : checkPath p = .ok ()) :
    ∀ s ∈ ((beforeQuery (p.toList.dropWhile (· = '/'))).splitOn '/').dropLast, isDots s = false := by
  have parts : beforeQuery (p.toList.dropWhile (· = '/')) ++
      (p.toList.dropWhile (· = '/')).dropWhile (fun c => !endsPath c) =
        p.toList.dropWhile (· = '/') := List.takeWhile_append_dropWhile
  intro s hs
  refine accepted_dots_dropWhile h s ?_
  rw [← parts]
  exact (dropLast_splitOn_isPrefix '/' _ _).subset hs

/-- Without a query and a fragment, an accepted path is no double dot. -/
theorem accepted_not_double {p : String} (h : checkPath p = .ok ())
    (plain : ∀ c ∈ p.toList, endsPath c = false) :
    isDoubleDot (beforeQuery (p.toList.dropWhile (· = '/'))) = false := by
  have all : beforeQuery (p.toList.dropWhile (· = '/')) = p.toList.dropWhile (· = '/') := by
    refine List.takeWhile_eq_self_iff.mpr fun c hc => ?_
    simp [plain c (List.dropWhile_subset _ hc)]
  rw [all, Bool.eq_false_iff]
  intro double
  have single := List.splitOn_eq_singleton (Backend.slash_notMem_of_isDoubleDot double)
  have dots := accepted_dots_dropWhile h _ (single ▸ List.mem_cons_self)
  rw [isDots, double, Bool.or_true] at dots
  cases dots

/-! ## Where an accepted path leads -/

/-- An accepted path, put behind a base address whose own path has no dot segments, stays below the
base's root, unless the root is not the top and the path, without its leading slashes and up to its
query or fragment, is a double dot.  A path without query and fragment always stays below. -/
theorem accepted_below_root (a : Address) (base : ∀ s ∈ a.path.splitOn '/', isDots s = false)
    (p : String) (h : checkPath p = .ok ()) :
    ((a.root ++ ['/']) <+: withoutDots (pathOf (Backend.url a.text p).toList) ↔
      a.root = [] ∨ isDoubleDot (beforeQuery (p.toList.dropWhile (· = '/'))) = false) ∧
    ((∀ c ∈ p.toList, endsPath c = false) →
      (a.root ++ ['/']) <+: withoutDots (pathOf (Backend.url a.text p).toList)) := by
  have exactly := Backend.below_root_iff a.root_rooted (a.root_dots base)
    (accepted_dots_beforeQuery h)
  rw [Backend.pathOf_url]
  exact ⟨exactly, fun plain => exactly.mpr (.inr (accepted_not_double h plain))⟩

/-- A base address whose path is one segment. -/
def sampleBase : Address where
  scheme := "https".toList
  authority := "backend.invalid".toList
  path := "/api/".toList
  scheme_plain := by decide
  authority_nonempty := by decide
  authority_plain := by simp [Backend.endsAuthority, Backend.endsPath]
  path_rooted := .inr (by decide)
  path_plain := by simp [Backend.endsPath]

/-- The double dot of this path only takes back the segment before it. -/
theorem accepted_below_root_notes :
    (∀ s ∈ sampleBase.path.splitOn '/', isDots s = false) ∧ checkPath "/notes/..?full" = .ok () ∧
    (sampleBase.root ++ ['/']) <+:
      withoutDots (pathOf (Backend.url sampleBase.text "/notes/..?full").toList) := by
  have base : ∀ s ∈ sampleBase.path.splitOn '/', isDots s = false := by decide
  have accepted : checkPath "/notes/..?full" = .ok () := by decide +kernel
  have exactly := (accepted_below_root sampleBase base "/notes/..?full" accepted).1
  exact ⟨base, accepted, exactly.mpr (.inr (by decide))⟩

/-- A query hides a double dot from `checkPath`: this path is accepted and leads out of the root. -/
theorem query_hides_double_dot :
    (∀ s ∈ sampleBase.path.splitOn '/', isDots s = false) ∧ checkPath "/..?admin" = .ok () ∧
    sampleBase.root = "/api".toList ∧
    withoutDots (pathOf (Backend.url sampleBase.text "/..?admin").toList) = ['/'] ∧
    ¬ (sampleBase.root ++ ['/']) <+:
      withoutDots (pathOf (Backend.url sampleBase.text "/..?admin").toList) := by
  decide +kernel

end ScriptWarden.Api
