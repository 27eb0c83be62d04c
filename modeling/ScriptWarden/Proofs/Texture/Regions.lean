import Mathlib.Data.List.Permutation
import ScriptWarden.Proofs.Texture.Drawn
import ScriptWarden.Proofs.Texture.Words
set_option autoImplicit false

/-!
# Texture: areas and regions

An area is a first corner and a size, a region two opposite corners.  An area is coloured as a whole or not at all, and
nothing is coloured that does not belong to it, for all numbers that a word can hold (`fill_exact`).  The cells of a
region are listed once each and row by row; queueing them and cancelling the region are about the same cells, in
whatever order the corners are given (`regions_exact`).
-/

namespace ScriptWarden.Texture

/-! ## Areas -/

/-- Does the position lie in the area? -/
def InArea (x y width height : Int) (p : Position) : Prop := (x ≤ p.x ∧ p.x < x + width) ∧ y ≤ p.y ∧ p.y < y + height

instance (x y width height : Int) (p : Position) : Decidable (InArea x y width height p) :=
  inferInstanceAs (Decidable ((_ ∧ _) ∧ _ ∧ _))

theorem Canvas.exists_at_iff (v : Canvas) {x y : Int} :
    (∃ p, v.At x y p) ↔ (0 ≤ x ∧ x < v.width) ∧ 0 ≤ y ∧ y < v.height := by
  constructor
  · rintro ⟨p, rfl, rfl, hx, hy⟩
    exact ⟨⟨Int.natCast_nonneg _, Int.ofNat_lt.2 hx⟩, Int.natCast_nonneg _, Int.ofNat_lt.2 hy⟩
  · rintro ⟨⟨hx, hx'⟩, hy, hy'⟩
    refine ⟨⟨x.toNat, y.toNat⟩, Int.toNat_of_nonneg hx, Int.toNat_of_nonneg hy, ?_, ?_⟩
    · simp only
      omega
    · simp only
      omega

namespace Image

/-- The whole area lies on the image. -/
def Encloses (i : Image) (x y width height : Int) : Prop :=
  (0 ≤ x ∧ x + width ≤ i.width) ∧ 0 ≤ y ∧ y + height ≤ i.height

/-- The image after an area of it got a colour. -/
structure Filled (i : Image) (x y width height : Int) (c : Color) (i' : Image) : Prop where
  name_eq : i'.name = i.name
  width_eq : i'.width = i.width
  height_eq : i'.height = i.height
  dirty : i'.dirty = true
  pixel_eq : ∀ p, p.x < i.width → p.y < i.height →
    i'.pixel p = if InArea x y width height p then c else i.pixel p

section Fill

variable {i : Image} {x y width height : Int}

/-- An area lies on an image with both its corners.  A far corner that stops at the largest number lies beside it. -/
theorem corners_at_iff (hwidth : 0 < width) (hheight : 0 < height) (hi : i.width ≤ farthest ∧ i.height ≤ farthest) :
    ((∃ p, i.canvas.At x y p) ∧ ∃ q, i.canvas.At (reach x width) (reach y height) q) ↔
      i.Encloses x y width height := by
  obtain ⟨hw, hh⟩ := hi
  rw [Canvas.exists_at_iff, Canvas.exists_at_iff, Encloses]
  change (((0 : Int) ≤ x ∧ x < i.width) ∧ 0 ≤ y ∧ y < i.height) ∧
    (0 ≤ reach x width ∧ reach x width < i.width) ∧ 0 ≤ reach y height ∧ reach y height < i.height ↔ _
  unfold reach
  omega

/-- The rectangle of the two corners is the area. -/
theorem contains_corners (hwidth : 0 < width) (hheight : 0 < height) (harea : i.Encloses x y width height)
    (hi : i.width ≤ farthest ∧ i.height ≤ farthest) (p : Position) :
    (Rect.ofCorners x y (reach x width) (reach y height)).contains p = true ↔ InArea x y width height p := by
  obtain ⟨⟨hx, hx'⟩, hy, hy'⟩ := harea
  simp only [Rect.contains, Bool.and_eq_true, decide_eq_true_eq]
  simp only [Rect.ofCorners, reach, InArea]
  omega

theorem fill_of_encloses (hwidth : 0 < width) (hheight : 0 < height) (harea : i.Encloses x y width height)
    (hi : i.width ≤ farthest ∧ i.height ≤ farthest) (c : Color) :
    ∃ i', i.fill x y width height c = .ok i' ∧ i.Filled x y width height c i' := by
  obtain ⟨⟨p, hp⟩, q, hq⟩ := (corners_at_iff hwidth hheight hi).2 harea
  obtain ⟨i', hfill, hcanvas⟩ := fill_of_at (by omega) hp hq c
  have hwidth_eq : i'.width = i.width := congrArg Canvas.width hcanvas
  have hheight_eq : i'.height = i.height := congrArg Canvas.height hcanvas
  have hdirty : i'.dirty = true := congrArg Canvas.dirty hcanvas
  refine ⟨i', hfill, (touched_fill hfill).name_eq, hwidth_eq, hheight_eq, hdirty, fun r hx hy => ?_⟩
  have hhas : i.canvas.Has r := ⟨hx, hy⟩
  have hhas' : i'.canvas.Has r := ⟨Nat.lt_of_lt_of_eq hx hwidth_eq.symm, Nat.lt_of_lt_of_eq hy hheight_eq.symm⟩
  have hcolour : some (i'.pixel r) = some (if InArea x y width height r then c else i.pixel r) :=
    calc some (i'.pixel r) = i'.canvas.colour r := (colour_of_has hhas').symm
      _ = (i.canvas.overlay _).colour r := congrArg (fun v => v.colour r) hcanvas
      _ = (stroke (InArea x y width height) c r).or (i.canvas.colour r) := by
        rw [Canvas.overlay_of_has hhas, stroke_congr (contains_corners hwidth hheight harea hi)]
      _ = some (if InArea x y width height r then c else i.pixel r) := by
        rw [colour_of_has hhas, stroke]
        split
        · rfl
        · rfl
  exact Option.some.inj hcolour

/-- An area that is not all on the image is refused, for one of its corners. -/
theorem fill_of_not_encloses (hwidth : 0 < width) (hheight : 0 < height) (harea : ¬ i.Encloses x y width height)
    (hi : i.width ≤ farthest ∧ i.height ≤ farthest) (c : Color) :
    ∃ px py, i.canvas.Beside px py ∧ i.fill x y width height c = .error (.outOfBounds px py i.width i.height) := by
  obtain ⟨p, hp⟩ | hbeside := i.canvas.at_or_beside x y
  · obtain ⟨q, hq⟩ | hbeside := i.canvas.at_or_beside (reach x width) (reach y height)
    · exact absurd ((corners_at_iff hwidth hheight hi).1 ⟨⟨p, hp⟩, q, hq⟩) harea
    · exact ⟨_, _, hbeside, fill_of_last_beside (by omega) hp hbeside c⟩
  · exact ⟨_, _, hbeside, fill_of_first_beside (by omega) hbeside c⟩

end Fill

/-- What colouring an area does. -/
structure FillsExactly (i : Image) (columns rows : UInt32) (x y width height : Int64) (c : Color) : Prop where
  /-- Every number on the way fits its word. -/
  fits : i.fillWords? columns rows x y width height c = some (i.fill x.toInt y.toInt width.toInt height.toInt c)
  empty : width ≤ 0 ∨ height ≤ 0 → i.fill x.toInt y.toInt width.toInt height.toInt c = .ok i
  filled : 0 < width → 0 < height → i.Encloses x.toInt y.toInt width.toInt height.toInt →
    ∃ i', i.fill x.toInt y.toInt width.toInt height.toInt c = .ok i' ∧
      i.Filled x.toInt y.toInt width.toInt height.toInt c i'
  refused : 0 < width → 0 < height → ¬ i.Encloses x.toInt y.toInt width.toInt height.toInt →
    ∃ px py, i.canvas.Beside px py ∧
      i.fill x.toInt y.toInt width.toInt height.toInt c = .error (.outOfBounds px py i.width i.height)
  /-- Where the image is kept, the result takes its place; if there is none, everything stays as it was. -/
  kept : ∀ (g : Gallery) (id : Nat), g.image? id = some i →
    match i.fill x.toInt y.toInt width.toInt height.toInt c,
      g.outcome (.change (.write id (.fill x.toInt y.toInt width.toInt height.toInt c))) with
    | .ok i', (reply, g') => reply = .ok .done ∧ g'.image? id = some i'
    | .error e, (reply, g') => reply = .error e ∧ g' = g

/-- The image that a gallery keeps after an area of it was to be coloured. -/
theorem outcome_fill {i : Image} {g : Gallery} {id : Nat} (himage : g.image? id = some i) (x y width height : Int)
    (c : Color) :
    match i.fill x y width height c, g.outcome (.change (.write id (.fill x y width height c))) with
    | .ok i', (reply, g') => reply = .ok .done ∧ g'.image? id = some i'
    | .error e, (reply, g') => reply = .error e ∧ g' = g := by
  unfold Gallery.outcome
  rw [Gallery.respond_write himage, respond]
  cases i.fill x y width height c with
  | error e => exact ⟨rfl, rfl⟩
  | ok i' =>
    refine ⟨rfl, ?_⟩
    rw [Gallery.image?_editImage, if_pos rfl, himage]
    rfl

/-- Colouring an area does nothing if the area is empty, colours exactly its pixels if it lies on the image, and is
refused otherwise. -/
theorem fill_exact (i : Image) (columns rows : UInt32) (hwidth : i.width = columns.toNat)
    (hheight : i.height = rows.toNat) (x y width height : Int64) (c : Color) :
    i.FillsExactly columns rows x y width height c := by
  have hi : i.width ≤ farthest ∧ i.height ≤ farthest := by
    have hcolumns := columns.toNat_lt
    have hrows := rows.toNat_lt
    unfold farthest
    omega
  constructor
  · exact fillWords?_eq hwidth hheight x y width height c
  · intro hempty
    rw [Int64.le_iff_toInt_le, Int64.le_iff_toInt_le, Int64.toInt_zero] at hempty
    exact fill_of_empty hempty c
  · intro hw hh harea
    rw [Int64.lt_iff_toInt_lt, Int64.toInt_zero] at hw hh
    exact fill_of_encloses hw hh harea hi c
  · intro hw hh harea
    rw [Int64.lt_iff_toInt_lt, Int64.toInt_zero] at hw hh
    exact fill_of_not_encloses hw hh harea hi c
  · exact fun g id himage => outcome_fill himage _ _ _ _ c

/-- An area on an image, and one whose far corner has no number. -/
theorem fill_exact_blank :
    (∃ i', (blank "map" 3 2).fill 1 0 2 2 ⟨255, 0, 0, 255⟩ = .ok i' ∧
      (blank "map" 3 2).Filled 1 0 2 2 ⟨255, 0, 0, 255⟩ i') ∧
    ∃ px py, (blank "map" 3 2).fill 1 0 Int64.maxValue.toInt 1 ⟨255, 0, 0, 255⟩ = .error (.outOfBounds px py 3 2) := by
  have hexact (width height : Int64) := fill_exact (blank "map" 3 2) 3 2 rfl rfl 1 0 width height ⟨255, 0, 0, 255⟩
  refine ⟨(hexact 2 2).filled (by decide) (by decide) ⟨by decide, by decide⟩, ?_⟩
  have hbeside : ¬ (blank "map" 3 2).Encloses 1 0 Int64.maxValue.toInt 1 := fun h => absurd h.1.2 (by decide)
  obtain ⟨px, py, -, hfill⟩ := (hexact Int64.maxValue 1).refused (by decide) (by decide) hbeside
  exact ⟨px, py, hfill⟩

end Image

/-! ## Cells of a region -/

/-- One position comes before another, row by row. -/
def Position.Before (p q : Position) : Prop := p.y < q.y ∨ p.y = q.y ∧ p.x < q.x

namespace Rect

theorem pairwise_span (low high : Int) (size : Nat) : (span low high size).Pairwise (· < ·) :=
  List.pairwise_lt_range'

/-- The cells come row by row. -/
theorem pairwise_clipped (r : Rect) (width height : Nat) : (r.clipped width height).Pairwise Position.Before := by
  rw [clipped, List.pairwise_flatMap]
  constructor
  · intro y _
    rw [List.pairwise_map]
    exact (pairwise_span r.minX r.maxX width).imp fun hlt => .inr ⟨rfl, hlt⟩
  · refine (pairwise_span r.minY r.maxY height).imp fun hlt p hp q hq => ?_
    obtain ⟨_, -, rfl⟩ := List.mem_map.1 hp
    obtain ⟨_, -, rfl⟩ := List.mem_map.1 hq
    exact .inl hlt

end Rect

namespace WordRect

/-- What the list of the cells of a rectangle is. -/
structure ListsExactly (r : WordRect) (width height : UInt32) (cells : List Position) : Prop where
  /-- Every number on the way fits its word. -/
  fits : r.clipped? width height = some cells
  ordered : cells.Pairwise Position.Before
  nodup : cells.Nodup
  mem_iff : ∀ p, p ∈ cells ↔
    ∃ x y : UInt32, p = ⟨x.toNat, y.toNat⟩ ∧ r.contains x y = true ∧ x < width ∧ y < height

theorem listsExactly (r : WordRect) (width height : UInt32) :
    r.ListsExactly width height (r.rect.clipped width.toNat height.toNat) where
  fits := clipped?_eq r width height
  ordered := r.rect.pairwise_clipped _ _
  nodup := r.rect.nodup_clipped _ _
  mem_iff p := by
    rw [Rect.mem_clipped]
    constructor
    · rintro ⟨hin, hx, hy⟩
      have hx' : (UInt32.ofNat p.x).toNat = p.x := UInt32.toNat_ofNat_of_lt' (Nat.lt_trans hx width.toNat_lt)
      have hy' : (UInt32.ofNat p.y).toNat = p.y := UInt32.toNat_ofNat_of_lt' (Nat.lt_trans hy height.toNat_lt)
      refine ⟨.ofNat p.x, .ofNat p.y, by rw [hx', hy'], ?_, ?_, ?_⟩
      · rwa [contains_eq, hx', hy']
      · rwa [UInt32.lt_iff_toNat_lt, hx']
      · rwa [UInt32.lt_iff_toNat_lt, hy']
    · rintro ⟨x, y, rfl, hin, hx, hy⟩
      rw [contains_eq] at hin
      exact ⟨hin, UInt32.lt_iff_toNat_lt.1 hx, UInt32.lt_iff_toNat_lt.1 hy⟩

/-- Corners in another order are those of the same rectangle. -/
theorem ofCorners_perm {x₁ x₂ x₁' x₂' y₁ y₂ y₁' y₂' : Int64} (hx : [x₁', x₂'].Perm [x₁, x₂])
    (hy : [y₁', y₂'].Perm [y₁, y₂]) : (ofCorners x₁' y₁' x₂' y₂').rect = (ofCorners x₁ y₁ x₂ y₂).rect := by
  simp only [List.perm_pair, List.cons.injEq, and_true] at hx hy
  rw [rect_ofCorners, rect_ofCorners, Rect.ofCorners, Rect.ofCorners]
  obtain ⟨rfl, rfl⟩ | ⟨rfl, rfl⟩ := hx
  · obtain ⟨rfl, rfl⟩ | ⟨rfl, rfl⟩ := hy
    · rfl
    · rw [min_comm y₁'.toInt, max_comm y₁'.toInt]
  · obtain ⟨rfl, rfl⟩ | ⟨rfl, rfl⟩ := hy
    · rw [min_comm x₁'.toInt, max_comm x₁'.toInt]
    · rw [min_comm x₁'.toInt, max_comm x₁'.toInt, min_comm y₁'.toInt, max_comm y₁'.toInt]

end WordRect

/-! ## Queueing and cancelling a region -/

namespace Gallery

/-- The pending colour of a cell. -/
def pending (g : Gallery) (k : Nat) (p : Position) : Option Color := g.drafts[k]?.bind fun d => d.pending[p]?

/-- There are fresh cells to pay for, and the allowance is too small for them. -/
def Short (g : Gallery) (k : Nat) (cells : List Position) : Prop :=
  0 < g.fresh k cells ∧ g.limit < g.used + g.fresh k cells

section Regions

variable {g : Gallery} {k : Nat} {d : Draft} {i : Image}

theorem draft_of_target (hi : g.target? k = some i) : ∃ d, g.drafts[k]? = some d := by
  obtain ⟨d, hd, -⟩ := Option.bind_eq_some_iff.1 hi
  exact ⟨d, hd⟩

/-- Cells are refused if the fresh ones do not fit, else all of them are queued. -/
theorem queue_short_cases (hd : g.drafts[k]? = some d) (cells : List Position) (c : Color) :
    g.Short k cells ∧ g.queue k cells c = .error (.exhausted (g.fresh k cells) g.used g.limit) ∨
    ¬ g.Short k cells ∧ g.queue k cells c = .ok (cells.length, { g with
      used := g.used + g.fresh k cells
      drafts := g.drafts.insert k { d with pending := cells.foldl (fun m p => m.insert p c) d.pending } }) := by
  simp only [Short, fresh, hd, charge, queue, reserve]
  by_cases hcharged : g.isCharged d
  · rw [if_pos hcharged]
    by_cases hpos : 0 < cells.countP fun p => !d.pending.contains p
    · by_cases hfull : g.limit < g.used + cells.countP fun p => !d.pending.contains p
      · refine .inl ⟨⟨hpos, hfull⟩, ?_⟩
        simp [hcharged, hpos, Nat.not_le.2 hfull]
      · refine .inr ⟨fun h => hfull h.2, ?_⟩
        simp [hcharged, hpos, Nat.not_lt.1 hfull]
    · refine .inr ⟨fun h => hpos h.1, ?_⟩
      simp [Nat.eq_zero_of_not_pos hpos]
  · refine .inr ⟨?_, ?_⟩
    · simp [hcharged]
    · simp [hcharged]

/-- The pending cells after some were queued. -/
theorem pending_queued (hd : g.drafts[k]? = some d) (used : Nat) (cells : List Position) (c : Color) (p : Position) :
    pending { g with
      used, drafts := g.drafts.insert k { d with pending := cells.foldl (fun m p => m.insert p c) d.pending } } k p =
      (stroke (· ∈ cells) c p).or (g.pending k p) := by
  simp only [pending, Std.ExtTreeMap.getElem?_insert_self, Option.bind_some, hd]
  exact getElem?_queued d.pending cells c p

/-- The pending cells that are kept. -/
theorem pending_retain (hd : g.drafts[k]? = some d) (keep : Position → Bool) (p : Position) :
    (g.retain k keep).2.pending k p = if keep p then g.pending k p else none := by
  obtain ⟨used, hretain⟩ := retain_eq hd keep
  rw [hretain]
  simp only [pending, Std.ExtTreeMap.getElem?_insert_self, Option.bind_some, hd]
  exact getElem?_kept d.pending keep p

theorem outcome_queueRect (hi : g.target? k = some i) (r : Rect) (c : Color) :
    g.outcome (.change (.queueRect k r c)) =
      match g.queue k (r.clipped i.width i.height) c with
      | .ok (n, g') => (.ok (.count n), g')
      | .error e => (.error e, g) := by
  simp only [outcome, respond, queueRect, hi]
  cases g.queue k (r.clipped i.width i.height) c with
  | ok queued => rfl
  | error e => rfl

/-- The pending cells outside of a region stay when the region is queued, whether it is refused or not. -/
theorem pending_outside (hi : g.target? k = some i) (r : Rect) (c : Color) :
    ∃ d', (g.outcome (.change (.queueRect k r c))).2.drafts[k]? = some d' ∧
      ∀ p, ¬ r.contains p = true → (g.outcome (.change (.queueRect k r c))).2.pending k p = g.pending k p := by
  obtain ⟨d, hd⟩ := draft_of_target hi
  rw [outcome_queueRect hi]
  obtain ⟨-, herror⟩ | ⟨-, hok⟩ := queue_short_cases hd (r.clipped i.width i.height) c
  · rw [herror]
    exact ⟨d, hd, fun _ _ => rfl⟩
  · rw [hok]
    refine ⟨_, Std.ExtTreeMap.getElem?_insert_self, fun p hout => ?_⟩
    have hnone : stroke (· ∈ r.clipped i.width i.height) c p = none := if_neg fun hin => hout (Rect.mem_clipped.1 hin).1
    simp only
    rw [pending_queued hd, hnone, Option.none_or]

end Regions

/-- What queueing the cells of a region does, and what cancelling the same region does afterwards. -/
structure RegionEdits (g : Gallery) (k : Nat) (x₁ y₁ x₂ y₂ : Int64) (cells : List Position) (c : Color) : Prop where
  queued : ¬ g.Short k cells → ∃ g',
    g.outcome (.change (.queueRect k (WordRect.ofCorners x₁ y₁ x₂ y₂).rect c)) = (.ok (.count cells.length), g') ∧
      ∀ p, g'.pending k p = (stroke (· ∈ cells) c p).or (g.pending k p)
  refused : g.Short k cells →
    g.outcome (.change (.queueRect k (WordRect.ofCorners x₁ y₁ x₂ y₂).rect c)) =
      (.error (.exhausted (g.fresh k cells) g.used g.limit), g)
  /-- In whatever order the corners are given, and also after a refusal. -/
  cancelled : ∀ g', g' = (g.outcome (.change (.queueRect k (WordRect.ofCorners x₁ y₁ x₂ y₂).rect c))).2 →
    ∀ x₁' x₂' y₁' y₂', [x₁', x₂'].Perm [x₁, x₂] → [y₁', y₂'].Perm [y₁, y₂] → ∀ p,
      (g'.outcome (.change (.cancelRect k (WordRect.ofCorners x₁' y₁' x₂' y₂').rect))).2.pending k p =
        if (WordRect.ofCorners x₁ y₁ x₂ y₂).rect.contains p then none else g.pending k p

theorem regionEdits {g : Gallery} {k : Nat} {i : Image} (hi : g.target? k = some i) (x₁ y₁ x₂ y₂ : Int64) (c : Color) :
    g.RegionEdits k x₁ y₁ x₂ y₂ ((WordRect.ofCorners x₁ y₁ x₂ y₂).rect.clipped i.width i.height) c := by
  obtain ⟨d, hd⟩ := draft_of_target hi
  have hcases := queue_short_cases hd ((WordRect.ofCorners x₁ y₁ x₂ y₂).rect.clipped i.width i.height) c
  have hqueue := outcome_queueRect hi (WordRect.ofCorners x₁ y₁ x₂ y₂).rect c
  constructor
  · intro hroom
    obtain ⟨hshort, -⟩ | ⟨-, hok⟩ := hcases
    · exact absurd hshort hroom
    · rw [hok] at hqueue
      exact ⟨_, hqueue, pending_queued hd _ _ c⟩
  · intro hshort
    obtain ⟨-, herror⟩ | ⟨hroom, -⟩ := hcases
    · rw [herror] at hqueue
      exact hqueue
    · exact absurd hshort hroom
  · rintro g' rfl x₁' x₂' y₁' y₂' hx hy p
    obtain ⟨d', hd', houtside⟩ := pending_outside hi (WordRect.ofCorners x₁ y₁ x₂ y₂).rect c
    rw [WordRect.ofCorners_perm hx hy]
    refine (pending_retain hd' _ p).trans ?_
    by_cases hin : (WordRect.ofCorners x₁ y₁ x₂ y₂).rect.contains p = true
    · rw [if_pos hin, if_neg (by rw [hin]; decide)]
    · rw [if_neg hin, if_pos (by simpa using hin), houtside p hin]

end Gallery

/-- The cells of a region are listed once each, row by row.  Queueing them tells their number unless they cannot pay;
cancelling the region then leaves the earlier pending cells that lie outside of it. -/
theorem regions_exact (x₁ y₁ x₂ y₂ : Int64) (width height : UInt32) : ∃ cells,
    (WordRect.ofCorners x₁ y₁ x₂ y₂).ListsExactly width height cells ∧
      ∀ (g : Gallery) (k : Nat) (i : Image), g.target? k = some i → i.width = width.toNat → i.height = height.toNat →
        ∀ c, g.RegionEdits k x₁ y₁ x₂ y₂ cells c := by
  refine ⟨_, WordRect.listsExactly _ width height, fun g k i hi hwidth hheight c => ?_⟩
  rw [← hwidth, ← hheight]
  exact Gallery.regionEdits hi x₁ y₁ x₂ y₂ c

/-- An image of four pixels and a draft on it, with so much allowance. -/
def drafted (limit : Nat) : Gallery := (Gallery.empty limit).run [.create "map" 2 2, .openDraft 0]

/-- A region that goes beyond the image is queued, if the allowance lets it, and cancelled from its other corners. -/
theorem regions_exact_drafted : ∃ cells : List Position, cells.length = 2 ∧ ∃ g',
    (drafted 6).outcome (.change (.queueRect 1 (.ofCorners (-1) 1 5 7) .transparent)) = (.ok (.count 2), g') ∧
      ∀ p, (g'.outcome (.change (.cancelRect 1 (.ofCorners 5 1 (-1) 7)))).2.pending 1 p =
        if (Rect.ofCorners (-1) 1 5 7).contains p then none else (drafted 6).pending 1 p := by
  obtain ⟨cells, hcells, hedits⟩ := regions_exact (-1) 1 5 7 2 2
  have hlist : some cells = some [⟨0, 1⟩, ⟨1, 1⟩] := hcells.fits.symm.trans (by rfl)
  cases hlist
  have h := hedits (drafted 6) 1 (.blank "map" 2 2) rfl rfl rfl .transparent
  have hroom : ¬ (drafted 6).Short 1 [⟨0, 1⟩, ⟨1, 1⟩] := by
    unfold Gallery.Short
    decide
  obtain ⟨g', hqueue, -⟩ := h.queued hroom
  refine ⟨[⟨0, 1⟩, ⟨1, 1⟩], rfl, g', hqueue, fun p => ?_⟩
  exact h.cancelled g' (congrArg Prod.snd hqueue).symm 5 (-1) 1 7 (.swap _ _ _) (.refl _) p

/-- Four cells of a draft on an image of four pixels do not fit into an allowance of five. -/
theorem region_refused : (WordRect.ofCorners 0 0 1 1).clipped? 2 2 = some [⟨0, 0⟩, ⟨1, 0⟩, ⟨0, 1⟩, ⟨1, 1⟩] ∧
    (drafted 5).target? 1 = some (.blank "map" 2 2) ∧
    ((drafted 5).outcome (.change (.queueRect 1 (.ofCorners 0 0 1 1) ⟨255, 0, 0, 255⟩))).1 =
      .error (.exhausted 4 4 5) := by
  refine ⟨?_, ?_, ?_⟩
  · rfl
  · rfl
  · rfl

end ScriptWarden.Texture
