import ScriptWarden.Texture.Image
set_option autoImplicit false

/-!
# Texture: images as maps

What can be seen of an image is a *canvas*: a colour for each of its positions, and whether the host has seen them.
Pixels stand in one row-major array and are reached by computed indices; all of that stays here.  Whatever is written to
an image, its canvas is overwritten at the positions that are meant, and nowhere else.
-/

namespace ScriptWarden.Texture

/-! ## Canvases -/

/-- What can be seen of an image. -/
@[ext] structure Canvas where
  width : Nat
  height : Nat
  dirty : Bool
  /-- The colour of each position that lies on the canvas, and of no other. -/
  colour : Position → Option Color

namespace Canvas

/-- Does a position lie on the canvas? -/
def Has (v : Canvas) (p : Position) : Prop := p.x < v.width ∧ p.y < v.height

instance (v : Canvas) (p : Position) : Decidable (v.Has p) := inferInstanceAs (Decidable (_ ∧ _))

/-- Two numbers are those of a position on the canvas. -/
structure At (v : Canvas) (x y : Int) (p : Position) : Prop where
  x_eq : (p.x : Int) = x
  y_eq : (p.y : Int) = y
  has : v.Has p

/-- Two numbers are those of no position on the canvas. -/
def Beside (v : Canvas) (x y : Int) : Prop := ∀ p, ¬ v.At x y p

theorem At.unique {v : Canvas} {x y : Int} {p q : Position} (hp : v.At x y p) (hq : v.At x y q) : p = q := by
  have hx : p.x = q.x := Int.ofNat.inj (hp.x_eq.trans hq.x_eq.symm)
  have hy : p.y = q.y := Int.ofNat.inj (hp.y_eq.trans hq.y_eq.symm)
  obtain ⟨px, py⟩ := p
  obtain ⟨qx, qy⟩ := q
  simp only at hx hy
  rw [hx, hy]

theorem at_or_beside (v : Canvas) (x y : Int) : (∃ p, v.At x y p) ∨ v.Beside x y := by
  by_cases h : ∃ p, v.At x y p
  · exact .inl h
  · exact .inr (not_exists.1 h)

/-- Colours for some positions come over the canvas. -/
def overlay (v : Canvas) (edits : Position → Option Color) : Canvas :=
  { v with colour := fun p => if v.Has p then (edits p).or (v.colour p) else v.colour p }

/-- Colours for some positions are written, and the host has to see them. -/
def write (v : Canvas) (edits : Position → Option Color) : Canvas := { v.overlay edits with dirty := true }

theorem overlay_of_has {v : Canvas} {p : Position} (h : v.Has p) (edits : Position → Option Color) :
    (v.overlay edits).colour p = (edits p).or (v.colour p) := if_pos h

theorem overlay_of_not_has {v : Canvas} {p : Position} (h : ¬ v.Has p) (edits : Position → Option Color) :
    (v.overlay edits).colour p = v.colour p := if_neg h

/-- Only the colours for positions on the canvas matter. -/
theorem overlay_congr {v : Canvas} {edits edits' : Position → Option Color} (h : ∀ p, v.Has p → edits p = edits' p) :
    v.overlay edits = v.overlay edits' := by
  refine Canvas.ext rfl rfl rfl (funext fun p => ?_)
  by_cases hp : v.Has p
  · rw [overlay_of_has hp, overlay_of_has hp, h p hp]
  · rw [overlay_of_not_has hp, overlay_of_not_has hp]

@[simp] theorem overlay_none (v : Canvas) : v.overlay (fun _ => none) = v :=
  Canvas.ext rfl rfl rfl (funext fun _ => ite_self _)

/-- What comes later lies above. -/
theorem overlay_overlay (v : Canvas) (edits edits' : Position → Option Color) :
    (v.overlay edits).overlay edits' = v.overlay fun p => (edits' p).or (edits p) := by
  refine Canvas.ext rfl rfl rfl (funext fun p => ?_)
  by_cases hp : v.Has p
  · have hp' : (v.overlay edits).Has p := hp
    rw [overlay_of_has hp', overlay_of_has hp, overlay_of_has hp, Option.or_assoc]
  · have hp' : ¬ (v.overlay edits).Has p := hp
    rw [overlay_of_not_has hp', overlay_of_not_has hp, overlay_of_not_has hp]

theorem inside?_eq_some_iff (v : Canvas) {x y : Int} {p : Position} :
    Position.inside? x y v.width v.height = some p ↔ v.At x y p := by
  unfold Position.inside?
  constructor
  · intro h
    split at h
    · next hin =>
      cases h
      refine ⟨Int.toNat_of_nonneg hin.1, Int.toNat_of_nonneg hin.2.1, ?_, ?_⟩
      · simp only
        omega
      · simp only
        omega
    · cases h
  · rintro ⟨rfl, rfl, hx, hy⟩
    rw [if_pos (by omega)]
    rfl

theorem inside?_eq_none_iff (v : Canvas) {x y : Int} :
    Position.inside? x y v.width v.height = none ↔ v.Beside x y := by
  rw [Option.eq_none_iff_forall_ne_some]
  exact forall_congr' fun p => not_congr v.inside?_eq_some_iff

/-- A transparent canvas, which the host has to see. -/
def blank (width height : Nat) : Canvas :=
  { width, height, dirty := true, colour := fun p => if p.x < width ∧ p.y < height then some .transparent else none }

end Canvas

/-- One colour for some positions. -/
def stroke (P : Position → Prop) [DecidablePred P] (c : Color) (p : Position) : Option Color :=
  if P p then some c else none

theorem stroke_congr {P P' : Position → Prop} [DecidablePred P] [DecidablePred P'] (h : ∀ p, P p ↔ P' p) (c : Color) :
    stroke P c = stroke P' c := by
  funext p
  unfold stroke
  simp only [h p]

/-- The colour that a list of edits has for a position: the last one. -/
def lastOf : List (Position × Color) → Position → Option Color
  | [], _ => none
  | (q, c) :: rest, p => (lastOf rest p).or (stroke (· = q) c p)

/-- Edits of distinct positions all last. -/
theorem lastOf_eq_some_iff {edits : List (Position × Color)} (hdistinct : edits.Pairwise fun e e' => e.1 ≠ e'.1)
    {p : Position} {c : Color} : lastOf edits p = some c ↔ (p, c) ∈ edits := by
  induction edits generalizing c with
  | nil => simp [lastOf]
  | cons e rest ih =>
    obtain ⟨hfirst, hrest⟩ := List.pairwise_cons.1 hdistinct
    obtain ⟨q, c'⟩ := e
    rw [lastOf, Option.or_eq_some_iff, ih hrest, List.mem_cons, stroke]
    constructor
    · rintro (hin | ⟨-, hlast⟩)
      · exact .inr hin
      · split at hlast
        · next heq =>
          cases heq
          cases hlast
          exact .inl rfl
        · cases hlast
    · rintro (heq | hin)
      · cases heq
        refine .inr ⟨Option.eq_none_iff_forall_ne_some.2 fun c' hc' => ?_, if_pos rfl⟩
        exact hfirst _ ((ih hrest).1 hc') rfl
      · exact .inl hin

/-- The canvas of an image. -/
def Image.canvas (i : Image) : Canvas where
  width := i.width
  height := i.height
  dirty := i.dirty
  colour p := if p.x < i.width ∧ p.y < i.height then some (i.pixel p) else none

namespace Rect

theorem mem_span {low high : Int} {size n : Nat} :
    n ∈ span low high size ↔ low ≤ n ∧ (n : Int) ≤ high ∧ n < size := by
  unfold span
  simp only [List.mem_range'_1]
  omega

/-- The cells of a rectangle are the positions of the canvas that it holds. -/
theorem mem_clipped {r : Rect} {width height : Nat} {p : Position} :
    p ∈ r.clipped width height ↔ r.contains p = true ∧ p.x < width ∧ p.y < height := by
  simp only [clipped, List.mem_flatMap, List.mem_map, mem_span, contains, Bool.and_eq_true, decide_eq_true_eq]
  constructor
  · rintro ⟨y, hy, x, hx, rfl⟩
    exact ⟨⟨⟨⟨hx.1, hx.2.1⟩, hy.1⟩, hy.2.1⟩, hx.2.2, hy.2.2⟩
  · rintro ⟨⟨⟨⟨hminX, hmaxX⟩, hminY⟩, hmaxY⟩, hx, hy⟩
    exact ⟨p.y, ⟨hminY, hmaxY, hy⟩, p.x, ⟨hminX, hmaxX, hx⟩, rfl⟩

theorem mem_clippedEllipse {r : Rect} {width height : Nat} {p : Position} :
    p ∈ r.clippedEllipse width height ↔
      (r.contains p = true ∧ p.x < width ∧ p.y < height) ∧ r.ellipseContains p.x p.y = true := by
  rw [clippedEllipse, List.mem_filter, mem_clipped]

end Rect

namespace Image

variable {i : Image} {p q : Position}

theorem colour_of_has (h : i.canvas.Has p) : i.canvas.colour p = some (i.pixel p) := if_pos h

theorem colour_of_not_has (h : ¬ i.canvas.Has p) : i.canvas.colour p = none := if_neg h

/-! ## Positions in the array -/

theorem offset_lt (h : i.canvas.Has p) : i.offset p < i.width * i.height := by
  have hrow : p.y * i.width + p.x < (p.y + 1) * i.width := by
    rw [Nat.succ_mul]
    exact Nat.add_lt_add_left h.1 _
  have hrows : (p.y + 1) * i.width ≤ i.height * i.width := Nat.mul_le_mul_right _ h.2
  rw [Nat.mul_comm i.width]
  exact Nat.lt_of_lt_of_le hrow hrows

/-- No two positions share a place. -/
theorem offset_inj (hp : p.x < i.width) (hq : q.x < i.width) (h : i.offset p = i.offset q) : p = q := by
  unfold offset at h
  have hpos : 0 < i.width := Nat.lt_of_le_of_lt (Nat.zero_le _) hp
  have hx : p.x = q.x :=
    calc p.x = (p.y * i.width + p.x) % i.width := by rw [Nat.mul_add_mod', Nat.mod_eq_of_lt hp]
      _ = (q.y * i.width + q.x) % i.width := congrArg (· % i.width) h
      _ = q.x := by rw [Nat.mul_add_mod', Nat.mod_eq_of_lt hq]
  have hy : p.y = q.y := by
    rw [hx] at h
    exact Nat.eq_of_mul_eq_mul_right hpos (Nat.add_right_cancel h)
  obtain ⟨px, py⟩ := p
  obtain ⟨qx, qy⟩ := q
  simp only at hx hy
  rw [hx, hy]

theorem offset_ge (hx : p.x < i.width) (h : ¬ i.canvas.Has p) : i.width * i.height ≤ i.offset p := by
  have hy : i.height ≤ p.y := Nat.le_of_not_lt fun hy => h ⟨hx, hy⟩
  calc i.width * i.height = i.height * i.width := Nat.mul_comm _ _
    _ ≤ p.y * i.width := Nat.mul_le_mul_right _ hy
    _ ≤ i.offset p := Nat.le_add_right _ _

/-! ## Painting -/

theorem paint_of_not_has (h : ¬ i.canvas.Has p) (c : Color) : i.paint p c = i := by
  unfold paint
  split
  · next hx => rw [Vector.setIfInBounds_eq_of_size_le (offset_ge hx h)]
  · rfl

theorem paint_of_has (h : i.canvas.Has p) (c : Color) :
    i.paint p c = { i with pixels := i.pixels.setIfInBounds (i.offset p) c } := if_pos h.1

theorem pixel_paint (hp : i.canvas.Has p) (hq : i.canvas.Has q) (c : Color) :
    (i.paint p c).pixel q = if q = p then c else i.pixel q := by
  have hx : q.x < i.width := hq.1
  rw [paint_of_has hp]
  simp only [pixel, offset, if_pos hx, Vector.getElem?_setIfInBounds]
  split
  · next heq =>
    have hsame : q = p := offset_inj hq.1 hp.1 heq.symm
    have hplace : p.y * i.width + p.x < i.width * i.height := offset_lt hp
    rw [if_pos hplace, if_pos hsame, Option.getD_some]
  · next hne =>
    rw [if_neg]
    rintro rfl
    exact hne rfl

/-- Painting one position. -/
theorem canvas_paint (i : Image) (p : Position) (c : Color) :
    (i.paint p c).canvas = i.canvas.overlay (stroke (· = p) c) := by
  by_cases hp : i.canvas.Has p
  · have hcolour (q : Position) :
        (i.paint p c).canvas.colour q = (i.canvas.overlay (stroke (· = p) c)).colour q := by
      have hsame : (i.paint p c).canvas.Has q ↔ i.canvas.Has q := by rw [paint_of_has hp]; rfl
      by_cases hq : i.canvas.Has q
      · rw [colour_of_has (hsame.2 hq), Canvas.overlay_of_has hq, pixel_paint hp hq, colour_of_has hq, stroke]
        split
        · rfl
        · rfl
      · rw [colour_of_not_has (mt hsame.1 hq), Canvas.overlay_of_not_has hq, colour_of_not_has hq]
    rw [paint_of_has hp] at hcolour ⊢
    exact Canvas.ext rfl rfl rfl (funext hcolour)
  · have hnothing : i.canvas.overlay (stroke (· = p) c) = i.canvas.overlay fun _ => none := by
      refine Canvas.overlay_congr fun q hq => if_neg ?_
      rintro rfl
      exact hp hq
    rw [paint_of_not_has hp, hnothing, Canvas.overlay_none]

/-- Painting one position after the other. -/
theorem canvas_paintAll (i : Image) (edits : List (Position × Color)) :
    (edits.foldl (fun i (p, c) => i.paint p c) i).canvas = i.canvas.overlay (lastOf edits) := by
  induction edits generalizing i with
  | nil => exact (Canvas.overlay_none _).symm
  | cons e rest ih =>
    rw [List.foldl_cons, ih, canvas_paint, Canvas.overlay_overlay]
    rfl

theorem lastOf_const (cells : List Position) (c : Color) (p : Position) :
    lastOf (cells.map (·, c)) p = stroke (· ∈ cells) c p := by
  induction cells with
  | nil => rfl
  | cons q rest ih =>
    rw [List.map_cons, lastOf, ih]
    unfold stroke
    by_cases hrest : p ∈ rest
    · rw [if_pos hrest, if_pos (List.mem_cons_of_mem _ hrest), Option.some_or]
    · simp only [List.mem_cons, hrest, or_false, if_false, Option.none_or]

/-! ## Writing -/

variable {x y : Int}

theorem position_of_at (h : i.canvas.At x y p) : i.position x y = .ok p := by
  have hinside : Position.inside? x y i.width i.height = some p := i.canvas.inside?_eq_some_iff.2 h
  rw [position, hinside]

theorem position_of_beside (h : i.canvas.Beside x y) : i.position x y = .error (.outOfBounds x y i.width i.height) := by
  have hnone : Position.inside? x y i.width i.height = none := i.canvas.inside?_eq_none_iff.2 h
  rw [position, hnone]

theorem get_of_at (h : i.canvas.At x y p) : i.get x y = .ok (i.pixel p) := by
  rw [get, position_of_at h]
  rfl

theorem get_of_beside (h : i.canvas.Beside x y) : i.get x y = .error (.outOfBounds x y i.width i.height) := by
  rw [get, position_of_beside h]
  rfl

theorem set_of_at (h : i.canvas.At x y p) (c : Color) :
    i.set x y c = .ok { i.paint p c with dirty := true } := by
  rw [set, position_of_at h]
  rfl

theorem set_of_beside (h : i.canvas.Beside x y) (c : Color) :
    i.set x y c = .error (.outOfBounds x y i.width i.height) := by
  rw [set, position_of_beside h]
  rfl

theorem canvas_set (i : Image) (p : Position) (c : Color) :
    ({ i.paint p c with dirty := true } : Image).canvas = i.canvas.write (stroke (· = p) c) :=
  congrArg (fun v : Canvas => { v with dirty := true }) (canvas_paint i p c)

/-- The last of some numbers; the sum stops at the largest number there is, which is past every image. -/
def reach (first count : Int) : Int := min (first + (count - 1)) farthest

theorem fill_of_empty {width height : Int} (h : width ≤ 0 ∨ height ≤ 0) (c : Color) :
    i.fill x y width height c = .ok i := if_pos h

/-- One corner of an area lies beside the image. -/
theorem fill_of_first_beside {width height : Int} (h : ¬ (width ≤ 0 ∨ height ≤ 0)) (hp : i.canvas.Beside x y)
    (c : Color) : i.fill x y width height c = .error (.outOfBounds x y i.width i.height) := by
  rw [fill, if_neg h]
  simp only
  rw [position_of_beside hp]
  rfl

/-- The opposite corner does. -/
theorem fill_of_last_beside {width height : Int} (h : ¬ (width ≤ 0 ∨ height ≤ 0)) (hp : i.canvas.At x y p)
    (hq : i.canvas.Beside (reach x width) (reach y height)) (c : Color) : i.fill x y width height c =
      .error (.outOfBounds (reach x width) (reach y height) i.width i.height) := by
  have hlast : i.position (min (x + (width - 1)) farthest) (min (y + (height - 1)) farthest) =
      .error (.outOfBounds (reach x width) (reach y height) i.width i.height) := position_of_beside hq
  rw [fill, if_neg h]
  simp only
  rw [position_of_at hp, hlast]
  rfl

theorem fill_of_at {width height : Int} (h : ¬ (width ≤ 0 ∨ height ≤ 0)) (hp : i.canvas.At x y p)
    (hq : i.canvas.At (reach x width) (reach y height) q) (c : Color) :
    ∃ i', i.fill x y width height c = .ok i' ∧ i'.canvas = i.canvas.write
      (stroke (fun r => (Rect.ofCorners x y (reach x width) (reach y height)).contains r = true) c) := by
  have hlast : i.position (min (x + (width - 1)) farthest) (min (y + (height - 1)) farthest) = .ok q :=
    position_of_at hq
  refine ⟨{ ((Rect.ofCorners x y (reach x width) (reach y height)).clipped i.width i.height).foldl
    (fun i p => i.paint p c) i with dirty := true }, ?_, ?_⟩
  · rw [fill, if_neg h]
    simp only
    rw [position_of_at hp, hlast]
    rfl
  · have hcells := canvas_paintAll i
      (((Rect.ofCorners x y (reach x width) (reach y height)).clipped i.width i.height).map (·, c))
    rw [List.foldl_map] at hcells
    have hstroke : i.canvas.overlay (lastOf
        (((Rect.ofCorners x y (reach x width) (reach y height)).clipped i.width i.height).map (·, c))) =
        i.canvas.overlay
          (stroke (fun r => (Rect.ofCorners x y (reach x width) (reach y height)).contains r = true) c) := by
      refine Canvas.overlay_congr fun r hr => ?_
      have hcell : r ∈ (Rect.ofCorners x y (reach x width) (reach y height)).clipped i.width i.height ↔
          (Rect.ofCorners x y (reach x width) (reach y height)).contains r = true :=
        Rect.mem_clipped.trans (and_iff_left hr)
      simp only [lastOf_const, stroke, hcell]
    exact congrArg (fun v : Canvas => { v with dirty := true }) (hcells.trans hstroke)

/-- A batch of edits is written, the last one of each position. -/
theorem canvas_apply (i : Image) (edits : List (Position × Color)) :
    (i.apply edits).2.canvas = i.canvas.write (lastOf edits) := by
  have hsame : (fun (i : Image) (e : Position × Color) =>
      if e.1.x < i.width && e.1.y < i.height then i.paint e.1 e.2 else i) = fun i e => i.paint e.1 e.2 := by
    funext i e
    split
    · rfl
    · next hout =>
      refine (paint_of_not_has (fun hin => hout ?_) e.2).symm
      rw [Bool.and_eq_true, decide_eq_true_iff, decide_eq_true_iff]
      exact hin
  have hpainted : (i.apply edits).2 = { edits.foldl (fun i e => i.paint e.1 e.2) i with dirty := true } := by
    rw [← hsame]
    rfl
  rw [hpainted]
  exact congrArg (fun v : Canvas => { v with dirty := true }) (canvas_paintAll i edits)

theorem count_apply (i : Image) (edits : List (Position × Color)) :
    (i.apply edits).1 = edits.countP fun e => i.canvas.Has e.1 := by
  refine List.countP_congr fun e _ => ?_
  rw [decide_eq_true_iff, Bool.and_eq_true, decide_eq_true_iff, decide_eq_true_iff]
  rfl

end Image

end ScriptWarden.Texture
