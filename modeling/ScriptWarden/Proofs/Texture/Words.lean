import ScriptWarden.Proofs.Texture.Canvas
set_option autoImplicit false

/-!
# Texture: rectangles in machine words

Corners and areas come as 64-bit numbers, and the size of an image as 32-bit ones.  The library computes with numbers
without bounds.  Here the same is computed in words, and there is no result if a sum, a difference or a conversion does
not fit its word; only the far corner of an area may pass the largest word, and stops there.  It turns out that there
always is a result, and that it is the one of the library (`clipped?_eq`, `fillWords?_eq`).
-/

namespace ScriptWarden.Texture

/-! ## Words -/

namespace Word

/-- The 64-bit word of a number, if there is one. -/
def ofInt? (n : Int) : Option Int64 :=
  if -0x8000000000000000 ≤ n ∧ n < 0x8000000000000000 then some (.ofInt n) else none

/-- The sum of two words. -/
def add? (a b : Int64) : Option Int64 := ofInt? (a.toInt + b.toInt)

/-- The difference of two words. -/
def sub? (a b : Int64) : Option Int64 := ofInt? (a.toInt - b.toInt)

/-- A 32-bit word as one of 64 bits. -/
def widen (n : UInt32) : Int64 := .ofInt n.toNat

/-- A 64-bit word as one of 32 bits. -/
def narrow? (a : Int64) : Option UInt32 :=
  if 0 ≤ a.toInt ∧ a.toInt < 0x100000000 then some (.ofNat a.toInt.toNat) else none

/-- A number that has a word. -/
theorem ofInt?_of_fits {n : Int} (hlow : -0x8000000000000000 ≤ n) (hhigh : n < 0x8000000000000000) :
    ∃ a, ofInt? n = some a ∧ a.toInt = n :=
  ⟨.ofInt n, if_pos ⟨hlow, hhigh⟩, Int64.toInt_ofInt_of_le hlow hhigh⟩

/-- A number past the largest word has none. -/
theorem ofInt?_of_large {n : Int} (h : 0x8000000000000000 ≤ n) : ofInt? n = none :=
  if_neg fun hfits => Int.not_lt.2 h hfits.2

@[simp] theorem toInt_widen (n : UInt32) : (widen n).toInt = n.toNat := by
  have hlt := n.toNat_lt
  exact Int64.toInt_ofInt_of_le (by omega) (by omega)

theorem narrow?_of_fits {a : Int64} (h : 0 ≤ a.toInt) (h' : a.toInt < 0x100000000) :
    ∃ n, narrow? a = some n ∧ n.toNat = a.toInt.toNat := by
  have hsize : a.toInt.toNat < UInt32.size := by
    change a.toInt.toNat < 2 ^ 32
    omega
  exact ⟨.ofNat a.toInt.toNat, if_pos ⟨h, h'⟩, UInt32.toNat_ofNat_of_lt' hsize⟩

theorem toInt_max (a b : Int64) : (max a b).toInt = max a.toInt b.toInt := by
  change (if a ≤ b then b else a).toInt = _
  split
  · next hle => exact (Int.max_eq_right (Int64.le_iff_toInt_le.1 hle)).symm
  · next hle => exact (Int.max_eq_left (Int.le_of_lt (Int.not_le.1 (mt Int64.le_iff_toInt_le.2 hle)))).symm

theorem toInt_min (a b : Int64) : (min a b).toInt = min a.toInt b.toInt := by
  change (if a ≤ b then a else b).toInt = _
  split
  · next hle => exact (Int.min_eq_left (Int64.le_iff_toInt_le.1 hle)).symm
  · next hle => exact (Int.min_eq_right (Int.le_of_lt (Int.not_le.1 (mt Int64.le_iff_toInt_le.2 hle)))).symm

/-- So many numbers from a word on.  Each but the first is the one before it and one more. -/
def numbers? : Nat → Int64 → Option (List Nat)
  | 0, _ => some []
  | 1, a => do return [(← narrow? a).toNat]
  | n + 2, a => do
    let first ← narrow? a
    return first.toNat :: (← numbers? (n + 1) (← add? a 1))

theorem numbers?_eq (n : Nat) {a : Int64} (hlow : 0 ≤ a.toInt) (hhigh : a.toInt + n ≤ 0x100000000) :
    numbers? n a = some (List.range' a.toInt.toNat n) := by
  induction n generalizing a with
  | zero => rfl
  | succ n ih =>
    obtain ⟨first, hfirst, hnumber⟩ := narrow?_of_fits hlow (by omega)
    cases n with
    | zero =>
      rw [numbers?, hfirst]
      exact congrArg (fun k => some [k]) hnumber
    | succ n =>
      obtain ⟨next, hnext, hsum⟩ := ofInt?_of_fits (n := a.toInt + (1 : Int64).toInt) (by rw [Int64.toInt_one]; omega)
        (by rw [Int64.toInt_one]; omega)
      rw [Int64.toInt_one] at hsum
      have hrest := ih (a := next) (by omega) (by omega)
      have hplace : next.toInt.toNat = a.toInt.toNat + 1 := by omega
      rw [numbers?, hfirst, add?, hnext]
      change (do return first.toNat :: (← numbers? (n + 1) next)) = _
      rw [hrest, hplace, hnumber]
      rfl

end Word

/-! ## Rectangles -/

/-- A rectangle with its corners. -/
structure WordRect where
  minX : Int64
  minY : Int64
  maxX : Int64
  maxY : Int64

namespace WordRect

/-- The rectangle of two opposite corners. -/
def ofCorners (x₁ y₁ x₂ y₂ : Int64) : WordRect := ⟨min x₁ x₂, min y₁ y₂, max x₁ x₂, max y₁ y₂⟩

/-- The same rectangle without bounds for its numbers. -/
def rect (r : WordRect) : Rect := ⟨r.minX.toInt, r.minY.toInt, r.maxX.toInt, r.maxY.toInt⟩

/-- Does the rectangle hold the pixel of two numbers? -/
def contains (r : WordRect) (x y : UInt32) : Bool :=
  r.minX ≤ Word.widen x && Word.widen x ≤ r.maxX && r.minY ≤ Word.widen y && Word.widen y ≤ r.maxY

/-- The numbers from `low` to `high` below `size`. -/
def span? (low high : Int64) (size : UInt32) : Option (List Nat) := do
  let first := max low 0
  let last := min high (← Word.sub? (Word.widen size) 1)
  Word.numbers? (last.toInt + 1 - first.toInt).toNat first

/-- The positions of the rectangle that an image of the given size has, row by row. -/
def clipped? (r : WordRect) (width height : UInt32) : Option (List Position) := do
  let columns ← span? r.minX r.maxX width
  let rows ← span? r.minY r.maxY height
  return rows.flatMap fun y => columns.map fun x => ⟨x, y⟩

theorem rect_ofCorners (x₁ y₁ x₂ y₂ : Int64) :
    (ofCorners x₁ y₁ x₂ y₂).rect = .ofCorners x₁.toInt y₁.toInt x₂.toInt y₂.toInt := by
  unfold ofCorners rect Rect.ofCorners
  simp only [Word.toInt_min, Word.toInt_max]

theorem contains_eq (r : WordRect) (x y : UInt32) : r.contains x y = r.rect.contains ⟨x.toNat, y.toNat⟩ := by
  simp only [contains, Rect.contains, rect, Int64.le_iff_toInt_le, Word.toInt_widen]
  rfl

theorem span?_eq (low high : Int64) (size : UInt32) :
    span? low high size = some (Rect.span low.toInt high.toInt size.toNat) := by
  have hsize := size.toNat_lt
  obtain ⟨end?, hend, hlast⟩ : ∃ a, Word.sub? (Word.widen size) 1 = some a ∧ a.toInt = size.toNat - 1 := by
    unfold Word.sub?
    rw [Word.toInt_widen, Int64.toInt_one]
    exact Word.ofInt?_of_fits (by omega) (by omega)
  unfold span?
  rw [hend]
  change Word.numbers? ((min high end?).toInt + 1 - (max low 0).toInt).toNat (max low 0) = _
  have hfirst : (max low 0).toInt = max low.toInt 0 := Word.toInt_max low 0
  have hcount : ((min high end?).toInt + 1 - (max low 0).toInt).toNat =
      min (high.toInt + 1).toNat size.toNat - low.toInt.toNat := by
    rw [Word.toInt_min, hfirst, hlast]
    omega
  have hstart : (max low 0).toInt.toNat = low.toInt.toNat := by
    rw [hfirst]
    omega
  rw [hcount]
  by_cases hnone : min (high.toInt + 1).toNat size.toNat - low.toInt.toNat = 0
  · -- then the first word may be past every 32-bit one, but nothing is converted
    rw [hnone, Rect.span]
    simp only [hnone]
    rfl
  · rw [Word.numbers?_eq _ (by omega) (by omega), hstart]
    rfl

/-- Clipping fits in words. -/
theorem clipped?_eq (r : WordRect) (width height : UInt32) :
    r.clipped? width height = some (r.rect.clipped width.toNat height.toNat) := by
  rw [clipped?, span?_eq, span?_eq]
  rfl

end WordRect

/-! ## Areas -/

namespace Word

/-- The pixel of two numbers. -/
def position? (width height : UInt32) (x y : Int64) : Option (Except Fault Position) :=
  if x < 0 ∨ y < 0 ∨ widen width ≤ x ∨ widen height ≤ y then
    some (.error (.outOfBounds x.toInt y.toInt width.toNat height.toNat))
  else do return .ok ⟨(← narrow? x).toNat, (← narrow? y).toNat⟩

/-- The last of so many numbers; a sum that does not fit stops at the largest word. -/
def reach? (first count : Int64) : Option Int64 := do
  let more ← sub? count 1
  return (add? first more).getD Int64.maxValue

theorem reach?_eq (first count : Int64) (hcount : 0 < count.toInt) :
    ∃ a, reach? first count = some a ∧ a.toInt = Image.reach first.toInt count.toInt := by
  have hlow := first.le_toInt
  have hhigh := first.toInt_lt
  have hlarge := count.toInt_lt
  obtain ⟨more, hmore, hless⟩ : ∃ a, sub? count 1 = some a ∧ a.toInt = count.toInt - 1 := by
    unfold sub?
    rw [Int64.toInt_one]
    exact ofInt?_of_fits (by omega) (by omega)
  have hreach : Image.reach first.toInt count.toInt = min (first.toInt + more.toInt) 0x7FFFFFFFFFFFFFFF := by
    rw [Image.reach, hless]
    rfl
  unfold reach?
  rw [hmore, hreach]
  by_cases hfits : first.toInt + more.toInt < 0x8000000000000000
  · obtain ⟨a, ha, hsum⟩ := ofInt?_of_fits (n := first.toInt + more.toInt) (by omega) hfits
    refine ⟨a, ?_, by omega⟩
    change some ((ofInt? (first.toInt + more.toInt)).getD _) = _
    rw [ha, Option.getD_some]
  · refine ⟨Int64.maxValue, ?_, by rw [Int64.toInt_maxValue]; omega⟩
    change some ((ofInt? (first.toInt + more.toInt)).getD _) = _
    rw [ofInt?_of_large (Int.not_lt.1 hfits), Option.getD_none]

theorem position?_eq {i : Image} {width height : UInt32} (hwidth : i.width = width.toNat)
    (hheight : i.height = height.toNat) (x y : Int64) :
    position? width height x y = some (i.position x.toInt y.toInt) := by
  have hw := width.toNat_lt
  have hh := height.toNat_lt
  unfold position? Image.position Position.inside?
  simp only [Int64.lt_iff_toInt_lt, Int64.le_iff_toInt_le, toInt_widen, Int64.toInt_zero, hwidth, hheight]
  by_cases hin : 0 ≤ x.toInt ∧ 0 ≤ y.toInt ∧ x.toInt < width.toNat ∧ y.toInt < height.toNat
  · obtain ⟨column, hcolumn, hx⟩ := narrow?_of_fits (a := x) hin.1 (by omega)
    obtain ⟨row, hrow, hy⟩ := narrow?_of_fits (a := y) hin.2.1 (by omega)
    rw [if_neg (by omega), if_pos hin, hcolumn, hrow]
    change some (Except.ok (⟨column.toNat, row.toNat⟩ : Position)) = _
    rw [hx, hy]
  · rw [if_pos (by omega), if_neg hin]

end Word

namespace Image

/-- Colour an area of an image whose size is given in words. -/
def fillWords? (i : Image) (columns rows : UInt32) (x y width height : Int64) (c : Color) :
    Option (Except Fault Image) :=
  if width ≤ 0 ∨ height ≤ 0 then some (.ok i)
  else do
    let farX ← Word.reach? x width
    let farY ← Word.reach? y height
    match ← Word.position? columns rows x y with
    | .error e => return .error e
    | .ok _ =>
      match ← Word.position? columns rows farX farY with
      | .error e => return .error e
      | .ok _ =>
        let cells ← (WordRect.ofCorners x y farX farY).clipped? columns rows
        return .ok { cells.foldl (fun i p => i.paint p c) i with dirty := true }

/-- Colouring an area fits in words. -/
theorem fillWords?_eq {i : Image} {columns rows : UInt32} (hwidth : i.width = columns.toNat)
    (hheight : i.height = rows.toNat) (x y width height : Int64) (c : Color) :
    i.fillWords? columns rows x y width height c =
      some (i.fill x.toInt y.toInt width.toInt height.toInt c) := by
  unfold fillWords?
  simp only [Int64.le_iff_toInt_le, Int64.toInt_zero]
  by_cases hempty : width.toInt ≤ 0 ∨ height.toInt ≤ 0
  · rw [if_pos hempty, fill_of_empty hempty]
  · obtain ⟨farX, hfarX, hx⟩ := Word.reach?_eq x width (by omega)
    obtain ⟨farY, hfarY, hy⟩ := Word.reach?_eq y height (by omega)
    have hx : farX.toInt = min (x.toInt + (width.toInt - 1)) farthest := hx
    have hy : farY.toInt = min (y.toInt + (height.toInt - 1)) farthest := hy
    rw [if_neg hempty, hfarX, hfarY, fill, if_neg hempty]
    simp only [Option.bind_eq_bind, Option.bind_some, Word.position?_eq hwidth hheight, WordRect.clipped?_eq,
      WordRect.rect_ofCorners, ← hwidth, ← hheight]
    rw [hx, hy]
    cases i.position x.toInt y.toInt with
    | error e => rfl
    | ok p =>
      simp only
      cases i.position (min (x.toInt + (width.toInt - 1)) farthest) (min (y.toInt + (height.toInt - 1)) farthest) with
      | error e => rfl
      | ok q => rfl

end Image

end ScriptWarden.Texture
