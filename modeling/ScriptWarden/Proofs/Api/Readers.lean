import ScriptWarden.Api.Surface
import ScriptWarden.Proofs.Bridge.Decoding
set_option autoImplicit false

/-!
# API: parameters that are shared

Vectors, colours, places and rectangles come in several forms, and what reads them looks at the signature that was
chosen.  Whatever was chosen among the signatures declared for it, it finds what it reads in the places where it looks.
What a method refuses beyond that it refuses in its own words.
-/

namespace ScriptWarden.Api

open Bridge (Call Objection Readable head_append objection_of_head optional readable_pure required)

variable {c : Call} {name : String}

/-! ## Numbers in a row -/

section Row

variable {α β : Type} {read : Call → Nat → Except String α} {i : Nat}

/-- Three things that stand side by side. -/
theorem readable_three {f : α → α → α → Except String β} (hx : Readable (read c i)) (hy : Readable (read c (i + 1)))
    (hz : Readable (read c (i + 2))) (hf : ∀ x y z, Readable (f x y z)) : Readable (do
      let x ← read c i
      let y ← read c (i + 1)
      let z ← read c (i + 2)
      f x y z) :=
  hx.bind fun x => hy.bind fun y => hz.bind fun z => hf x y z

end Row

/-! ## One value -/

/-- The one signature of a method without alternatives is the one that was chosen. -/
theorem fits_of_one {s : Bridge.Signature} (h : c.Accepted [s]) : c.Fits 0 s := by
  obtain ⟨-, hfits⟩ | hnone := h.fits
  · exact hfits
  · cases hnone

theorem readable_oneNumber (h : c.Accepted (oneNumber name)) : Readable (c.num 0) :=
  Call.readable_num (fits_of_one h).1

theorem readable_oneFlag (h : c.Accepted (oneFlag name)) : Readable (c.bool 0) :=
  Call.readable_bool (fits_of_one h).1

theorem readable_oneText (h : c.Accepted (oneText name)) : Readable (c.text 0) :=
  Call.readable_text (fits_of_one h).1

theorem readable_oneInteger (h : c.Accepted [[required name .integer]]) : Readable (c.int 0) :=
  Call.readable_int (fits_of_one h).1

theorem readable_oneOption (h : c.Accepted [[optional name .string]]) : Readable (c.optional 0 Call.text) :=
  Call.readable_optional (fits_of_one h).1 Call.readable_text

/-! ## Vectors and colours -/

theorem readable_vec3Of (h : c.Accepted (vec3Overloads name)) : Readable (vec3Of c) := by
  unfold vec3Of
  obtain ⟨h0, hv, -⟩ | ⟨h1, hx, hy, hz, -⟩ | hnone := h.fits
  · rw [if_pos h0]
    exact Call.readable_vec3 hv
  · rw [if_neg (by simp [h1])]
    exact readable_three (Call.readable_num hx) (Call.readable_num hy) (Call.readable_num hz)
      fun _ _ _ => readable_pure _
  · cases hnone

theorem readable_colorOf (h : c.Accepted colorOverloads) : Readable (colorOf c) := by
  unfold colorOf
  obtain ⟨h0, hrgb, -⟩ | ⟨h1, hrgba, -⟩ | ⟨h2, hr, hg, hb, ha, -⟩ | hnone := h.fits
  · simp only [h0]
    exact (Call.readable_vec3 hrgb).bind fun _ => readable_pure _
  · simp only [h1]
    exact Call.readable_vec4 hrgba
  · simp only [h2]
    exact readable_three (Call.readable_num hr) (Call.readable_num hg) (Call.readable_num hb) fun _ _ _ =>
      (Call.readable_optional ha Call.readable_num).bind fun _ => readable_pure _
  · cases hnone

theorem readable_backgroundOf (h : c.Accepted backgroundOverloads) : Readable (backgroundOf c) := by
  unfold backgroundOf
  obtain ⟨h0, hrgb, -⟩ | ⟨h1, hrgba, -⟩ | ⟨h2, hrgb, ha, -⟩ | ⟨h3, hr, hg, hb, -⟩ |
    ⟨h4, hr, hg, hb, ha, -⟩ | hnone := h.fits
  · simp only [h0, pure_bind]
    exact (Call.readable_vec3 hrgb).bind fun _ => readable_pure _
  · simp only [h1]
    exact (Call.readable_vec4 hrgba).bind fun _ => readable_pure _
  · simp only [h2, pure_bind]
    exact (Call.readable_vec3 hrgb).bind fun _ => (Call.readable_num ha).bind fun _ => readable_pure _
  · simp only [h3, pure_bind]
    exact readable_three (Call.readable_num hr) (Call.readable_num hg) (Call.readable_num hb)
      fun _ _ _ => readable_pure _
  · simp only [h4, pure_bind]
    exact readable_three (Call.readable_num hr) (Call.readable_num hg) (Call.readable_num hb) fun _ _ _ =>
      (Call.readable_num ha).bind fun _ => readable_pure _
  · cases hnone

/-! ## Particles -/

theorem readable_particleName (h : c.Accepted particleOverloads) : Readable (c.text 0) := by
  obtain ⟨-, hname, -⟩ | ⟨-, hname, -⟩ | ⟨-, hname, -⟩ | hnone := h.fits
  · exact Call.readable_text hname
  · exact Call.readable_text hname
  · exact Call.readable_text hname
  · cases hnone

theorem readable_particlePlace (h : c.Accepted particleOverloads) : Readable (particlePlace c) := by
  unfold particlePlace
  obtain ⟨h0, -⟩ | ⟨h1, -, hpos, -⟩ | ⟨h2, -, hx, hy, hz, -⟩ | hnone := h.fits
  · simp only [h0]
    exact readable_pure _
  · simp only [h1]
    exact Call.readable_vec3 hpos
  · simp only [h2]
    exact readable_three (Call.readable_num hx) (Call.readable_num hy) (Call.readable_num hz)
      fun _ _ _ => readable_pure _
  · cases hnone

/-! ## Images -/

theorem readable_pixelPlace (h : c.Accepted pixelOverloads) : Readable (c.int 0) ∧ Readable (c.int 1) := by
  obtain ⟨-, hx, hy, -⟩ | ⟨-, hx, hy, -⟩ | ⟨-, hx, hy, -⟩ | hnone := h.fits
  · exact ⟨Call.readable_int hx, Call.readable_int hy⟩
  · exact ⟨Call.readable_int hx, Call.readable_int hy⟩
  · exact ⟨Call.readable_int hx, Call.readable_int hy⟩
  · cases hnone

theorem readable_pixelColor (h : c.Accepted pixelOverloads) : Readable (pixelColor c) := by
  unfold pixelColor
  obtain ⟨h0, -, -, hrgb, -⟩ | ⟨h1, -, -, hrgba, -⟩ | ⟨h2, -, -, hr, hg, hb, ha, -⟩ | hnone := h.fits
  · simp only [h0]
    exact (Call.readable_vec3 hrgb).bind fun _ => readable_pure _
  · simp only [h1]
    exact (Call.readable_vec4 hrgba).bind fun _ => readable_pure _
  · simp only [h2]
    exact readable_three (Call.readable_num hr) (Call.readable_num hg) (Call.readable_num hb) fun _ _ _ =>
      (Call.readable_optional ha Call.readable_num).bind fun _ => readable_pure _
  · cases hnone

theorem readable_cornersOf {first : Nat} (h : c.Fits first (integers ["x1", "y1", "x2", "y2"])) :
    Readable (cornersOf c first) := by
  obtain ⟨hx₁, hy₁, hx₂, hy₂, -⟩ := h
  exact readable_three (Call.readable_int hx₁) (Call.readable_int hy₁) (Call.readable_int hx₂) fun _ _ _ =>
    (Call.readable_int hy₂).bind fun _ => readable_pure _

theorem readable_regionOf (h : c.Accepted regionOverloads) : Readable (regionOf c) := by
  unfold regionOf
  obtain ⟨h0, hrgb, hcorners⟩ | ⟨h1, hrgba, hcorners⟩ | ⟨h2, hrgb, hrect, -⟩ | ⟨h3, hrgba, hrect, -⟩ | hnone :=
    h.fits
  · simp +decide only [h0, if_true, pure_bind]
    exact (Call.readable_vec3 hrgb).bind fun _ => (readable_cornersOf hcorners).bind fun _ => readable_pure _
  · simp +decide only [h1, if_true, if_false]
    exact (Call.readable_vec4 hrgba).bind fun _ => (readable_cornersOf hcorners).bind fun _ => readable_pure _
  · simp +decide only [h2, if_true, if_false, pure_bind]
    exact (Call.readable_vec3 hrgb).bind fun _ => (Call.readable_vec4 hrect).bind fun _ => readable_pure _
  · simp +decide only [h3, if_false, pure_bind]
    exact (Call.readable_vec4 hrgba).bind fun _ => (Call.readable_vec4 hrect).bind fun _ => readable_pure _
  · cases hnone

/-! ## Refusals -/

/-- What is read goes into what comes behind it, which has its own objections. -/
theorem objection_of_bind {α β : Type} {x : Except String α} {f : α → Except String β} {e : String}
    (hx : Readable x) (hf : ∀ a, f a = .error e → Objection c.method e) (he : (x >>= f) = .error e) :
    Objection c.method e := by
  obtain ⟨a, rfl⟩ := hx
  exact hf a he

theorem objection_of_eventOf (hname : Readable (c.text 0)) {e : String} (he : eventOf c = .error e) :
    Objection c.method e := by
  refine objection_of_bind hname (fun event he => ?_) he
  split at he
  · cases he
    exact objection_of_head (x := 'u') (head_append (head_append rfl)) (by decide)
  · cases he

theorem objection_of_fault (fault : Texture.Fault) :
    Objection c.method (c.method ++ ": " ++ fault.message) := by
  cases fault with
  | outOfBounds =>
    refine objection_of_head (x := 'p') ?_ (by decide)
    iterate 8 refine head_append ?_
    rfl
  | invalidSize =>
    refine objection_of_head (x := 't') ?_ (by decide)
    iterate 5 refine head_append ?_
    rfl
  | pixelCount =>
    refine objection_of_head (x := 'p') ?_ (by decide)
    iterate 3 refine head_append ?_
    rfl
  | exhausted =>
    refine objection_of_head (x := 't') ?_ (by decide)
    iterate 6 refine head_append ?_
    rfl

theorem objection_of_path (path : String) (fault : PathFault) :
    Objection c.method (c.method ++ ": " ++ fault.message path) := by
  cases fault <;>
    exact objection_of_head (x := 'p') (head_append (head_append rfl)) (by decide)

theorem objection_of_requestOf (hpath : Readable (c.text 0)) (hmethod : Readable (c.optional 1 Call.text))
    (hbody : Readable (c.optional 2 Call.text)) {e : String} (he : requestOf c = .error e) :
    Objection c.method e := by
  refine objection_of_bind hpath (fun path he => ?_) he
  refine objection_of_bind hmethod (fun method he => ?_) he
  simp only at he
  split at he
  · cases he
    exact objection_of_head (x := 'u') (head_append (head_append rfl)) (by decide)
  · split at he
    · cases he
      exact objection_of_path path _
    · refine objection_of_bind hbody (fun body he => ?_) he
      cases he

theorem objection_of_overrideOf (hkind : Readable (c.text 0)) (hvalue : Readable (c.optional 1 Call.text))
    {e : String} (he : overrideOf c = .error e) : Objection c.method e := by
  refine objection_of_bind hkind (fun raw he => ?_) he
  split at he
  · cases he
    exact objection_of_head (x := 'u') (head_append (head_append (head_append (head_append rfl)))) (by decide)
  · next kind _ =>
    refine objection_of_bind hvalue (fun value he => ?_) he
    simp only at he
    split at he
    · cases he
      exact objection_of_head (x := 'o') (head_append (head_append rfl)) (by decide)
    · cases he

end ScriptWarden.Api
