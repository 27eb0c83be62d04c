import ScriptWarden.Proofs.Texture.Refinement
set_option autoImplicit false

/-!
# Texture: images that change

An image that a write changes is dirty, and keeps its name (`Image.Touched`).  What happens to a gallery leaves all
other images as they are (`Gallery.Redrawn`): holding an image, and everything about drafts but writing their cells,
changes none.  An image goes only when somebody lets go of it.
-/

namespace ScriptWarden.Texture

/-! ## Writing to an image -/

/-- An image after something that marks it if it changes it; its name stays. -/
structure Image.Touched (i i' : Image) : Prop where
  name_eq : i'.name = i.name
  marked : i' = i ∨ i'.dirty = true

namespace Image

variable {i i' : Image}

theorem Touched.refl (i : Image) : i.Touched i := ⟨rfl, .inl rfl⟩

theorem name_paint (i : Image) (p : Position) (c : Color) : (i.paint p c).name = i.name := by
  unfold paint
  split <;> rfl

/-- Painting one by one keeps the name. -/
theorem name_foldl {α : Type} (f : Image → α → Image) (hf : ∀ i a, (f i a).name = i.name) (as : List α) (i : Image) :
    (as.foldl f i).name = i.name :=
  List.foldlRecOn (motive := fun j => j.name = i.name) as f rfl fun j hj a _ => (hf j a).trans hj

theorem touched_set {x y : Int} {c : Color} (h : i.set x y c = .ok i') : i.Touched i' := by
  obtain ⟨p, hp⟩ | hp := i.position_cases x y
  · simp only [set, hp, ok_bind] at h
    cases h
    exact ⟨name_paint i p c, .inr rfl⟩
  · simp only [set, hp] at h
    cases h

theorem touched_fill {x y width height : Int} {c : Color} (h : i.fill x y width height c = .ok i') : i.Touched i' := by
  unfold fill at h
  split at h
  · cases h
    exact .refl i
  · simp only at h
    obtain ⟨p, hp⟩ | hp := i.position_cases x y
    · obtain ⟨q, hq⟩ | hq := i.position_cases (min (x + (width - 1)) farthest) (min (y + (height - 1)) farthest)
      · simp only [hp, hq, ok_bind] at h
        cases h
        exact ⟨name_foldl _ (fun j p => name_paint j p c) _ i, .inr rfl⟩
      · simp only [hp, hq, ok_bind] at h
        cases h
    · simp only [hp] at h
      cases h

theorem touched_apply (i : Image) (edits : List (Position × Color)) : i.Touched (i.apply edits).2 := by
  refine ⟨name_foldl _ (fun j edit => ?_) edits i, .inr rfl⟩
  simp only
  split
  · exact name_paint j _ _
  · rfl

end Image

/-! ## Galleries -/

namespace Gallery

/-- The gallery after something that lets go of no image and makes none; if it changed an image, then one of the
targets. -/
structure Redrawn (targets : Nat → Prop) (g g' : Gallery) : Prop where
  next_le : g.next ≤ g'.next
  image : ∀ id image, g.image? id = some image →
    ∃ image', g'.image? id = some image' ∧ image.Touched image' ∧ (image' = image ∨ targets id)
  missing : ∀ id, g.image? id = none → g'.image? id = none

section Redrawn

variable {targets : Nat → Prop} {g g' : Gallery} {id k : Nat}

/-- What does not change any image. -/
theorem redrawn_of_same (hnext : g.next ≤ g'.next) (hsame : ∀ id, g'.image? id = g.image? id) :
    Redrawn targets g g' where
  next_le := hnext
  image id image himage := ⟨image, (hsame id).trans himage, .refl image, .inl rfl⟩
  missing id hnone := (hsame id).trans hnone

theorem Redrawn.refl (g : Gallery) : Redrawn targets g g := redrawn_of_same (Nat.le_refl _) fun _ => rfl

/-- The slots change, but not the images in them. -/
theorem image?_modify (g : Gallery) (id j : Nat) {f : Slot → Slot} (hf : ∀ s, (f s).image = s.image) :
    image? { g with slots := g.slots.modify id f } j = g.image? j := by
  simp only [image?, Std.ExtTreeMap.getElem?_modify, Nat.compare_eq_eq]
  split
  · next heq =>
    rw [heq, Option.map_map]
    exact congrArg (g.slots[j]?.map ·) (funext hf)
  · rfl

theorem image?_editImage (g : Gallery) (id j : Nat) (f : Image → Image) :
    (g.editImage id f).image? j = if id = j then (g.image? j).map f else g.image? j := by
  simp only [image?, editImage, Std.ExtTreeMap.getElem?_modify, Nat.compare_eq_eq]
  split
  · next heq =>
    rw [heq, Option.map_map, Option.map_map]
    rfl
  · rfl

/-- Writing an image changes that image at most. -/
theorem redrawn_editImage {image' : Image} (hdrawn : ∀ image, g.image? id = some image → image.Touched image') :
    Redrawn (· = id) g (g.editImage id fun _ => image') := by
  constructor
  · exact Nat.le_refl _
  · intro j image himage
    rw [image?_editImage]
    split
    · next heq =>
      rw [← heq] at himage
      exact ⟨image', by rw [← heq, himage]; rfl, hdrawn image himage, .inr heq.symm⟩
    · exact ⟨image, himage, .refl image, .inl rfl⟩
  · intro j hnone
    rw [image?_editImage, hnone]
    split <;> rfl

theorem redrawn_hold (g : Gallery) (id : Nat) : Redrawn targets g (g.hold id) :=
  redrawn_of_same (Nat.le_refl _) fun j => image?_modify g id j fun _ => rfl

theorem redrawn_openDraft (g : Gallery) (target : Nat) : Redrawn targets g (g.openDraft target).2 :=
  redrawn_of_same (Nat.le_succ _) fun _ => rfl

theorem redrawn_queue {cells : List Position} {c : Color} {n : Nat} (h : g.queue k cells c = .ok (n, g')) :
    Redrawn targets g g' := by
  cases hd : g.drafts[k]? with
  | none =>
    rw [queue, hd] at h
    cases h
    exact .refl g
  | some d =>
    obtain ⟨used, hqueued⟩ | ⟨-, hfull⟩ := queue_cases hd cells c
    · rw [hqueued] at h
      cases h
      exact redrawn_of_same (Nat.le_refl _) fun _ => rfl
    · rw [hfull] at h
      cases h

theorem redrawn_queueCell {x y : Int} {c : Color} (h : g.queueCell k x y c = .ok g') : Redrawn targets g g' := by
  unfold queueCell at h
  split at h
  · next image _ =>
    obtain ⟨p, hp⟩ | hp := image.position_cases x y
    · rw [hp, ok_bind] at h
      cases hqueued : g.queue k [p] c with
      | error e =>
        rw [hqueued] at h
        cases h
      | ok made =>
        rw [hqueued, ok_bind] at h
        cases h
        exact redrawn_queue hqueued
    · rw [hp] at h
      cases h
  · cases h

theorem redrawn_queueRect {r : Rect} {c : Color} {n : Nat} (h : g.queueRect k r c = .ok (n, g')) :
    Redrawn targets g g' := by
  unfold queueRect at h
  split at h
  · exact redrawn_queue h
  · cases h
    exact .refl g

theorem redrawn_queueEllipse {r : Rect} {c : Color} {n : Nat} (h : g.queueEllipse k r c = .ok (n, g')) :
    Redrawn targets g g' := by
  unfold queueEllipse at h
  split at h
  · exact redrawn_queue h
  · cases h
    exact .refl g

theorem redrawn_retain (g : Gallery) (k : Nat) (keep : Position → Bool) : Redrawn targets g (g.retain k keep).2 := by
  cases hd : g.drafts[k]? with
  | none =>
    rw [retain, hd]
    exact .refl g
  | some d =>
    obtain ⟨used, hkept⟩ := retain_eq hd keep
    rw [hkept]
    exact redrawn_of_same (Nat.le_refl _) fun _ => rfl

theorem redrawn_cancel (g : Gallery) (k : Nat) (x y : Int) : Redrawn targets g (g.cancel k x y).2 := by
  unfold cancel
  split
  · exact redrawn_retain g k _
  · exact .refl g

theorem redrawn_applyDraft (g : Gallery) (k id : Nat) : Redrawn (· = id) g (g.applyDraft k id).2 := by
  have htaken : (g.takePending k).2.next = g.next ∧ ∀ j, (g.takePending k).2.image? j = g.image? j := by
    cases hd : g.drafts[k]? with
    | none =>
      rw [takePending, hd]
      exact ⟨rfl, fun _ => rfl⟩
    | some d =>
      obtain ⟨used, htaken⟩ := takePending_eq hd
      rw [htaken]
      exact ⟨rfl, fun _ => rfl⟩
  obtain ⟨hnext, hsame⟩ := htaken
  unfold applyDraft
  simp only
  split
  · next image himage =>
    have hedited : Redrawn (· = id) (g.takePending k).2
        ((g.takePending k).2.editImage id fun _ => (image.apply (g.takePending k).1).2) := by
      refine redrawn_editImage fun image' himage' => ?_
      rw [himage] at himage'
      cases himage'
      exact image.touched_apply _
    constructor
    · exact hnext ▸ hedited.next_le
    · exact fun j image himage => hedited.image j image ((hsame j).trans himage)
    · exact fun j hnone => hedited.missing j ((hsame j).trans hnone)
  · exact redrawn_of_same (Nat.le_of_eq hnext.symm) hsame

/-- A commit changes the image that the draft is open on at most. -/
theorem redrawn_commit (g : Gallery) (k : Nat) :
    Redrawn (fun id => ∃ d, g.drafts[k]? = some d ∧ d.target = id) g (g.commit k).2 := by
  unfold commit
  split
  · next d hd =>
    have happlied := redrawn_applyDraft g k d.target
    refine ⟨happlied.next_le, fun id image himage => ?_, happlied.missing⟩
    obtain ⟨image', himage', htouched, hwhy⟩ := happlied.image id image himage
    exact ⟨image', himage', htouched, hwhy.imp_right fun heq => ⟨d, hd, heq.symm⟩⟩
  · exact .refl g

end Redrawn

/-! ## Letting go -/

section Release

variable (g : Gallery) (id : Nat)

theorem next_release : (g.release id).next = g.next := by
  unfold release
  obtain ⟨hsame, -⟩ | ⟨s, -, -, -, hsweep⟩ := sweep_cases (g.dropHolder id) id
  · exact congrArg (·.next) hsame
  · exact congrArg (·.next) hsweep

/-- Letting go of an image keeps the others. -/
theorem image?_release_ne {j : Nat} (hne : id ≠ j) : (g.release id).image? j = g.image? j := by
  have hswept : (g.release id).image? j = (g.dropHolder id).image? j :=
    congrArg (·.map (·.image)) (getElem?_sweep_ne (g.dropHolder id) hne)
  exact hswept.trans (image?_modify g id j fun _ => rfl)

/-- Letting go of an image changes none. -/
theorem image?_of_release {j : Nat} {image : Image} (h : (g.release id).image? j = some image) :
    g.image? j = some image := by
  rw [← image?_modify g id j (f := fun s => { s with holders := s.holders - 1 }) fun _ => rfl]
  change (sweep (g.dropHolder id) id).image? j = _ at h
  obtain ⟨hsame, -⟩ | ⟨s, -, -, -, hsweep⟩ := sweep_cases (g.dropHolder id) id
  · rw [hsame] at h
    exact h
  · rw [hsweep] at h
    simp only [image?, Std.ExtTreeMap.getElem?_erase] at h
    split at h
    · cases h
    · exact h

theorem releaseAll (ids : List Nat) : (ids.foldl release g).next = g.next ∧
    ∀ j image, (ids.foldl release g).image? j = some image → g.image? j = some image := by
  induction ids generalizing g with
  | nil => exact ⟨rfl, fun _ _ h => h⟩
  | cons id rest ih =>
    obtain ⟨hnext, himage⟩ := ih (g.release id)
    exact ⟨hnext.trans (next_release g id), fun j image h => image?_of_release g id (himage j image h)⟩

end Release

end Gallery

end ScriptWarden.Texture
