import Mathlib.Data.List.Induction
import ScriptWarden.Proofs.Texture.Balance
set_option autoImplicit false

/-!
# Texture: the account

A gallery under every sequence of its operations.  One operation takes what it has to pay for (`demand`),
or is refused if that does not fit, and gives back exactly what it no longer pays for (`refunded`); so a
gallery that starts empty stays sound, and whoever drops everything gets the whole allowance back.
-/

namespace ScriptWarden.Texture

theorem ok_bind {α β : Type} (a : α) (f : α → Except Fault β) : (Except.ok a >>= f) = f a := rfl

/-! ## Writing to an image -/

namespace Image

theorem area_paint (i : Image) (p : Position) (c : Color) : (i.paint p c).area = i.area := by
  unfold paint
  split <;> rfl

/-- Painting one by one keeps the size. -/
theorem area_foldl {α : Type} (f : Image → α → Image) (hf : ∀ i a, (f i a).area = i.area)
    (as : List α) (i : Image) : (as.foldl f i).area = i.area := by
  induction as generalizing i with
  | nil => rfl
  | cons a rest ih => rw [List.foldl_cons, ih, hf]

theorem area_apply (i : Image) (edits : List (Position × Color)) : (i.apply edits).2.area = i.area := by
  refine area_foldl _ (fun i edit => ?_) edits i
  simp only
  split
  · exact i.area_paint _ _
  · rfl

/-- A write past the drafts. -/
inductive Write where
  | set (x y : Int) (c : Color)
  | fill (x y width height : Int) (c : Color)
  | apply (edits : List (Position × Color))
  /-- Mark the image for the next upload, or as uploaded. -/
  | mark (dirty : Bool)

/-- The image after a write. -/
def write (i : Image) : Write → Except Fault Image
  | .set x y c => i.set x y c
  | .fill x y width height c => i.fill x y width height c
  | .apply edits => .ok (i.apply edits).2
  | .mark dirty => .ok { i with dirty }

theorem position_cases (i : Image) (x y : Int) :
    (∃ p, i.position x y = .ok p) ∨ i.position x y = .error (.outOfBounds x y i.width i.height) := by
  unfold position
  split
  · next p _ => exact .inl ⟨p, rfl⟩
  · exact .inr rfl

/-- A write keeps the size, or it is refused for its place; the allowance has no say in it. -/
theorem write_cases (i : Image) (w : Write) :
    (∃ i', i.write w = .ok i' ∧ i'.area = i.area) ∨
    ∃ x y, i.write w = .error (.outOfBounds x y i.width i.height) := by
  cases w with
  | set x y c =>
    rcases i.position_cases x y with ⟨p, hp⟩ | hp
    · exact .inl ⟨{ i.paint p c with dirty := true }, by simp [write, set, hp], i.area_paint p c⟩
    · exact .inr ⟨x, y, by simp [write, set, hp]⟩
  | fill x y width height c =>
    by_cases hempty : width ≤ 0 ∨ height ≤ 0
    · exact .inl ⟨i, by simp [write, fill, hempty], rfl⟩
    · let farX := min (x + (width - 1)) farthest
      let farY := min (y + (height - 1)) farthest
      let cells := (Rect.ofCorners x y farX farY).clipped i.width i.height
      rcases i.position_cases x y with ⟨p, hp⟩ | hp
      · rcases i.position_cases farX farY with ⟨q, hq⟩ | hq
        · refine .inl ⟨{ cells.foldl (fun i p => i.paint p c) i with dirty := true }, ?_, ?_⟩
          · rw [write, fill, if_neg hempty, hp, ok_bind, hq]
            rfl
          · exact area_foldl _ (fun i p => i.area_paint p c) cells i
        · refine .inr ⟨farX, farY, ?_⟩
          rw [write, fill, if_neg hempty, hp, ok_bind, hq]
          rfl
      · refine .inr ⟨x, y, ?_⟩
        rw [write, fill, if_neg hempty, hp]
        rfl
  | apply edits => exact .inl ⟨(i.apply edits).2, rfl, i.area_apply edits⟩
  | mark dirty => exact .inl ⟨{ i with dirty }, rfl, rfl⟩

end Image

namespace Gallery

/-! ## One operation -/

/-- What can happen to the images and drafts that share an allowance. -/
inductive Op where
  /-- Make an image that pays for its pixels. -/
  | create (name : String) (width height : Nat)
  /-- Bring in an image that does not. -/
  | adopt (image : Image)
  | hold (id : Nat)
  | release (id : Nat)
  | write (id : Nat) (w : Image.Write)
  | openDraft (target : Nat)
  | closeDraft (draft : Nat)
  | queueCell (draft : Nat) (x y : Int) (c : Color)
  | queueRect (draft : Nat) (r : Rect) (c : Color)
  | queueEllipse (draft : Nat) (r : Rect) (c : Color)
  | cancel (draft : Nat) (x y : Int)
  | cancelRect (draft : Nat) (r : Rect)
  | takePending (draft : Nat)
  | applyDraft (draft target : Nat)
  | commit (draft : Nat)

/-- The gallery after an operation.  A write to an image that is gone does nothing, and a draft is opened
on an image that lives. -/
def perform (g : Gallery) : Op → Except Fault Gallery
  | .create name width height => (·.2) <$> g.create name width height
  | .adopt image => .ok (g.insert image false).2
  | .hold id => .ok (g.hold id)
  | .release id => .ok (g.release id)
  | .write id w =>
    match g.image? id with
    | some image => (fun painted => g.editImage id fun _ => painted) <$> image.write w
    | none => .ok g
  | .openDraft target => .ok (if target ∈ g.slots then (g.openDraft target).2 else g)
  | .closeDraft k => .ok (g.closeDraft k)
  | .queueCell k x y c => g.queueCell k x y c
  | .queueRect k r c => (·.2) <$> g.queueRect k r c
  | .queueEllipse k r c => (·.2) <$> g.queueEllipse k r c
  | .cancel k x y => .ok (g.cancel k x y).2
  | .cancelRect k r => .ok (g.cancelRect k r).2
  | .takePending k => .ok (g.takePending k).2
  | .applyDraft k target => .ok (g.applyDraft k target).2
  | .commit k => .ok (g.commit k).2

/-- The cells that an operation queues for a draft. -/
def cellsOf (g : Gallery) : Op → Option (Nat × List Position)
  | .queueCell k x y _ =>
    (g.target? k).bind fun image =>
      (Position.inside? x y image.width image.height).map fun p => (k, [p])
  | .queueRect k r _ => (g.target? k).map fun image => (k, r.clipped image.width image.height)
  | .queueEllipse k r _ =>
    (g.target? k).map fun image => (k, r.clippedEllipse image.width image.height)
  | _ => none

/-- What an operation has to take from the account: the pixels of a new image, or the cells that were not
pending yet if the draft pays for them. -/
def demand (g : Gallery) : Op → Nat
  | .create _ width height => width * height
  | op => (g.cellsOf op).elim 0 fun (k, cells) => g.fresh k cells

/-- What an operation gives back to the account. -/
def refunded (g : Gallery) : Op → Nat
  | .release id => (g.dropHolder id).swept id
  | .closeDraft k => g.closed k
  | .cancel k x y =>
    ((g.target? k).bind fun image => Position.inside? x y image.width image.height).elim 0
      fun p => g.dropped k (· ≠ p)
  | .cancelRect k r => g.dropped k fun p => !r.contains p
  | .takePending k => g.pendingCost k
  | .applyDraft k _ => g.pendingCost k
  | .commit k => g.pendingCost k
  | _ => 0

theorem Step.trans {g g₁ g₂ : Gallery} {t₁ t₂ r₁ r₂ : Nat} (h₁ : Step g t₁ r₁ g₁)
    (h₂ : Step g₁ t₂ r₂ g₂) : Step g (t₁ + t₂) (r₁ + r₂) g₂ := by
  refine ⟨h₂.sound, ?_, h₂.limit_eq.trans h₁.limit_eq⟩
  have hfirst := h₁.ledger
  have hsecond := h₂.ledger
  omega

/-- The three ways a change can end that takes some pixels from the account and gives some back: what it
takes does not fit, and it is refused with the numbers of the account; it is refused for a place outside an
image; or it settles. -/
inductive Ends (g : Gallery) (taken given : Nat) : Except Fault Gallery → Prop where
  | exhausted (hfull : g.limit < g.used + taken) :
    Ends g taken given (.error (.exhausted taken g.used g.limit))
  | outOfBounds (x y : Int) (width height : Nat) (hfits : g.used + taken ≤ g.limit) :
    Ends g taken given (.error (.outOfBounds x y width height))
  | settled (g' : Gallery) (hfits : g.used + taken ≤ g.limit) (hstep : Step g taken given g') :
    Ends g taken given (.ok g')

/-- The allowance is the reason of a refusal exactly when what is taken would exceed it. -/
theorem Ends.exhausted_iff {g : Gallery} {taken given : Nat} {result : Except Fault Gallery}
    (h : Ends g taken given result) (requested used limit : Nat) :
    result = .error (.exhausted requested used limit) ↔
      (requested = taken ∧ used = g.used ∧ limit = g.limit) ∧ g.limit < g.used + taken := by
  cases h with
  | exhausted hfull => simp [hfull, eq_comm]
  | outOfBounds x y width height hfits => simp [Nat.not_lt.2 hfits]
  | settled g' hfits hstep => simp [Nat.not_lt.2 hfits]

/-- A change that takes nothing. -/
theorem Step.ends {g g' : Gallery} {given : Nat} (hstep : Step g 0 given g') (h : g.Sound) :
    Ends g 0 given (.ok g') :=
  .settled g' h.used_le hstep

theorem Sound.create_ends {g : Gallery} (h : g.Sound) (name : String) (width height : Nat) :
    Ends g (width * height) 0 ((·.2) <$> g.create name width height) := by
  rw [create_eq]
  split
  · next hfits => exact .settled _ hfits (h.insert (.blank name width height) true hfits)
  · next hfull => exact .exhausted (Nat.lt_of_not_le hfull)

theorem Sound.write_ends {g : Gallery} (h : g.Sound) (id : Nat) (w : Image.Write) :
    Ends g 0 0 (g.perform (.write id w)) := by
  cases himage : g.image? id with
  | none =>
    simp only [perform, himage]
    exact h.refl.ends h
  | some image =>
    simp only [perform, himage]
    rcases image.write_cases w with ⟨painted, hpainted, harea⟩ | ⟨x, y, herror⟩
    · rw [hpainted]
      exact (h.editImage himage harea).ends h
    · rw [herror]
      exact .outOfBounds x y image.width image.height h.used_le

/-- Queueing distinct cells ends, whatever is then made of their number. -/
theorem Sound.queue_ends {g : Gallery} (h : g.Sound) (k : Nat) {cells : List Position} (c : Color)
    (hnodup : cells.Nodup) : Ends g (g.fresh k cells) 0 ((·.2) <$> g.queue k cells c) := by
  rcases Nat.lt_or_ge g.limit (g.used + g.fresh k cells) with hfull | hfits
  · rw [h.queue_error c hfull]
    exact .exhausted hfull
  · obtain ⟨n, g', hqueue, hstep⟩ := h.queue_ok c hnodup hfits
    rw [hqueue]
    exact .settled g' hfits hstep

theorem Sound.queueCell_ends {g : Gallery} (h : g.Sound) (k : Nat) (x y : Int) (c : Color) :
    Ends g (g.demand (.queueCell k x y c)) 0 (g.queueCell k x y c) := by
  cases himage : g.target? k with
  | none =>
    simp only [demand, cellsOf, queueCell, himage]
    exact .outOfBounds x y 0 0 h.used_le
  | some image =>
    simp only [demand, cellsOf, queueCell, Image.position, himage, Option.bind_some]
    cases Position.inside? x y image.width image.height with
    | none => exact .outOfBounds x y image.width image.height h.used_le
    | some p =>
      simp only [Option.map_some, Option.elim_some, ok_bind]
      exact h.queue_ends k c (List.nodup_singleton p)

theorem Sound.queueRect_ends {g : Gallery} (h : g.Sound) (k : Nat) (r : Rect) (c : Color) :
    Ends g (g.demand (.queueRect k r c)) 0 ((·.2) <$> g.queueRect k r c) := by
  cases himage : g.target? k with
  | none =>
    simp only [demand, cellsOf, queueRect, himage]
    exact h.refl.ends h
  | some image =>
    simp only [demand, cellsOf, queueRect, himage]
    exact h.queue_ends k c (r.nodup_clipped _ _)

theorem Sound.queueEllipse_ends {g : Gallery} (h : g.Sound) (k : Nat) (r : Rect) (c : Color) :
    Ends g (g.demand (.queueEllipse k r c)) 0 ((·.2) <$> g.queueEllipse k r c) := by
  cases himage : g.target? k with
  | none =>
    simp only [demand, cellsOf, queueEllipse, himage]
    exact h.refl.ends h
  | some image =>
    simp only [demand, cellsOf, queueEllipse, himage]
    exact h.queue_ends k c (r.nodup_clippedEllipse _ _)

theorem Sound.cancel_step {g : Gallery} (h : g.Sound) (k : Nat) (x y : Int) :
    Step g 0 (g.refunded (.cancel k x y)) (g.cancel k x y).2 := by
  rw [refunded, Gallery.cancel]
  split
  · next p hp =>
    rw [hp]
    exact h.retain k _
  · next hp =>
    rw [hp]
    exact h.refl

theorem Sound.applyDraft_step {g : Gallery} (h : g.Sound) (k target : Nat) :
    Step g 0 (g.pendingCost k) (g.applyDraft k target).2 := by
  have htake := h.takePending k
  simp only [Gallery.applyDraft]
  cases himage : (g.takePending k).2.image? target with
  | none => exact htake
  | some image => exact htake.trans (htake.sound.editImage himage (image.area_apply _))

theorem Sound.commit_step {g : Gallery} (h : g.Sound) (k : Nat) :
    Step g 0 (g.pendingCost k) (g.commit k).2 := by
  rw [Gallery.commit]
  cases hd : g.drafts[k]? with
  | none =>
    rw [pendingCost, hd]
    exact h.refl
  | some d => exact h.applyDraft_step k d.target

/-- Every operation ends in one of the three ways. -/
theorem Sound.ends {g : Gallery} (h : g.Sound) (op : Op) :
    Ends g (g.demand op) (g.refunded op) (g.perform op) := by
  cases op with
  | create name width height => exact h.create_ends name width height
  | adopt image =>
    have hstep : Step g 0 0 (g.insert image false).2 := h.insert image false h.used_le
    exact hstep.ends h
  | hold id => exact (h.hold id).ends h
  | release id => exact (h.release id).ends h
  | write id w => exact h.write_ends id w
  | openDraft target =>
    simp only [perform]
    split
    · next ht => exact (h.openDraft ht).ends h
    · exact h.refl.ends h
  | closeDraft k => exact (h.closeDraft k).ends h
  | queueCell k x y c => exact h.queueCell_ends k x y c
  | queueRect k r c => exact h.queueRect_ends k r c
  | queueEllipse k r c => exact h.queueEllipse_ends k r c
  | cancel k x y => exact (h.cancel_step k x y).ends h
  | cancelRect k r => exact (h.retain k _).ends h
  | takePending k => exact (h.takePending k).ends h
  | applyDraft k target => exact (h.applyDraft_step k target).ends h
  | commit k => exact (h.commit_step k).ends h

/-! ## Runs -/

/-- The gallery after an operation; a refused one leaves it as it was. -/
def after (g : Gallery) (op : Op) : Gallery :=
  match g.perform op with
  | .ok g' => g'
  | .error _ => g

/-- The gallery after a sequence of operations. -/
def run (g : Gallery) (ops : List Op) : Gallery := ops.foldl after g

theorem Sound.after {g : Gallery} (h : g.Sound) (op : Op) :
    (g.after op).Sound ∧ (g.after op).limit = g.limit := by
  unfold Gallery.after
  have hends := h.ends op
  cases hperform : g.perform op with
  | error e => exact ⟨h, rfl⟩
  | ok g' =>
    rw [hperform] at hends
    cases hends with
    | settled _ _ hstep => exact ⟨hstep.sound, hstep.limit_eq⟩

theorem Sound.run {g : Gallery} (h : g.Sound) (ops : List Op) :
    (g.run ops).Sound ∧ (g.run ops).limit = g.limit := by
  induction ops generalizing g with
  | nil => exact ⟨h, rfl⟩
  | cons op rest ih =>
    obtain ⟨hsound, hlimit⟩ := h.after op
    obtain ⟨hrest, hrestLimit⟩ := ih hsound
    exact ⟨hrest, hrestLimit.trans hlimit⟩

/-! ## Dropping everything -/

namespace Op

/-- Does an operation let go of an image? -/
def releases (id : Nat) : Op → Bool
  | .release id' => id' = id
  | _ => false

/-- Does an operation close a draft? -/
def closes (k : Nat) : Op → Bool
  | .closeDraft k' => k' = k
  | _ => false

/-- Does an operation let something go? -/
def isDrop : Op → Bool
  | .release _ => true
  | .closeDraft _ => true
  | _ => false

end Op

/-- Some operations close every draft and let go of every image as often as it is held. -/
structure Drops (g : Gallery) (ops : List Op) : Prop where
  isDrop : ∀ op ∈ ops, op.isDrop
  closes : ∀ k ∈ g.drafts, ∃ op ∈ ops, op.closes k
  releases : ∀ (id : Nat) (s : Slot), g.slots[id]? = some s → s.holders ≤ ops.countP (·.releases id)

theorem getElem?_of_sweep {g : Gallery} {id id' : Nat} {s : Slot}
    (hs : (g.sweep id).slots[id']? = some s) : g.slots[id']? = some s := by
  rcases g.sweep_cases id with ⟨hsame, -⟩ | ⟨s', -, -, -, hsweep⟩
  · rwa [hsame] at hs
  · rw [hsweep] at hs
    simp only [Std.ExtTreeMap.getElem?_erase] at hs
    split at hs
    · cases hs
    · exact hs

/-- An image that is still there after one holder has gone has one holder less. -/
theorem getElem?_of_release {g : Gallery} {id id' : Nat} {s : Slot}
    (hs : (g.release id).slots[id']? = some s) :
    ∃ s₀, g.slots[id']? = some s₀ ∧ s.holders = s₀.holders - if id = id' then 1 else 0 := by
  have hslot := getElem?_of_sweep hs
  simp only [Std.ExtTreeMap.getElem?_modify, Nat.compare_eq_eq] at hslot
  split at hslot
  · next heq =>
    subst heq
    obtain ⟨s₀, hs₀, rfl⟩ := Option.map_eq_some_iff.1 hslot
    exact ⟨s₀, hs₀, by simp⟩
  · next hne => exact ⟨s, hslot, by simp [hne]⟩

theorem drafts_release (g : Gallery) (id : Nat) : (g.release id).drafts = g.drafts :=
  drafts_sweep _ _

theorem getElem?_of_closeDraft {g : Gallery} {k id : Nat} {s : Slot}
    (hs : (g.closeDraft k).slots[id]? = some s) : g.slots[id]? = some s := by
  cases hd : g.drafts[k]? with
  | none =>
    rw [closeDraft, hd] at hs
    exact hs
  | some d =>
    simp only [closeDraft, hd, refundCells_eq] at hs
    have hslot := getElem?_of_sweep hs
    exact hslot

theorem drafts_closeDraft (g : Gallery) (k : Nat) : (g.closeDraft k).drafts = g.drafts.erase k := by
  cases hd : g.drafts[k]? with
  | none =>
    rw [closeDraft, hd, erase_eq_self hd]
  | some d =>
    simp only [closeDraft, hd, refundCells_eq]
    exact drafts_sweep _ _

theorem Drops.after {g : Gallery} {op : Op} {rest : List Op} (h : g.Drops (op :: rest)) :
    (g.after op).Drops rest := by
  have hdrop := h.isDrop op List.mem_cons_self
  refine ⟨fun op' hop' => h.isDrop op' (List.mem_cons_of_mem _ hop'), ?_, ?_⟩
  · intro k hk
    cases op with
    | release id =>
      have hdrafts : (g.after (.release id)).drafts = g.drafts := g.drafts_release id
      rw [hdrafts] at hk
      simpa [Op.closes] using h.closes k hk
    | closeDraft k' =>
      have hdrafts : (g.after (.closeDraft k')).drafts = g.drafts.erase k' := g.drafts_closeDraft k'
      rw [hdrafts, Std.ExtTreeMap.mem_erase] at hk
      simpa [Op.closes, show k' ≠ k by simpa using hk.1] using h.closes k hk.2
    | _ => cases hdrop
  · intro id s hs
    cases op with
    | release id' =>
      obtain ⟨s₀, hs₀, hholders⟩ := getElem?_of_release hs
      have hcount := h.releases id s₀ hs₀
      have hfirst : (Op.release id').releases id = decide (id' = id) := rfl
      rw [List.countP_cons, hfirst] at hcount
      simp only [decide_eq_true_eq] at hcount
      omega
    | closeDraft k =>
      simpa [Op.releases] using h.releases id s (getElem?_of_closeDraft hs)
    | _ => cases hdrop

/-- Whoever drops everything, in whatever order, gets the whole allowance back. -/
theorem Sound.used_of_drops {g : Gallery} (h : g.Sound) {ops : List Op} (hdrops : g.Drops ops) :
    (g.run ops).used = 0 := by
  induction ops generalizing g with
  | nil =>
    refine h.toBalanced.used_eq_zero h.kept (fun k => ?_) fun id s hs => ?_
    · refine Std.ExtTreeMap.getElem?_eq_none fun hk => ?_
      obtain ⟨op, hop, -⟩ := hdrops.closes k hk
      cases hop
    · exact Nat.le_zero.1 (hdrops.releases id s hs)
  | cons op rest ih => exact ih (h.after op).1 hdrops.after

end Gallery

end ScriptWarden.Texture
