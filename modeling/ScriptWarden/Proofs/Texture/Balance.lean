import Mathlib.Data.List.Nodup
import ScriptWarden.Proofs.Texture.Total
import ScriptWarden.Texture.Gallery
set_option autoImplicit false

/-!
# Texture: balance

What the images and the drafts of a gallery have to pay for, and the invariant that the account of the
gallery holds exactly that (`Balanced`).  Each operation of the gallery has a lemma that it keeps the
invariant and one with what it adds to the account and takes from it.
-/

namespace ScriptWarden.Texture

/-! ## Cells -/

namespace Rect

theorem nodup_span (low high : Int) (size : Nat) : (span low high size).Nodup := by
  simp [span, List.nodup_range']

/-- The cells of a rectangle are distinct. -/
theorem nodup_clipped (r : Rect) (width height : Nat) : (r.clipped width height).Nodup := by
  refine List.nodup_flatMap.2 ⟨fun y _ => ?_, ?_⟩
  · refine (nodup_span r.minX r.maxX width).map ?_
    intro x x' h
    exact congrArg Position.x h
  · refine (nodup_span r.minY r.maxY height).imp ?_
    intro y y' hne p hp hp'
    obtain ⟨x, -, rfl⟩ := List.mem_map.1 hp
    obtain ⟨x', -, h⟩ := List.mem_map.1 hp'
    exact hne (congrArg Position.y h).symm

theorem nodup_clippedEllipse (r : Rect) (width height : Nat) :
    (r.clippedEllipse width height).Nodup :=
  (r.nodup_clipped width height).filter _

end Rect

/-- Distinct cells grow the pending ones by as many as were not pending. -/
theorem size_foldl_insert (cells : List Position) (c : Color) (hnodup : cells.Nodup)
    (m : Std.ExtTreeMap Position Color) :
    (cells.foldl (fun m p => m.insert p c) m).size
      = m.size + cells.countP fun p => !m.contains p := by
  induction cells generalizing m with
  | nil => simp
  | cons p rest ih =>
    obtain ⟨hp, hrest⟩ := List.nodup_cons.1 hnodup
    have hsame : rest.countP (fun q => !(m.insert p c).contains q)
        = rest.countP fun q => !m.contains q := by
      refine List.countP_congr fun q hq => ?_
      have hne : p ≠ q := fun h => hp (h ▸ hq)
      simp [Std.ExtTreeMap.contains_insert, hne]
    rw [List.foldl_cons, ih hrest, hsame, List.countP_cons, Std.ExtTreeMap.size_insert]
    cases m.contains p with
    | true => simp
    | false =>
      simp only [Bool.false_eq_true, Bool.not_false, if_true, if_false]
      omega

/-! ## Costs -/

/-- What an image pays. -/
def Slot.cost (s : Slot) : Nat := if s.charged then s.image.area else 0

namespace Gallery

/-- What a draft pays for some cells. -/
def charge (g : Gallery) (d : Draft) (cells : Nat) : Nat := if g.isCharged d then cells else 0

/-- What a draft pays for its pending cells. -/
def draftCost (g : Gallery) (d : Draft) : Nat := g.charge d d.pending.size

/-- What all images and drafts pay: the pixels of the charged images that live, and the pending cells of
the drafts that are open on such images. -/
def held (g : Gallery) : Nat := total g.slots Slot.cost + total g.drafts g.draftCost

theorem charge_mono (g : Gallery) (d : Draft) {m n : Nat} (h : m ≤ n) :
    g.charge d m ≤ g.charge d n := by
  unfold charge
  split <;> omega

theorem charge_add (g : Gallery) (d : Draft) (m n : Nat) :
    g.charge d (m + n) = g.charge d m + g.charge d n := by
  unfold charge
  split <;> rfl

/-- Who pays depends on the target alone. -/
theorem charge_congr {g g' : Gallery} {d d' : Draft}
    (h : (g'.slots[d'.target]?.map (·.charged)) = g.slots[d.target]?.map (·.charged)) (n : Nat) :
    g'.charge d' n = g.charge d n := by
  have hany : ∀ o : Option Slot, o.any (·.charged) = (o.map (·.charged)).getD false := by
    intro o
    cases o <;> rfl
  simp only [charge, isCharged, hany, h]

theorem isDrafted_iff (g : Gallery) (id : Nat) :
    g.isDrafted id ↔ ∃ (k : Nat) (d : Draft), g.drafts[k]? = some d ∧ d.target = id := by
  simp [isDrafted]

/-! ## The invariant -/

/-- The account holds what images and drafts pay, within the allowance; every draft has its image, and
numbers to come are new. -/
structure Balanced (g : Gallery) : Prop where
  used_eq : g.used = g.held
  used_le : g.used ≤ g.limit
  target_mem : ∀ (k : Nat) (d : Draft), g.drafts[k]? = some d → d.target ∈ g.slots
  slot_lt : ∀ id ∈ g.slots, id < g.next
  draft_lt : ∀ k ∈ g.drafts, k < g.next

/-- An image that lives has a holder or a draft. -/
def Kept (g : Gallery) (id : Nat) : Prop :=
  ∀ s, g.slots[id]? = some s → 0 < s.holders ∨ g.isDrafted id

theorem balanced_empty (limit : Nat) : Balanced (.empty limit) where
  used_eq := rfl
  used_le := Nat.zero_le _
  target_mem := by simp [empty]
  slot_lt := by simp [empty]
  draft_lt := by simp [empty]

theorem kept_empty (limit id : Nat) : Kept (.empty limit) id := by
  simp [Kept, empty]

/-- Without drafts and holders there is nothing left to pay. -/
theorem Balanced.used_eq_zero {g : Gallery} (h : g.Balanced) (hkept : ∀ id, g.Kept id)
    (hdrafts : ∀ k : Nat, g.drafts[k]? = none)
    (hholders : ∀ (id : Nat) (s : Slot), g.slots[id]? = some s → s.holders = 0) : g.used = 0 := by
  have hslots : total g.slots Slot.cost = 0 := by
    refine total_eq_zero fun id s hs => ?_
    rcases hkept id s hs with hpos | hdrafted
    · exact absurd (hholders id s hs) (Nat.ne_of_gt hpos)
    · obtain ⟨k, d, hd, -⟩ := (g.isDrafted_iff id).1 hdrafted
      rw [hdrafts k] at hd
      cases hd
  have hpending : total g.drafts g.draftCost = 0 := by
    refine total_eq_zero fun k d hd => ?_
    rw [hdrafts k] at hd
    cases hd
  rw [h.used_eq, held, hslots, hpending]

/-! ## Images -/

/-- A change of an image that keeps its pixels and who pays for them. -/
theorem Balanced.modify {g : Gallery} (h : g.Balanced) {id : Nat} {f : Slot → Slot}
    (hf : ∀ s, g.slots[id]? = some s →
      (f s).charged = s.charged ∧ (f s).image.area = s.image.area) :
    Balanced { g with slots := g.slots.modify id f } := by
  have hslots : total (g.slots.modify id f) Slot.cost = total g.slots Slot.cost := by
    refine total_modify fun s hs => ?_
    obtain ⟨hcharged, harea⟩ := hf s hs
    rw [Slot.cost, Slot.cost, hcharged, harea]
  have hcharge : ∀ d : Draft, draftCost { g with slots := g.slots.modify id f } d = g.draftCost d := by
    intro d
    refine charge_congr ?_ _
    simp only [Std.ExtTreeMap.getElem?_modify, Nat.compare_eq_eq]
    split
    · next heq =>
      subst heq
      cases hs : g.slots[d.target]? with
      | none => rfl
      | some s => simp [(hf s hs).1]
    · rfl
  refine ⟨?_, h.used_le, ?_, ?_, h.draft_lt⟩
  · rw [held, hslots, total_congr fun _ d _ => hcharge d]
    exact h.used_eq
  · intro k d hd
    exact Std.ExtTreeMap.mem_modify.2 (h.target_mem k d hd)
  · intro id' hid
    exact h.slot_lt id' (Std.ExtTreeMap.mem_modify.1 hid)

/-- A new image; if it is charged the account has grown by its pixels. -/
theorem Balanced.insert {g : Gallery} (h : g.Balanced) (image : Image) (charged : Bool) {used : Nat}
    (hused : used = g.used + Slot.cost ⟨image, charged, 1⟩) (hle : used ≤ g.limit) :
    Balanced (Gallery.insert { g with used } image charged).2 := by
  have hfresh : g.slots[g.next]? = none := by
    refine Std.ExtTreeMap.getElem?_eq_none fun hmem => ?_
    exact Nat.lt_irrefl _ (h.slot_lt _ hmem)
  have hslots := total_insert g.slots Slot.cost g.next ⟨image, charged, 1⟩
  rw [weightAt_none hfresh, Nat.add_zero] at hslots
  have hcharge : ∀ (k : Nat) (d : Draft), g.drafts[k]? = some d →
      draftCost (Gallery.insert { g with used } image charged).2 d = g.draftCost d := by
    intro k d hd
    refine charge_congr ?_ _
    have hne : g.next ≠ d.target := by
      intro heq
      exact Nat.lt_irrefl _ (h.slot_lt _ (heq ▸ h.target_mem k d hd))
    simp [Gallery.insert, Std.ExtTreeMap.getElem?_insert, hne]
  refine ⟨?_, hle, ?_, ?_, ?_⟩
  · refine hused.trans ?_
    rw [h.used_eq, held, Nat.add_right_comm, ← hslots, ← total_congr hcharge]
    rfl
  · intro k d hd
    exact Std.ExtTreeMap.mem_insert.2 (Or.inr (h.target_mem k d hd))
  · intro id hid
    rcases Std.ExtTreeMap.mem_insert.1 hid with heq | hmem
    · exact Nat.lt_succ_of_le (Nat.le_of_eq (Nat.compare_eq_eq.1 heq).symm)
    · exact Nat.lt_succ_of_lt (h.slot_lt id hmem)
  · intro k hk
    exact Nat.lt_succ_of_lt (h.draft_lt k hk)

/-! ## Sweeping -/

/-- What removing an image gives back, if nobody keeps it alive. -/
def swept (g : Gallery) (id : Nat) : Nat :=
  match g.slots[id]? with
  | some s => if s.holders = 0 && !g.isDrafted id then s.cost else 0
  | none => 0

/-- Either the image stays, or it goes and gives back what it paid. -/
theorem sweep_cases (g : Gallery) (id : Nat) :
    (g.sweep id = g ∧ g.swept id = 0 ∧ g.Kept id) ∨
    ∃ s, g.slots[id]? = some s ∧ g.isDrafted id = false ∧ g.swept id = s.cost ∧
      g.sweep id = { g with slots := g.slots.erase id, used := g.used - s.cost } := by
  cases hs : g.slots[id]? with
  | none => exact .inl ⟨by simp [sweep, hs], by simp [swept, hs], by simp [Kept, hs]⟩
  | some s =>
    by_cases hgone : s.holders = 0 ∧ g.isDrafted id = false
    · refine .inr ⟨s, rfl, hgone.2, by simp [swept, hs, hgone], ?_⟩
      by_cases hcharged : s.charged
      · simp [sweep, hs, hgone, refund, Slot.cost, hcharged]
      · simp [sweep, hs, hgone, Slot.cost, hcharged]
    · have hguard : (s.holders = 0 && !g.isDrafted id) = false := by simpa using hgone
      refine .inl ⟨by simp [sweep, hs, hguard], by simp [swept, hs, hguard], ?_⟩
      intro s' hs'
      obtain rfl : s = s' := Option.some.inj (hs.symm.trans hs')
      by_cases hholders : s.holders = 0
      · exact .inr (by simpa [hholders] using hgone)
      · exact .inl (Nat.pos_of_ne_zero hholders)

theorem Balanced.sweep {g : Gallery} (h : g.Balanced) (id : Nat) :
    (g.sweep id).Balanced ∧ (g.sweep id).used + g.swept id = g.used := by
  rcases g.sweep_cases id with ⟨hsame, hzero, -⟩ | ⟨s, hs, hundrafted, hswept, hsweep⟩
  · rw [hsame, hzero]
    exact ⟨h, rfl⟩
  · have hne : ∀ (k : Nat) (d : Draft), g.drafts[k]? = some d → id ≠ d.target := by
      intro k d hd heq
      have hdrafted := (g.isDrafted_iff id).2 ⟨k, d, hd, heq.symm⟩
      rw [hundrafted] at hdrafted
      cases hdrafted
    have hslots := total_eq_erase g.slots Slot.cost id
    rw [weightAt_some hs] at hslots
    have hpending : total g.drafts (draftCost (g.sweep id)) = total g.drafts g.draftCost := by
      refine total_congr fun k d hd => charge_congr ?_ _
      rw [hsweep]
      simp [Std.ExtTreeMap.getElem?_erase, hne k d hd]
    have hheld := h.used_eq
    rw [held] at hheld
    rw [hsweep] at hpending ⊢
    rw [hswept]
    refine ⟨⟨?_, ?_, ?_, ?_, h.draft_lt⟩, ?_⟩
    · rw [held, hpending]
      simp only
      omega
    · exact Nat.le_trans (Nat.sub_le _ _) h.used_le
    · intro k d hd
      refine Std.ExtTreeMap.mem_erase.2 ⟨?_, h.target_mem k d hd⟩
      exact fun heq => hne k d hd (Nat.compare_eq_eq.1 heq)
    · intro id' hid
      exact h.slot_lt id' (Std.ExtTreeMap.mem_of_mem_erase hid)
    · simp only
      omega

theorem drafts_sweep (g : Gallery) (id : Nat) : (g.sweep id).drafts = g.drafts := by
  rcases g.sweep_cases id with ⟨hsame, -⟩ | ⟨s, -, -, -, hsweep⟩
  · rw [hsame]
  · rw [hsweep]

theorem limit_sweep (g : Gallery) (id : Nat) : (g.sweep id).limit = g.limit := by
  rcases g.sweep_cases id with ⟨hsame, -⟩ | ⟨s, -, -, -, hsweep⟩
  · rw [hsame]
  · rw [hsweep]

theorem isDrafted_congr {g g' : Gallery} (h : g'.drafts = g.drafts) (id : Nat) :
    g'.isDrafted id = g.isDrafted id := by
  rw [isDrafted, isDrafted, h]

/-- A sweep keeps other images as they are. -/
theorem getElem?_sweep_ne (g : Gallery) {id id' : Nat} (h : id ≠ id') :
    (g.sweep id).slots[id']? = g.slots[id']? := by
  rcases g.sweep_cases id with ⟨hsame, -⟩ | ⟨s, -, -, -, hsweep⟩
  · rw [hsame]
  · rw [hsweep]
    simp [Std.ExtTreeMap.getElem?_erase, h]

theorem kept_sweep (g : Gallery) (id : Nat) : (g.sweep id).Kept id := by
  rcases g.sweep_cases id with ⟨hsame, -, hkept⟩ | ⟨s, -, -, -, hsweep⟩
  · rwa [hsame]
  · rw [hsweep]
    intro s' hs'
    simp at hs'

theorem kept_sweep_of_kept {g : Gallery} {id id' : Nat} (h : g.Kept id') :
    (g.sweep id).Kept id' := by
  by_cases heq : id = id'
  · exact heq ▸ g.kept_sweep id
  · intro s hs
    rw [getElem?_sweep_ne g heq] at hs
    rw [isDrafted_congr (g.drafts_sweep id)]
    exact h s hs

/-! ## Drafts -/

theorem mem_drafts {g : Gallery} {k : Nat} {d : Draft} (hd : g.drafts[k]? = some d) : k ∈ g.drafts := by
  rw [Std.ExtTreeMap.mem_iff_isSome_getElem?, hd, Option.isSome_some]

/-- A new draft has nothing to pay. -/
theorem Balanced.openDraft {g : Gallery} (h : g.Balanced) {target : Nat} (ht : target ∈ g.slots) :
    (g.openDraft target).2.Balanced := by
  have hfresh : g.drafts[g.next]? = none := by
    refine Std.ExtTreeMap.getElem?_eq_none fun hmem => ?_
    exact Nat.lt_irrefl _ (h.draft_lt _ hmem)
  have hdrafts := total_insert g.drafts g.draftCost g.next { target }
  have hzero : g.draftCost { target } = 0 := by
    simp [draftCost, charge]
  rw [weightAt_none hfresh, hzero] at hdrafts
  refine ⟨?_, h.used_le, ?_, ?_, ?_⟩
  · exact h.used_eq.trans (congrArg (total g.slots Slot.cost + ·) hdrafts.symm)
  · intro k d hd
    simp only [Gallery.openDraft, Std.ExtTreeMap.getElem?_insert, Nat.compare_eq_eq] at hd
    split at hd
    · cases hd
      exact ht
    · exact h.target_mem k d hd
  · intro id hid
    exact Nat.lt_succ_of_lt (h.slot_lt id hid)
  · intro k hk
    rcases Std.ExtTreeMap.mem_insert.1 hk with heq | hmem
    · exact Nat.lt_succ_of_le (Nat.le_of_eq (Nat.compare_eq_eq.1 heq).symm)
    · exact Nat.lt_succ_of_lt (h.draft_lt k hmem)

/-- Other pending cells for a draft, and an account that has grown or shrunk with them. -/
theorem Balanced.setPending {g : Gallery} (h : g.Balanced) {k used : Nat} {d : Draft}
    {pending : Std.ExtTreeMap Position Color} (hd : g.drafts[k]? = some d)
    (hused : used + g.draftCost d = g.used + g.charge d pending.size) (hle : used ≤ g.limit) :
    Balanced { g with used, drafts := g.drafts.insert k { d with pending } } := by
  have hdrafts := total_insert g.drafts g.draftCost k { d with pending }
  have hcost : g.draftCost { d with pending } = g.charge d pending.size := rfl
  rw [weightAt_some hd, hcost] at hdrafts
  refine ⟨?_, hle, ?_, h.slot_lt, ?_⟩
  · have hheld := h.used_eq
    rw [held] at hheld
    have hsame : held { g with used, drafts := g.drafts.insert k { d with pending } }
        = total g.slots Slot.cost + total (g.drafts.insert k { d with pending }) g.draftCost := rfl
    rw [hsame]
    simp only
    omega
  · intro k' d' hd'
    simp only [Std.ExtTreeMap.getElem?_insert, Nat.compare_eq_eq] at hd'
    split at hd'
    · cases hd'
      exact h.target_mem k d hd
    · exact h.target_mem k' d' hd'
  · intro k' hk'
    rcases Std.ExtTreeMap.mem_insert.1 hk' with heq | hmem
    · exact Nat.compare_eq_eq.1 heq ▸ h.draft_lt k (mem_drafts hd)
    · exact h.draft_lt k' hmem

/-- A draft goes, and the account has shrunk by what it paid. -/
theorem Balanced.eraseDraft {g : Gallery} (h : g.Balanced) {k used : Nat} {d : Draft}
    (hd : g.drafts[k]? = some d) (hused : used + g.draftCost d = g.used) :
    Balanced { g with used, drafts := g.drafts.erase k } := by
  have hdrafts := total_eq_erase g.drafts g.draftCost k
  rw [weightAt_some hd] at hdrafts
  refine ⟨?_, ?_, ?_, h.slot_lt, ?_⟩
  · have hheld := h.used_eq
    rw [held] at hheld
    have hsame : held { g with used, drafts := g.drafts.erase k }
        = total g.slots Slot.cost + total (g.drafts.erase k) g.draftCost := rfl
    rw [hsame]
    simp only
    omega
  · have hle := h.used_le
    simp only
    omega
  · intro k' d' hd'
    simp only [Std.ExtTreeMap.getElem?_erase] at hd'
    split at hd'
    · cases hd'
    · exact h.target_mem k' d' hd'
  · intro k' hk'
    exact h.draft_lt k' (Std.ExtTreeMap.mem_of_mem_erase hk')

theorem refundCells_eq (g : Gallery) (d : Draft) (cells : Nat) :
    g.refundCells d cells = { g with used := g.used - g.charge d cells } := by
  unfold refundCells refund charge
  split <;> rfl

/-- No draft pays for more cells than the account holds. -/
theorem Balanced.charge_le {g : Gallery} (h : g.Balanced) {k : Nat} {d : Draft}
    (hd : g.drafts[k]? = some d) {cells : Nat} (hcells : cells ≤ d.pending.size) :
    g.charge d cells ≤ g.used := by
  have hcost : g.charge d d.pending.size ≤ total g.drafts g.draftCost :=
    weight_le_total g.draftCost hd
  have hmono := g.charge_mono d hcells
  rw [h.used_eq, held]
  omega

/-! ## Operations -/

/-- A balanced gallery in which no image outlives its holders and drafts. -/
structure Sound (g : Gallery) : Prop extends Balanced g where
  kept : ∀ id, g.Kept id

/-- A sound gallery follows another; the account took some pixels and gave some back in between. -/
structure Step (g : Gallery) (taken given : Nat) (g' : Gallery) : Prop where
  sound : g'.Sound
  ledger : g'.used + given = g.used + taken
  limit_eq : g'.limit = g.limit

theorem sound_empty (limit : Nat) : Sound (.empty limit) where
  toBalanced := balanced_empty limit
  kept := kept_empty limit

theorem Sound.refl {g : Gallery} (h : g.Sound) : Step g 0 0 g := ⟨h, rfl, rfl⟩

theorem Sound.editImage {g : Gallery} (h : g.Sound) {id : Nat} {image image' : Image}
    (himage : g.image? id = some image) (harea : image'.area = image.area) :
    Step g 0 0 (g.editImage id fun _ => image') := by
  refine ⟨⟨h.modify fun s hs => ⟨rfl, ?_⟩, ?_⟩, rfl, rfl⟩
  · rw [image?, hs, Option.map_some] at himage
    rw [Option.some.inj himage]
    exact harea
  · intro id' s' hs'
    simp only [Gallery.editImage, Std.ExtTreeMap.getElem?_modify, Nat.compare_eq_eq] at hs'
    split at hs'
    · obtain ⟨s, hs, rfl⟩ := Option.map_eq_some_iff.1 hs'
      exact h.kept id' s (by rwa [← ‹id = id'›])
    · exact h.kept id' s' hs'

theorem Sound.hold {g : Gallery} (h : g.Sound) (id : Nat) : Step g 0 0 (g.hold id) := by
  refine ⟨⟨h.modify fun s _ => ⟨rfl, rfl⟩, ?_⟩, rfl, rfl⟩
  intro id' s' hs'
  simp only [Gallery.hold, Std.ExtTreeMap.getElem?_modify, Nat.compare_eq_eq] at hs'
  split at hs'
  · obtain ⟨s, -, rfl⟩ := Option.map_eq_some_iff.1 hs'
    exact .inl (Nat.succ_pos _)
  · exact h.kept id' s' hs'

/-- The gallery in the middle of `release`, before the sweep. -/
def dropHolder (g : Gallery) (id : Nat) : Gallery :=
  { g with slots := g.slots.modify id fun s => { s with holders := s.holders - 1 } }

theorem Sound.release {g : Gallery} (h : g.Sound) (id : Nat) :
    Step g 0 ((g.dropHolder id).swept id) (g.release id) := by
  have hbalanced : (g.dropHolder id).Balanced := h.modify fun s _ => ⟨rfl, rfl⟩
  obtain ⟨hafter, hledger⟩ := hbalanced.sweep id
  refine ⟨⟨hafter, ?_⟩, hledger, (g.dropHolder id).limit_sweep id⟩
  intro id'
  by_cases heq : id = id'
  · exact heq ▸ (g.dropHolder id).kept_sweep id
  · refine kept_sweep_of_kept fun s hs => ?_
    simp only [Std.ExtTreeMap.getElem?_modify, Nat.compare_eq_eq, heq, if_false] at hs
    exact h.kept id' s hs

theorem Sound.insert {g : Gallery} (h : g.Sound) (image : Image) (charged : Bool)
    (hle : g.used + Slot.cost ⟨image, charged, 1⟩ ≤ g.limit) :
    Step g (Slot.cost ⟨image, charged, 1⟩) 0
      (Gallery.insert { g with used := g.used + Slot.cost ⟨image, charged, 1⟩ } image charged).2 := by
  refine ⟨⟨h.toBalanced.insert image charged rfl hle, ?_⟩, rfl, rfl⟩
  intro id s hs
  simp only [Gallery.insert, Std.ExtTreeMap.getElem?_insert, Nat.compare_eq_eq] at hs
  split at hs
  · cases hs
    exact .inl Nat.one_pos
  · exact h.kept id s hs

/-- An image is made exactly when its pixels fit. -/
theorem create_eq (g : Gallery) (name : String) (width height : Nat) :
    g.create name width height =
      if g.used + width * height ≤ g.limit then
        .ok (Gallery.insert { g with used := g.used + width * height } (.blank name width height) true)
      else .error (.exhausted (width * height) g.used g.limit) := by
  unfold create reserve
  split <;> rfl

theorem Sound.openDraft {g : Gallery} (h : g.Sound) {target : Nat} (ht : target ∈ g.slots) :
    Step g 0 0 (g.openDraft target).2 := by
  refine ⟨⟨h.toBalanced.openDraft ht, ?_⟩, rfl, rfl⟩
  intro id s hs
  rcases h.kept id s hs with hholders | hdrafted
  · exact .inl hholders
  · obtain ⟨k, d, hd, htarget⟩ := (g.isDrafted_iff id).1 hdrafted
    refine .inr ((isDrafted_iff _ id).2 ⟨k, d, ?_, htarget⟩)
    have hne : g.next ≠ k := Nat.ne_of_gt (h.draft_lt k (mem_drafts hd))
    simp [Gallery.openDraft, Std.ExtTreeMap.getElem?_insert, hne, hd]

/-- Other pending cells for a draft, with what they took from the account or gave back. -/
theorem Sound.setPending {g : Gallery} (h : g.Sound) {k used taken given : Nat} {d : Draft}
    {pending : Std.ExtTreeMap Position Color} (hd : g.drafts[k]? = some d)
    (hledger : used + given = g.used + taken)
    (hcells : g.charge d pending.size + given = g.draftCost d + taken) (hle : used ≤ g.limit) :
    Step g taken given { g with used, drafts := g.drafts.insert k { d with pending } } := by
  refine ⟨⟨h.toBalanced.setPending hd (by omega) hle, ?_⟩, hledger, rfl⟩
  intro id s hs
  rcases h.kept id s hs with hholders | hdrafted
  · exact .inl hholders
  · obtain ⟨k', d', hd', htarget⟩ := (g.isDrafted_iff id).1 hdrafted
    refine .inr ((isDrafted_iff _ id).2 ?_)
    by_cases heq : k = k'
    · obtain rfl : d = d' := by
        rw [heq, hd'] at hd
        exact (Option.some.inj hd).symm
      exact ⟨k, { d with pending }, by simp, htarget⟩
    · exact ⟨k', d', by simp [Std.ExtTreeMap.getElem?_insert, heq, hd'], htarget⟩

/-- What queueing cells adds to the account: those that are not pending yet, if the draft pays. -/
def fresh (g : Gallery) (draft : Nat) (cells : List Position) : Nat :=
  match g.drafts[draft]? with
  | some d => g.charge d (cells.countP fun p => !d.pending.contains p)
  | none => 0

/-- Distinct cells are queued if the fresh ones fit. -/
theorem Sound.queue_ok {g : Gallery} (h : g.Sound) {k : Nat} {cells : List Position} (c : Color)
    (hnodup : cells.Nodup) (hfits : g.used + g.fresh k cells ≤ g.limit) :
    ∃ n g', g.queue k cells c = .ok (n, g') ∧ Step g (g.fresh k cells) 0 g' := by
  cases hd : g.drafts[k]? with
  | none =>
    refine ⟨0, g, by simp [queue, hd], ?_⟩
    rw [fresh, hd]
    exact h.refl
  | some d =>
    let pending := cells.foldl (fun m p => m.insert p c) d.pending
    refine ⟨cells.length,
      { g with used := g.used + g.fresh k cells, drafts := g.drafts.insert k { d with pending } },
      ?_, h.setPending hd rfl ?_ hfits⟩
    · simp only [fresh, hd, charge] at hfits ⊢
      by_cases hcharged : g.isCharged d
      · rw [if_pos hcharged] at hfits ⊢
        by_cases hpos : 0 < cells.countP fun p => !d.pending.contains p
        · simp [queue, hd, hcharged, hpos, reserve, hfits, pending]
        · simp [queue, hd, hcharged, Nat.eq_zero_of_not_pos hpos, pending]
      · simp [queue, hd, hcharged, pending]
    · rw [size_foldl_insert cells c hnodup, charge_add, fresh, hd]
      rfl

/-- Cells whose fresh ones do not fit are refused, with the numbers of the account. -/
theorem Sound.queue_error {g : Gallery} (h : g.Sound) {k : Nat} {cells : List Position} (c : Color)
    (hfull : g.limit < g.used + g.fresh k cells) :
    g.queue k cells c = .error (.exhausted (g.fresh k cells) g.used g.limit) := by
  have hle := h.used_le
  cases hd : g.drafts[k]? with
  | none =>
    simp only [fresh, hd] at hfull
    omega
  | some d =>
    simp only [fresh, hd, charge] at hfull ⊢
    split at hfull
    · next hcharged =>
      have hpos : 0 < cells.countP fun p => !d.pending.contains p := by omega
      simp [queue, hd, hcharged, hpos, reserve, Nat.not_le.2 hfull]
    · omega

/-- What dropping pending cells gives back. -/
def dropped (g : Gallery) (draft : Nat) (keep : Position → Bool) : Nat :=
  match g.drafts[draft]? with
  | some d => g.charge d (d.pending.size - (d.pending.filter fun p _ => keep p).size)
  | none => 0

theorem Sound.retain {g : Gallery} (h : g.Sound) (k : Nat) (keep : Position → Bool) :
    Step g 0 (g.dropped k keep) (g.retain k keep).2 := by
  cases hd : g.drafts[k]? with
  | none =>
    rw [Gallery.retain, hd, dropped, hd]
    exact h.refl
  | some d =>
    have hsize : (d.pending.filter fun p _ => keep p).size ≤ d.pending.size :=
      Std.ExtTreeMap.size_filter_le_size
    have hcharge := h.charge_le hd (Nat.sub_le d.pending.size
      (d.pending.filter fun p _ => keep p).size)
    have hsum : g.charge d (d.pending.filter fun p _ => keep p).size
        + g.charge d (d.pending.size - (d.pending.filter fun p _ => keep p).size)
        = g.draftCost d := by
      rw [← charge_add, Nat.add_sub_cancel' hsize, draftCost]
    simp only [Gallery.retain, hd, dropped, refundCells_eq]
    exact h.setPending hd (Nat.sub_add_cancel hcharge) hsum
      (Nat.le_trans (Nat.sub_le _ _) h.used_le)

/-- What a draft pays for all its pending cells. -/
def pendingCost (g : Gallery) (draft : Nat) : Nat := g.drafts[draft]?.elim 0 g.draftCost

theorem Sound.takePending {g : Gallery} (h : g.Sound) (k : Nat) :
    Step g 0 (g.pendingCost k) (g.takePending k).2 := by
  cases hd : g.drafts[k]? with
  | none =>
    rw [Gallery.takePending, hd, pendingCost, hd]
    exact h.refl
  | some d =>
    have hcharge : g.draftCost d ≤ g.used := h.charge_le hd (Nat.le_refl _)
    simp only [Gallery.takePending, hd, pendingCost, refundCells_eq, Option.elim_some]
    refine h.setPending hd (Nat.sub_add_cancel hcharge) ?_ (Nat.le_trans (Nat.sub_le _ _) h.used_le)
    simp [charge]

/-- The gallery in the middle of `closeDraft`, before the sweep. -/
def dropDraft (g : Gallery) (k : Nat) (d : Draft) : Gallery :=
  { g with used := g.used - g.draftCost d, drafts := g.drafts.erase k }

/-- What closing a draft gives back: the pay of its cells, and that of its image if nobody else keeps
it alive. -/
def closed (g : Gallery) (k : Nat) : Nat :=
  g.drafts[k]?.elim 0 fun d => g.draftCost d + (g.dropDraft k d).swept d.target

theorem Sound.closeDraft {g : Gallery} (h : g.Sound) (k : Nat) :
    Step g 0 (g.closed k) (g.closeDraft k) := by
  cases hd : g.drafts[k]? with
  | none =>
    rw [Gallery.closeDraft, hd, closed, hd]
    exact h.refl
  | some d =>
    have hcharge : g.draftCost d ≤ g.used := h.charge_le hd (Nat.le_refl _)
    have hclose : g.closeDraft k = (g.dropDraft k d).sweep d.target := by
      simp only [Gallery.closeDraft, hd, refundCells_eq]
      rfl
    obtain ⟨hbalanced, hledger⟩ :=
      (h.toBalanced.eraseDraft hd (Nat.sub_add_cancel hcharge)).sweep d.target
    refine ⟨⟨hclose ▸ hbalanced, ?_⟩, ?_, hclose ▸ limit_sweep _ _⟩
    · intro id
      rw [hclose]
      by_cases heq : d.target = id
      · exact heq ▸ kept_sweep _ _
      · refine kept_sweep_of_kept fun s hs => ?_
        rcases h.kept id s hs with hholders | hdrafted
        · exact .inl hholders
        · obtain ⟨k', d', hd', htarget⟩ := (g.isDrafted_iff id).1 hdrafted
          refine .inr ((isDrafted_iff _ id).2 ⟨k', d', ?_, htarget⟩)
          have hne : k ≠ k' := by
            rintro rfl
            obtain rfl : d = d' := Option.some.inj (hd.symm.trans hd')
            exact heq htarget
          simp [dropDraft, Std.ExtTreeMap.getElem?_erase, hne, hd']
    · rw [hclose, closed, hd, Option.elim_some]
      simp only [dropDraft] at hledger ⊢
      omega

end Gallery

end ScriptWarden.Texture
