import ScriptWarden.Proofs.Texture.Board
set_option autoImplicit false

/-!
# Texture: acts of a gallery

Each act of a board is an operation of the gallery or a question to it, with its answer (`Gallery.respond`), and what
can be seen of a gallery is a board (`Gallery.board`).  What the gallery keeps besides, the account and who holds an
image, is not seen; what is seen changes at the images and drafts that an operation is about.
-/

namespace ScriptWarden.Texture

open Gallery (Op)

/-! ## Counting positions -/

theorem counts_countP (m : Std.ExtTreeMap Position Color) (P : Position → Prop) [DecidablePred P] :
    Counts (m.toList.countP fun e => P e.1) fun p => P p ∧ (m[p]?).isSome := by
  refine ⟨(m.keys.filter fun p => P p), (Std.ExtTreeMap.nodup_keys).filter _, fun p => ?_, ?_⟩
  · rw [List.mem_filter, decide_eq_true_iff, Std.ExtTreeMap.mem_keys, Std.ExtTreeMap.mem_iff_isSome_getElem?, and_comm]
  · rw [← Std.ExtTreeMap.map_fst_toList_eq_keys, List.filter_map, List.length_map, List.countP_eq_length_filter]
    rfl

theorem Counts.congr {n : Nat} {P P' : Position → Prop} (h : Counts n P) (hP : ∀ p, P p ↔ P' p) : Counts n P' := by
  obtain ⟨cells, hnodup, hmem, hlength⟩ := h
  exact ⟨cells, hnodup, fun p => (hmem p).trans (hP p), hlength⟩

/-- As many cells are dropped as were pending among those that are not kept. -/
theorem counts_dropped (m : Std.ExtTreeMap Position Color) (P : Position → Prop) [DecidablePred P]
    {keep : Position → Bool} (hkeep : ∀ p, keep p = false ↔ P p) :
    Counts (m.size - (m.filter fun p _ => keep p).size) fun p => P p ∧ (m[p]?).isSome := by
  have hdropped : m.size - (m.filter fun p _ => keep p).size = m.toList.countP fun e => P e.1 := by
    have hsplit := List.length_eq_countP_add_countP (fun e : Position × Color => keep e.1) (l := m.toList)
    have hdrop : m.toList.countP (fun e => decide ¬ keep e.1 = true) = m.toList.countP fun e => P e.1 :=
      List.countP_congr fun e _ => by simp [← hkeep e.1]
    rw [← Std.ExtTreeMap.length_toList, ← Std.ExtTreeMap.length_toList, Std.ExtTreeMap.toList_filter,
      ← List.countP_eq_length_filter]
    omega
  rw [hdropped]
  exact counts_countP m P

theorem Counts.ne_zero_iff {n : Nat} {p : Position} {P : Position → Prop} (h : Counts n fun q => q = p ∧ P q) :
    n ≠ 0 ↔ P p := by
  obtain ⟨cells, -, hmem, rfl⟩ := h
  rw [Nat.ne_zero_iff_zero_lt, List.length_pos_iff_exists_mem]
  constructor
  · rintro ⟨q, hq⟩
    obtain ⟨rfl, hP⟩ := (hmem q).1 hq
    exact hP
  · exact fun hP => ⟨p, (hmem p).2 ⟨rfl, hP⟩⟩

/-! ## Acts of a gallery -/

/-- The image after a write, with the answer. -/
def Image.respond (i : Image) : Image.Write → Except Fault (Reply × Image)
  | .set x y c => (Reply.done, ·) <$> i.set x y c
  | .fill x y width height c => (Reply.done, ·) <$> i.fill x y width height c
  | .apply edits => .ok (.count (i.apply edits).1, (i.apply edits).2)
  | .mark dirty => .ok (.done, { i with dirty })

/-- The pending cells of a draft. -/
def Draft.sheet (d : Draft) : Sheet := ⟨d.target, fun p => d.pending[p]?⟩

namespace Gallery

/-- What can be seen of a gallery. -/
def board (g : Gallery) : Board where
  canvas id := (g.image? id).map Image.canvas
  sheet k := g.drafts[k]?.map Draft.sheet

/-- The gallery after an act, with the answer.  Nothing is done with an image that is gone. -/
def respond (g : Gallery) : Act → Except Fault (Reply × Gallery)
  | .change (.create name width height) => (fun r => (.made r.1, r.2)) <$> g.create name width height
  | .change (.adopt image) => .ok (.made (g.insert image false).1, (g.insert image false).2)
  | .change (.hold id) => .ok (.done, g.hold id)
  | .change (.release id) => .ok (.done, g.release id)
  | .change (.write id w) =>
    match g.image? id with
    | some image => (fun r => (r.1, g.editImage id fun _ => r.2)) <$> image.respond w
    | none => .ok (.done, g)
  | .change (.openDraft target) =>
    .ok (if target ∈ g.slots then (.made (g.openDraft target).1, (g.openDraft target).2) else (.done, g))
  | .change (.closeDraft k) => .ok (.done, g.closeDraft k)
  | .change (.queueCell k x y c) => (Reply.done, ·) <$> g.queueCell k x y c
  | .change (.queueRect k r c) => (fun r => (.count r.1, r.2)) <$> g.queueRect k r c
  | .change (.queueEllipse k r c) => (fun r => (.count r.1, r.2)) <$> g.queueEllipse k r c
  | .change (.cancel k x y) => .ok (.flag (g.cancel k x y).1, (g.cancel k x y).2)
  | .change (.cancelRect k r) => .ok (.count (g.cancelRect k r).1, (g.cancelRect k r).2)
  | .change (.takePending k) => .ok (.edits (g.takePending k).1, (g.takePending k).2)
  | .change (.applyDraft k target) => .ok (.count (g.applyDraft k target).1, (g.applyDraft k target).2)
  | .change (.commit k) => .ok (.count (g.commit k).1, (g.commit k).2)
  | .get id x y =>
    match g.image? id with
    | some image => (Reply.colour ·, g) <$> image.get x y
    | none => .ok (.done, g)
  | .read k x y preferPending => (Reply.colour ·, g) <$> g.read k x y preferPending

/-- What an act answers and what becomes of the gallery; an act that is refused leaves it as it was. -/
def outcome (g : Gallery) (act : Act) : Except Fault Reply × Gallery :=
  match g.respond act with
  | .ok (reply, g') => (.ok reply, g')
  | .error e => (.error e, g)

/-- The gallery does what a rule of its board says. -/
def Follows (g : Gallery) (act : Act) : Prop :=
  g.board.Does act (g.outcome act).1 (g.outcome act).2.board

section Follows

variable {g : Gallery} {act : Act} {e : Fault}

theorem follows_of_ok (reply : Reply) (g' : Gallery) (h : g.respond act = .ok (reply, g'))
    (hdoes : g.board.Does act (.ok reply) g'.board) :
    g.Follows act := by
  rw [Follows, outcome, h]
  exact hdoes

/-- An act that is never refused. -/
theorem follows_of_eq {α : Type} {f : α → Reply} {out out' : α × Gallery}
    (hrespond : g.respond act = .ok (f out.1, out.2)) (hout : out = out')
    (hdoes : g.board.Does act (.ok (f out'.1)) out'.2.board) : g.Follows act :=
  follows_of_ok _ _ (hout ▸ hrespond) hdoes

theorem follows_of_error (h : g.respond act = .error e) (hwhy : g.board.Refuses act e) : g.Follows act := by
  rw [Follows, outcome, h]
  exact .refused hwhy

/-- Nothing is done with what is not there. -/
theorem follows_of_lacks (hsame : (g.outcome act).2 = g) (hlacks : g.board.Lacks act) : g.Follows act := by
  rw [Follows, hsame]
  exact .absent _ hlacks

end Follows

/-! ## Boards of galleries -/

section Board

variable {g g' : Gallery} {id k : Nat} {image image' : Image} {d : Draft}

theorem board_congr (hslots : ∀ id, g'.image? id = g.image? id) (hdrafts : g'.drafts = g.drafts) :
    g'.board = g.board := by
  unfold board
  simp only [hslots, hdrafts]

theorem canvas_of_image (h : g.image? id = some image) : g.board.canvas id = some image.canvas := by
  change (g.image? id).map _ = _
  rw [h, Option.map_some]

theorem canvas_of_none (h : g.image? id = none) : g.board.canvas id = none := by
  change (g.image? id).map _ = _
  rw [h, Option.map_none]

theorem sheet_of_draft (h : g.drafts[k]? = some d) : g.board.sheet k = some d.sheet := by
  change g.drafts[k]?.map _ = _
  rw [h, Option.map_some]

theorem sheet_of_none (h : g.drafts[k]? = none) : g.board.sheet k = none := by
  change g.drafts[k]?.map _ = _
  rw [h, Option.map_none]

theorem board_editImage (himage : g.image? id = some image) :
    (g.editImage id fun _ => image').board = g.board.setCanvas id (some image'.canvas) := by
  refine Board.ext (funext fun j => ?_) rfl
  unfold Board.setCanvas
  simp only [board, image?, editImage, Std.ExtTreeMap.getElem?_modify, Nat.compare_eq_eq]
  split
  · next heq =>
    subst heq
    obtain ⟨s, hs, -⟩ := Option.map_eq_some_iff.1 himage
    rw [hs]
    rfl
  · rfl

/-- Other pending cells for a draft, whatever they cost. -/
theorem board_setPending (d : Draft) (k used : Nat) (pending : Std.ExtTreeMap Position Color) :
    board { g with used, drafts := g.drafts.insert k { d with pending } } =
      g.board.setSheet k (some ⟨d.target, fun p => pending[p]?⟩) := by
  refine Board.ext rfl (funext fun j => ?_)
  unfold Board.setSheet
  simp only [board, Std.ExtTreeMap.getElem?_insert, Nat.compare_eq_eq]
  split
  · rfl
  · rfl

theorem board_insert (image : Image) (charged : Bool) (used : Nat) :
    (Gallery.insert { g with used } image charged).2.board = g.board.setCanvas g.next (some image.canvas) := by
  refine Board.ext (funext fun j => ?_) rfl
  unfold Board.setCanvas
  simp only [board, image?, Gallery.insert, Std.ExtTreeMap.getElem?_insert, Nat.compare_eq_eq]
  split
  · rfl
  · rfl

theorem board_openDraft (target : Nat) :
    (g.openDraft target).2.board = g.board.setSheet g.next (some ⟨target, fun _ => none⟩) := by
  refine Board.ext rfl (funext fun j => ?_)
  unfold Board.setSheet
  simp only [board, openDraft, Std.ExtTreeMap.getElem?_insert, Nat.compare_eq_eq]
  split
  · have hnone (p : Position) : (∅ : Std.ExtTreeMap Position Color)[p]? = none := Std.ExtTreeMap.getElem?_empty
    exact congrArg (fun pending => some (⟨target, pending⟩ : Sheet)) (funext hnone)
  · rfl

/-- A draft is gone. -/
theorem board_eraseDraft (k used : Nat) :
    board { g with used, drafts := g.drafts.erase k } = g.board.setSheet k none := by
  refine Board.ext rfl (funext fun j => ?_)
  unfold Board.setSheet
  simp only [board, Std.ExtTreeMap.getElem?_erase, Nat.compare_eq_eq]
  split
  · rfl
  · rfl

/-- A sweep removes an image that no draft is open on, or nothing. -/
theorem board_sweep (g : Gallery) (id : Nat) : (g.sweep id).board = g.board ∨
    (∀ k s, g.board.sheet k = some s → s.target ≠ id) ∧ (g.sweep id).board = g.board.setCanvas id none := by
  rcases g.sweep_cases id with ⟨hsame, -⟩ | ⟨slot, -, hundrafted, -, hsweep⟩
  · exact .inl (congrArg board hsame)
  · refine .inr ⟨fun k s hs heq => ?_, ?_⟩
    · obtain ⟨d, hd, rfl⟩ := Option.map_eq_some_iff.1 hs
      have hdrafted : g.isDrafted id := (g.isDrafted_iff id).2 ⟨k, d, hd, heq⟩
      rw [hundrafted] at hdrafted
      cases hdrafted
    · rw [hsweep]
      refine Board.ext (funext fun j => ?_) rfl
      unfold Board.setCanvas
      simp only [board, image?, Std.ExtTreeMap.getElem?_erase, Nat.compare_eq_eq]
      split
      · rfl
      · rfl

end Board

/-! ## Operations without their answers -/

section Perform

variable {g : Gallery}

theorem write_of_respond (i : Image) (w : Image.Write) : (·.2) <$> i.respond w = i.write w := by
  cases w with
  | set x y c =>
    simp only [Image.respond, Image.write]
    cases i.set x y c with
    | ok i' => rfl
    | error e => rfl
  | fill x y width height c =>
    simp only [Image.respond, Image.write]
    cases i.fill x y width height c with
    | ok i' => rfl
    | error e => rfl
  | apply edits => rfl
  | mark dirty => rfl

/-- What is answered has no part in what becomes of a gallery. -/
theorem perform_of_respond (g : Gallery) (op : Op) : (·.2) <$> g.respond (.change op) = g.perform op := by
  have hmap {α : Type} (r : Except Fault (α × Gallery)) (f : α → Reply) :
      (·.2) <$> ((fun r => (f r.1, r.2)) <$> r : Except Fault (Reply × Gallery)) = (·.2) <$> r := by
    cases r with
    | ok r => rfl
    | error e => rfl
  cases op with
  | create name width height => exact hmap (g.create name width height) .made
  | write id w =>
    simp only [respond, perform]
    cases g.image? id with
    | none => rfl
    | some image =>
      simp only [← write_of_respond]
      cases image.respond w with
      | ok r => rfl
      | error e => rfl
  | openDraft target =>
    simp only [respond, perform]
    split
    · rfl
    · rfl
  | queueCell k x y c =>
    simp only [respond, perform]
    cases g.queueCell k x y c with
    | ok g' => rfl
    | error e => rfl
  | queueRect k r c => exact hmap (g.queueRect k r c) .count
  | queueEllipse k r c => exact hmap (g.queueEllipse k r c) .count
  | _ => rfl

theorem outcome_change (g : Gallery) (op : Op) : (g.outcome (.change op)).2 = g.after op := by
  unfold Gallery.outcome Gallery.after
  rw [← perform_of_respond]
  cases g.respond (.change op) with
  | ok r => rfl
  | error e => rfl

theorem outcome_get (g : Gallery) (id : Nat) (x y : Int) : (g.outcome (.get id x y)).2 = g := by
  simp only [outcome, respond]
  cases g.image? id with
  | none => rfl
  | some image =>
    simp only
    cases image.get x y with
    | ok c => rfl
    | error e => rfl

theorem outcome_read (g : Gallery) (k : Nat) (x y : Int) (preferPending : Bool) :
    (g.outcome (.read k x y preferPending)).2 = g := by
  simp only [outcome, respond]
  cases g.read k x y preferPending with
  | ok c => rfl
  | error e => rfl

theorem Sound.outcome (h : g.Sound) (act : Act) : (g.outcome act).2.Sound := by
  cases act with
  | change op =>
    rw [outcome_change]
    exact (h.after op).1
  | get id x y =>
    rw [outcome_get]
    exact h
  | read k x y preferPending =>
    rw [outcome_read]
    exact h

end Perform

end Gallery

end ScriptWarden.Texture
