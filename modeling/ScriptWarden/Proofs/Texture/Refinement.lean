import ScriptWarden.Proofs.Texture.Acts
set_option autoImplicit false

/-!
# Texture: galleries refine boards

What can be seen of a gallery is a board.  Each operation and each question does with it what the rules of boards say
(`follows`), and answers what they say; so every run of a gallery is a run of its board (`gallery_refines_board`).
-/

namespace ScriptWarden.Texture

namespace Gallery

/-! ## Writing -/

section Writing

variable {g : Gallery} {id : Nat} {image image' : Image} {w : Image.Write} {reply : Reply} {e : Fault}

theorem respond_write (himage : g.image? id = some image) (w : Image.Write) :
    g.respond (.change (.write id w)) = (fun r => (r.1, g.editImage id fun _ => r.2)) <$> image.respond w := by
  simp only [respond, himage]

/-- A write that is done. -/
theorem follows_written (himage : g.image? id = some image) (hw : image.respond w = .ok (reply, image'))
    (hdoes : g.board.Does (.change (.write id w)) (.ok reply) (g.board.setCanvas id (some image'.canvas))) :
    g.Follows (.change (.write id w)) := by
  refine follows_of_ok reply (g.editImage id fun _ => image') ?_ ?_
  · rw [respond_write himage, hw]
    rfl
  · rwa [board_editImage himage]

/-- A write that is refused. -/
theorem follows_unwritten (himage : g.image? id = some image) (hw : image.respond w = .error e)
    (hwhy : g.board.Refuses (.change (.write id w)) e) : g.Follows (.change (.write id w)) := by
  refine follows_of_error ?_ hwhy
  rw [respond_write himage, hw]
  rfl

theorem follows_set (himage : g.image? id = some image) (x y : Int) (c : Color) :
    g.Follows (.change (.write id (.set x y c))) := by
  have hv := canvas_of_image himage
  obtain ⟨p, hp⟩ | hbeside := image.canvas.at_or_beside x y
  · refine follows_written himage (congrArg ((Reply.done, ·) <$> ·) (Image.set_of_at hp c)) ?_
    rw [Image.canvas_set]
    exact .set c hv hp
  · exact follows_unwritten himage (congrArg ((Reply.done, ·) <$> ·) (Image.set_of_beside hbeside c))
      (.beside (.set x y c hv) hbeside)

theorem follows_fill (himage : g.image? id = some image) (x y width height : Int) (c : Color) :
    g.Follows (.change (.write id (.fill x y width height c))) := by
  have hv := canvas_of_image himage
  by_cases harea : width ≤ 0 ∨ height ≤ 0
  · refine follows_written himage (congrArg ((Reply.done, ·) <$> ·) (Image.fill_of_empty harea c)) ?_
    rw [Board.setCanvas_self hv]
    exact .fillNothing id x y c harea
  · obtain ⟨p, hp⟩ | hbeside := image.canvas.at_or_beside x y
    · obtain ⟨q, hq⟩ | hbeside := image.canvas.at_or_beside (Image.reach x width) (Image.reach y height)
      · obtain ⟨image', hfill, hcanvas⟩ := Image.fill_of_at harea hp hq c
        refine follows_written himage (congrArg ((Reply.done, ·) <$> ·) hfill) ?_
        rw [hcanvas]
        exact .fill c hv harea hp hq
      · exact follows_unwritten himage (congrArg ((Reply.done, ·) <$> ·) (Image.fill_of_last_beside harea hp hbeside c))
          (.beside (.fillLast x y width height c hv harea) hbeside)
    · exact follows_unwritten himage (congrArg ((Reply.done, ·) <$> ·) (Image.fill_of_first_beside harea hbeside c))
        (.beside (.fillFirst x y width height c hv harea) hbeside)

theorem follows_write (g : Gallery) (id : Nat) (w : Image.Write) : g.Follows (.change (.write id w)) := by
  cases himage : g.image? id with
  | none =>
    refine follows_of_lacks ?_ (canvas_of_none himage)
    simp only [outcome, respond, himage]
  | some image =>
    have hv := canvas_of_image himage
    cases w with
    | set x y c => exact follows_set himage x y c
    | fill x y width height c => exact follows_fill himage x y width height c
    | apply edits =>
      refine follows_written himage rfl ?_
      rw [image.canvas_apply, image.count_apply]
      exact .apply edits hv
    | mark dirty => exact follows_written himage rfl (.mark dirty hv)

end Writing

/-! ## Pending cells -/

theorem getElem?_queued (m : Std.ExtTreeMap Position Color) (cells : List Position) (c : Color) (p : Position) :
    (cells.foldl (fun m p => m.insert p c) m)[p]? = (stroke (· ∈ cells) c p).or m[p]? := by
  induction cells generalizing m with
  | nil => rfl
  | cons q rest ih =>
    rw [List.foldl_cons, ih, Std.ExtTreeMap.getElem?_insert]
    unfold stroke
    by_cases hrest : p ∈ rest
    · rw [if_pos hrest, if_pos (List.mem_cons_of_mem _ hrest), Option.some_or, Option.some_or]
    · by_cases hq : q = p
      · subst hq
        simp [hrest]
      · simp [hrest, hq, Ne.symm hq]

theorem getElem?_kept (m : Std.ExtTreeMap Position Color) (keep : Position → Bool) (p : Position) :
    (m.filter fun p _ => keep p)[p]? = if keep p then m[p]? else none := by
  rw [Std.ExtTreeMap.getElem?_filter']
  cases m[p]? with
  | none => simp
  | some c => simp [Option.filter]

section Drafts

variable {g : Gallery} {k : Nat} {d : Draft}

/-- Cells are queued, or those that are not pending yet do not fit into the allowance. -/
theorem queue_cases (hd : g.drafts[k]? = some d) (cells : List Position) (c : Color) :
    (∃ used, g.queue k cells c = .ok (cells.length, { g with
      used, drafts := g.drafts.insert k { d with pending := cells.foldl (fun m p => m.insert p c) d.pending } })) ∨
    g.limit < g.used + (cells.countP fun p => !d.pending.contains p) ∧
      g.queue k cells c = .error (.exhausted (cells.countP fun p => !d.pending.contains p) g.used g.limit) := by
  unfold queue reserve
  rw [hd]
  simp only
  split
  · split
    · exact .inl ⟨_, rfl⟩
    · next hfull => exact .inr ⟨Nat.lt_of_not_le hfull, rfl⟩
  · exact .inl ⟨g.used, rfl⟩

/-- As many cells of a list without repetition are new to a map as stand in the list and not in the map. -/
theorem counts_fresh (m : Std.ExtTreeMap Position Color) {cells : List Position} (hnodup : cells.Nodup) :
    Counts (cells.countP fun p => !m.contains p) fun p => p ∈ cells ∧ m[p]? = none := by
  refine ⟨cells.filter fun p => !m.contains p, hnodup.filter _, fun p => ?_, List.countP_eq_length_filter.symm⟩
  rw [List.mem_filter, Bool.not_eq_true', Std.ExtTreeMap.contains_eq_isSome_getElem?, Option.isSome_eq_false_iff,
    Option.isNone_iff_eq_none]

/-- Cells of a draft are kept or dropped. -/
theorem retain_eq (hd : g.drafts[k]? = some d) (keep : Position → Bool) : ∃ used,
    g.retain k keep = (d.pending.size - (d.pending.filter fun p _ => keep p).size, { g with
      used, drafts := g.drafts.insert k { d with pending := d.pending.filter fun p _ => keep p } }) := by
  rw [retain, hd]
  simp only [refundCells_eq]
  exact ⟨_, rfl⟩

theorem takePending_eq (hd : g.drafts[k]? = some d) : ∃ used,
    g.takePending k =
      (d.pending.toList, { g with used, drafts := g.drafts.insert k { d with pending := ∅ } }) := by
  rw [takePending, hd]
  simp only [refundCells_eq]
  exact ⟨_, rfl⟩

theorem target?_of_none (hd : g.drafts[k]? = none) : g.target? k = none := by
  rw [target?, hd, Option.bind_none]

/-- The image of a draft, with its cells on it. -/
theorem target_of_fits (h : g.board.Fits) (hd : g.drafts[k]? = some d) :
    ∃ image, g.image? d.target = some image ∧ g.target? k = some image ∧
      ∀ p, (d.pending[p]?).isSome → image.canvas.Has p := by
  obtain ⟨v, hv, hpending⟩ := h k d.sheet (sheet_of_draft hd)
  obtain ⟨image, himage, rfl⟩ := Option.map_eq_some_iff.1 hv
  refine ⟨image, himage, ?_, hpending⟩
  rw [target?, hd]
  exact himage

/-! ## Queueing -/

theorem follows_queue (hused : g.used ≤ g.limit) (hd : g.drafts[k]? = some d) {act : Act} (f : Nat → Reply)
    {cells : List Position} (hnodup : cells.Nodup) (c : Color)
    (hrespond : g.respond act = (fun r => (f r.1, r.2)) <$> g.queue k cells c)
    (hcosts : ∀ {n : Nat}, (Counts n fun p => p ∈ cells ∧ d.pending[p]? = none) → g.board.Costs act n)
    (hdoes : g.board.Does act (.ok (f cells.length))
      (g.board.setSheet k (some (d.sheet.queue (stroke (· ∈ cells) c))))) : g.Follows act := by
  obtain ⟨used, hqueue⟩ | ⟨hfull, hqueue⟩ := queue_cases hd cells c
  · rw [hqueue] at hrespond
    refine follows_of_ok (f cells.length) _ hrespond ?_
    have hsheet : (⟨d.target, fun p => (cells.foldl (fun m p => m.insert p c) d.pending)[p]?⟩ : Sheet) =
        d.sheet.queue (stroke (· ∈ cells) c) :=
      congrArg (Sheet.mk d.target) (funext fun p => getElem?_queued d.pending cells c p)
    rwa [board_setPending, hsheet]
  · rw [hqueue] at hrespond
    exact follows_of_error hrespond (.exhausted (hcosts (counts_fresh d.pending hnodup)) hused hfull)

theorem follows_queueCell (h : g.Sound) (hfits : g.board.Fits) (k : Nat) (x y : Int) (c : Color) :
    g.Follows (.change (.queueCell k x y c)) := by
  cases hd : g.drafts[k]? with
  | none =>
    refine follows_of_lacks ?_ (sheet_of_none hd)
    simp only [outcome, respond, queueCell, target?_of_none hd]
    rfl
  | some d =>
    have hs := sheet_of_draft hd
    obtain ⟨image, himage, htarget, -⟩ := target_of_fits hfits hd
    have hv := canvas_of_image himage
    obtain ⟨p, hp⟩ | hbeside := image.canvas.at_or_beside x y
    · have hcell (q : Position) : q ∈ [p] ↔ q = p := List.mem_singleton
      refine follows_queue h.used_le hd (fun _ => .done) (List.nodup_singleton p) c ?_ ?_ ?_
      · simp only [respond, queueCell, htarget, Image.position_of_at hp, ok_bind]
        cases g.queue k [p] c with
        | error e => rfl
        | ok r => rfl
      · exact fun hn => .queueCell c hs hv hp (hn.congr fun q => and_congr_left' (hcell q))
      · rw [stroke_congr hcell]
        exact .queueCell c hs hv hp
    · refine follows_of_error ?_ (.beside (.queueCell x y c hs hv) hbeside)
      simp only [respond, queueCell, htarget, Image.position_of_beside hbeside]
      rfl

theorem follows_queueRect (h : g.Sound) (hfits : g.board.Fits) (k : Nat) (r : Rect) (c : Color) :
    g.Follows (.change (.queueRect k r c)) := by
  cases hd : g.drafts[k]? with
  | none =>
    refine follows_of_lacks ?_ (sheet_of_none hd)
    simp only [outcome, respond, queueRect, target?_of_none hd]
    rfl
  | some d =>
    obtain ⟨image, himage, htarget, -⟩ := target_of_fits hfits hd
    have hcells (p : Position) : p ∈ r.clipped image.width image.height ↔ r.contains p = true ∧ image.canvas.Has p :=
      Rect.mem_clipped
    refine follows_queue h.used_le hd .count (r.nodup_clipped image.width image.height) c ?_ ?_ ?_
    · simp only [respond, queueRect, htarget]
    · exact fun hn => .queueRect r c (sheet_of_draft hd) (canvas_of_image himage)
        (hn.congr fun p => and_congr_left' (hcells p))
    · rw [stroke_congr hcells]
      exact .queueRect r c (sheet_of_draft hd) (canvas_of_image himage) ⟨_, r.nodup_clipped _ _, hcells, rfl⟩

theorem follows_queueEllipse (h : g.Sound) (hfits : g.board.Fits) (k : Nat) (r : Rect) (c : Color) :
    g.Follows (.change (.queueEllipse k r c)) := by
  cases hd : g.drafts[k]? with
  | none =>
    refine follows_of_lacks ?_ (sheet_of_none hd)
    simp only [outcome, respond, queueEllipse, target?_of_none hd]
    rfl
  | some d =>
    obtain ⟨image, himage, htarget, -⟩ := target_of_fits hfits hd
    have hcells (p : Position) : p ∈ r.clippedEllipse image.width image.height ↔
        (r.contains p = true ∧ image.canvas.Has p) ∧ r.ellipseContains p.x p.y = true := Rect.mem_clippedEllipse
    refine follows_queue h.used_le hd .count (r.nodup_clippedEllipse image.width image.height) c ?_ ?_ ?_
    · simp only [respond, queueEllipse, htarget]
    · exact fun hn => .queueEllipse r c (sheet_of_draft hd) (canvas_of_image himage)
        (hn.congr fun p => and_congr_left' (hcells p))
    · rw [stroke_congr hcells]
      exact .queueEllipse r c (sheet_of_draft hd) (canvas_of_image himage)
        ⟨_, r.nodup_clippedEllipse _ _, hcells, rfl⟩

/-! ## Dropping -/

/-- The sheet of a draft of which cells were dropped. -/
theorem sheet_dropped (d : Draft) (P : Position → Prop) [DecidablePred P] {keep : Position → Bool}
    (hkeep : ∀ p, keep p = false ↔ P p) :
    (⟨d.target, fun p => (d.pending.filter fun p _ => keep p)[p]?⟩ : Sheet) = d.sheet.drop P := by
  refine congrArg (Sheet.mk d.target) (funext fun p => ?_)
  rw [getElem?_kept]
  unfold Draft.sheet
  simp only [← hkeep p]
  cases keep p with
  | true => rfl
  | false => rfl

/-- The sheet of a draft of which all cells were taken. -/
theorem sheet_cleared (d : Draft) :
    (⟨d.target, fun p => (∅ : Std.ExtTreeMap Position Color)[p]?⟩ : Sheet) = d.sheet.clear :=
  congrArg (Sheet.mk d.target) (funext fun _ => Std.ExtTreeMap.getElem?_empty)

theorem follows_cancel (hfits : g.board.Fits) (k : Nat) (x y : Int) : g.Follows (.change (.cancel k x y)) := by
  cases hd : g.drafts[k]? with
  | none =>
    refine follows_of_lacks ?_ (sheet_of_none hd)
    simp only [outcome, respond, cancel, target?_of_none hd, Option.bind_none]
  | some d =>
    have hs := sheet_of_draft hd
    obtain ⟨image, himage, htarget, -⟩ := target_of_fits hfits hd
    have hv := canvas_of_image himage
    obtain ⟨p, hp⟩ | hbeside := image.canvas.at_or_beside x y
    · have hkeep (q : Position) : decide (q ≠ p) = false ↔ q = p := by simp
      have hinside : Position.inside? x y image.width image.height = some p := image.canvas.inside?_eq_some_iff.2 hp
      obtain ⟨used, hretain⟩ := retain_eq hd fun q => decide (q ≠ p)
      have hrespond : g.respond (.change (.cancel k x y)) =
          .ok (.flag (decide ((g.retain k (· ≠ p)).1 ≠ 0)), (g.retain k (· ≠ p)).2) := by
        simp only [respond, cancel, htarget, Option.bind_some, hinside]
      refine follows_of_eq (f := fun n => .flag (decide (n ≠ 0))) hrespond hretain ?_
      rw [board_setPending, sheet_dropped d (· = p) hkeep]
      have hflag : decide (d.pending.size - (d.pending.filter fun q _ => decide (q ≠ p)).size ≠ 0) =
          (d.pending[p]?).isSome :=
        Bool.eq_iff_iff.2 (decide_eq_true_iff.trans (counts_dropped d.pending (· = p) hkeep).ne_zero_iff)
      rw [hflag]
      exact .cancel hs hv hp
    · have hnone : Position.inside? x y image.width image.height = none :=
        image.canvas.inside?_eq_none_iff.2 hbeside
      have hcancel : g.cancel k x y = (false, g) := by rw [cancel, htarget, Option.bind_some, hnone]
      exact follows_of_eq rfl hcancel (.cancelBeside hs hv hbeside)

theorem follows_cancelRect (g : Gallery) (k : Nat) (r : Rect) : g.Follows (.change (.cancelRect k r)) := by
  cases hd : g.drafts[k]? with
  | none =>
    refine follows_of_lacks ?_ (sheet_of_none hd)
    simp only [outcome, respond, cancelRect, retain, hd]
  | some d =>
    have hkeep (p : Position) : (!r.contains p) = false ↔ r.contains p = true := by rw [Bool.not_eq_false']
    obtain ⟨used, hretain⟩ := retain_eq hd fun p => !r.contains p
    refine follows_of_eq rfl hretain ?_
    rw [board_setPending, sheet_dropped d (fun p => r.contains p = true) hkeep]
    exact .cancelRect r (sheet_of_draft hd) (counts_dropped d.pending (fun p => r.contains p = true) hkeep)

theorem follows_takePending (g : Gallery) (k : Nat) : g.Follows (.change (.takePending k)) := by
  cases hd : g.drafts[k]? with
  | none =>
    refine follows_of_lacks ?_ (sheet_of_none hd)
    simp only [outcome, respond, takePending, hd]
  | some d =>
    obtain ⟨used, htake⟩ := takePending_eq hd
    refine follows_of_eq rfl htake ?_
    rw [board_setPending, sheet_cleared]
    exact .takePending (sheet_of_draft hd) fun p c => Std.ExtTreeMap.mem_toList_iff_getElem?_eq_some

/-! ## Committing -/

/-- The pending cells of a draft, as edits. -/
theorem lastOf_pending (m : Std.ExtTreeMap Position Color) : lastOf m.toList = fun p => m[p]? := by
  have hdistinct : m.toList.Pairwise fun e e' => e.1 ≠ e'.1 := by
    refine Std.ExtTreeMap.distinct_keys_toList.imp fun hne heq => hne ?_
    rw [heq]
    exact Std.ReflCmp.compare_self
  funext p
  refine Option.ext fun c => ?_
  rw [lastOf_eq_some_iff hdistinct, Std.ExtTreeMap.mem_toList_iff_getElem?_eq_some]

theorem applyDraft_eq (hd : g.drafts[k]? = some d) {id : Nat} {image : Image} (himage : g.image? id = some image) :
    ∃ used, g.applyDraft k id = ((image.apply d.pending.toList).1,
      editImage { g with used, drafts := g.drafts.insert k { d with pending := ∅ } } id
        fun _ => (image.apply d.pending.toList).2) := by
  obtain ⟨used, htake⟩ := takePending_eq hd
  refine ⟨used, ?_⟩
  have hthere : image? { g with used, drafts := g.drafts.insert k { d with pending := ∅ } } id = some image := himage
  simp only [applyDraft, htake, hthere]

/-- The board after the pending cells of a draft were written into an image. -/
theorem board_applied (d : Draft) (k : Nat) {id : Nat} {image : Image} (himage : g.image? id = some image)
    (used : Nat) : board (editImage { g with used, drafts := g.drafts.insert k { d with pending := ∅ } } id
        fun _ => (image.apply d.pending.toList).2) =
      (g.board.setSheet k (some d.sheet.clear)).setCanvas id (some (image.canvas.write d.sheet.pending)) := by
  have himage' : image? { g with used, drafts := g.drafts.insert k { d with pending := ∅ } } id = some image := himage
  rw [board_editImage himage', board_setPending, sheet_cleared, Image.canvas_apply, lastOf_pending]
  rfl

/-- As many cells are written as were pending and lie on the image. -/
theorem counts_applied (d : Draft) (image : Image) :
    Counts (image.apply d.pending.toList).1 fun p => image.canvas.Has p ∧ (d.sheet.pending p).isSome := by
  rw [Image.count_apply]
  exact counts_countP d.pending image.canvas.Has

theorem follows_applyDraft (g : Gallery) (k id : Nat) : g.Follows (.change (.applyDraft k id)) := by
  cases hd : g.drafts[k]? with
  | none =>
    have hnothing : g.takePending k = ([], g) := by rw [takePending, hd]
    cases himage : g.image? id with
    | none =>
      refine follows_of_lacks ?_ ⟨sheet_of_none hd, canvas_of_none himage⟩
      simp only [outcome, respond, applyDraft, hnothing, himage]
    | some image =>
      have happly : g.applyDraft k id = (0, g.editImage id fun _ => (image.apply []).2) := by
        simp only [applyDraft, hnothing, himage]
        rfl
      refine follows_of_eq rfl happly ?_
      rw [board_editImage himage, Image.canvas_apply]
      exact .applyNothing (sheet_of_none hd) (canvas_of_image himage)
  | some d =>
    have hs := sheet_of_draft hd
    cases himage : g.image? id with
    | none =>
      obtain ⟨used, htake⟩ := takePending_eq hd
      have hgone : image? { g with used, drafts := g.drafts.insert k { d with pending := ∅ } } id = none := himage
      have happly : g.applyDraft k id =
          (0, { g with used, drafts := g.drafts.insert k { d with pending := ∅ } }) := by
        simp only [applyDraft, htake, hgone]
      refine follows_of_eq rfl happly ?_
      rw [board_setPending, sheet_cleared]
      exact .applyNowhere hs (canvas_of_none himage)
    | some image =>
      obtain ⟨used, happly⟩ := applyDraft_eq hd himage
      refine follows_of_eq rfl happly ?_
      rw [board_applied d k himage]
      exact .applyDraft hs (canvas_of_image himage) (counts_applied d image)

theorem follows_commit (hfits : g.board.Fits) (k : Nat) : g.Follows (.change (.commit k)) := by
  cases hd : g.drafts[k]? with
  | none =>
    refine follows_of_lacks ?_ (sheet_of_none hd)
    simp only [outcome, respond, commit, hd]
  | some d =>
    obtain ⟨image, himage, -, hpending⟩ := target_of_fits hfits hd
    obtain ⟨used, happly⟩ := applyDraft_eq hd himage
    have hcommit : g.commit k = g.applyDraft k d.target := by rw [commit, hd]
    refine follows_of_eq rfl (hcommit.trans happly) ?_
    rw [board_applied d k himage]
    exact .commit (sheet_of_draft hd) (canvas_of_image himage)
      ((counts_applied d image).congr fun p => and_iff_right_of_imp (hpending p))

/-! ## Reading -/

theorem follows_get (g : Gallery) (id : Nat) (x y : Int) : g.Follows (.get id x y) := by
  cases himage : g.image? id with
  | none =>
    refine follows_of_lacks ?_ (canvas_of_none himage)
    simp only [outcome, respond, himage]
  | some image =>
    have hv := canvas_of_image himage
    obtain ⟨p, hp⟩ | hbeside := image.canvas.at_or_beside x y
    · refine follows_of_ok (.colour (image.pixel p)) g ?_ (.get hv hp (Image.colour_of_has hp.has))
      simp only [respond, himage, Image.get_of_at hp]
      rfl
    · refine follows_of_error ?_ (.beside (.get x y hv) hbeside)
      simp only [respond, himage, Image.get_of_beside hbeside]
      rfl

/-- What a draft reads: the colour that its sheet shows on its canvas. -/
theorem read_spec (hfits : g.board.Fits) {s : Sheet} {v : Canvas} (hs : g.board.sheet k = some s)
    (hv : g.board.canvas s.target = some v) (x y : Int) (preferPending : Bool) :
    (∃ p c, v.At x y p ∧ v.shown s preferPending p = some c ∧ g.read k x y preferPending = .ok c) ∨
      v.Beside x y ∧ g.read k x y preferPending = .error (.outOfBounds x y v.width v.height) := by
  obtain ⟨d, hd, rfl⟩ := Option.map_eq_some_iff.1 hs
  obtain ⟨image, himage, htarget, -⟩ := target_of_fits hfits hd
  obtain rfl : image.canvas = v := Option.some.inj ((canvas_of_image himage).symm.trans hv)
  obtain ⟨p, hp⟩ | hbeside := image.canvas.at_or_beside x y
  · refine .inl ⟨p, ?_⟩
    have hcolour := Image.colour_of_has hp.has
    unfold Gallery.read
    simp only [hd, htarget, Image.position_of_at hp, ok_bind, Canvas.shown, hcolour, Draft.sheet]
    cases d.pending[p]? with
    | none => exact ⟨image.pixel p, hp, by rw [ite_self, Option.none_or], rfl⟩
    | some c => cases preferPending with
      | true => exact ⟨c, hp, rfl, rfl⟩
      | false => exact ⟨image.pixel p, hp, rfl, rfl⟩
  · refine .inr ⟨hbeside, ?_⟩
    simp only [Gallery.read, hd, htarget, Image.position_of_beside hbeside]
    rfl

theorem follows_read (hfits : g.board.Fits) (k : Nat) (x y : Int) (preferPending : Bool) :
    g.Follows (.read k x y preferPending) := by
  have hrespond : g.respond (.read k x y preferPending) = (Reply.colour ·, g) <$> g.read k x y preferPending := rfl
  cases hs : g.board.sheet k with
  | none =>
    refine follows_of_lacks ?_ hs
    unfold outcome
    rw [hrespond]
    cases g.read k x y preferPending with
    | ok c => rfl
    | error e => rfl
  | some s =>
    obtain ⟨v, hv, -⟩ := hfits k s hs
    obtain ⟨p, c, hp, hshown, hread⟩ | ⟨hbeside, hread⟩ := read_spec hfits hs hv x y preferPending
    · rw [hread] at hrespond
      exact follows_of_ok _ _ hrespond (.read hs hv hp hshown)
    · rw [hread] at hrespond
      exact follows_of_error hrespond (.beside (.read x y preferPending hs hv) hbeside)

end Drafts

/-! ## Coming and going -/

section Lifetimes

variable {g : Gallery} {id k : Nat}

/-- A change of who holds an image is not seen. -/
theorem board_modify {f : Slot → Slot} (hf : ∀ s, (f s).image = s.image) :
    board { g with slots := g.slots.modify id f } = g.board := by
  refine board_congr (fun j => ?_) rfl
  simp only [image?, Std.ExtTreeMap.getElem?_modify, Nat.compare_eq_eq]
  split
  · next heq =>
    subst heq
    rw [Option.map_map]
    exact congrArg (Option.map · g.slots[id]?) (funext hf)
  · rfl

theorem follows_hold (g : Gallery) (id : Nat) : g.Follows (.change (.hold id)) := by
  have hsame : (g.hold id).board = g.board := board_modify fun _ => rfl
  refine follows_of_ok .done (g.hold id) rfl ?_
  rw [hsame]
  exact .hold id

theorem follows_release (g : Gallery) (id : Nat) : g.Follows (.change (.release id)) := by
  have hdropped : (g.dropHolder id).board = g.board := board_modify fun _ => rfl
  have hrelease : g.release id = (g.dropHolder id).sweep id := rfl
  refine follows_of_ok .done (g.release id) rfl ?_
  rw [hrelease]
  obtain hsame | ⟨hfree, hgone⟩ := board_sweep (g.dropHolder id) id
  · rw [hsame, hdropped]
    exact .release id
  · rw [hdropped] at hfree
    rw [hgone, hdropped]
    exact .releaseLast hfree

theorem follows_closeDraft (g : Gallery) (k : Nat) : g.Follows (.change (.closeDraft k)) := by
  cases hd : g.drafts[k]? with
  | none =>
    refine follows_of_lacks ?_ (sheet_of_none hd)
    simp only [outcome, respond, closeDraft, hd]
  | some d =>
    have hs := sheet_of_draft hd
    have hclose : g.closeDraft k = (g.dropDraft k d).sweep d.target := by
      simp only [closeDraft, hd, refundCells_eq]
      rfl
    have hdropped : (g.dropDraft k d).board = g.board.setSheet k none := board_eraseDraft k _
    refine follows_of_ok .done (g.closeDraft k) rfl ?_
    rw [hclose]
    obtain hsame | ⟨hfree, hgone⟩ := board_sweep (g.dropDraft k d) d.target
    · rw [hsame, hdropped]
      exact .closeDraft hs
    · rw [hdropped] at hfree
      rw [hgone, hdropped]
      refine .closeLast hs fun j s' hne hs' => hfree j s' ?_
      exact (if_neg (Ne.symm hne)).trans hs'

theorem canvas_blank (name : String) (width height : Nat) :
    (Image.blank name width height).canvas = .blank width height := by
  refine Canvas.ext rfl rfl rfl (funext fun p => ?_)
  change (if p.x < width ∧ p.y < height then some ((Image.blank name width height).pixel p) else none) = _
  have hpixel : (Image.blank name width height).pixel p = .transparent := by
    unfold Image.pixel Image.blank
    simp only [Vector.getElem?_replicate]
    split
    · split
      · rfl
      · rfl
    · rfl
  rw [hpixel]
  rfl

/-- The next number has no image and no draft yet. -/
theorem fresh_canvas (h : g.Sound) : g.board.canvas g.next = none := by
  have hfresh : g.slots[g.next]? = none :=
    Std.ExtTreeMap.getElem?_eq_none fun hmem => Nat.lt_irrefl _ (h.slot_lt _ hmem)
  exact canvas_of_none (by rw [image?, hfresh, Option.map_none])

theorem fresh_sheet (h : g.Sound) : g.board.sheet g.next = none :=
  sheet_of_none (Std.ExtTreeMap.getElem?_eq_none fun hmem => Nat.lt_irrefl _ (h.draft_lt _ hmem))

theorem follows_create (h : g.Sound) (name : String) (width height : Nat) :
    g.Follows (.change (.create name width height)) := by
  have hcreate := g.create_eq name width height
  have hrespond : g.respond (.change (.create name width height)) =
      (fun r : Nat × Gallery => (Reply.made r.1, r.2)) <$> g.create name width height := rfl
  split at hcreate
  · rw [hcreate] at hrespond
    refine follows_of_ok _ _ hrespond ?_
    rw [board_insert, canvas_blank]
    exact .create name width height (fresh_canvas h)
  · next hfull =>
    rw [hcreate] at hrespond
    exact follows_of_error hrespond (.exhausted (.create name width height) h.used_le (Nat.lt_of_not_le hfull))

theorem follows_adopt (h : g.Sound) (image : Image) : g.Follows (.change (.adopt image)) := by
  refine follows_of_ok (.made g.next) _ rfl ?_
  rw [board_insert (g := g) image false g.used]
  exact .adopt image (fresh_canvas h)

theorem follows_openDraft (h : g.Sound) (id : Nat) : g.Follows (.change (.openDraft id)) := by
  by_cases hmem : id ∈ g.slots
  · obtain ⟨slot, hslot⟩ := Option.isSome_iff_exists.1 (Std.ExtTreeMap.mem_iff_isSome_getElem?.1 hmem)
    have himage : g.image? id = some slot.image := by rw [image?, hslot, Option.map_some]
    refine follows_of_ok (.made g.next) (g.openDraft id).2 ?_ ?_
    · simp only [respond, if_pos hmem]
      rfl
    · rw [board_openDraft]
      exact .openDraft (canvas_of_image himage) (fresh_sheet h)
  · have himage : g.image? id = none := by rw [image?, Std.ExtTreeMap.getElem?_eq_none hmem, Option.map_none]
    refine follows_of_lacks ?_ (canvas_of_none himage)
    simp only [outcome, respond, if_neg hmem]

end Lifetimes

/-! ## Runs -/

section Runs

variable {g : Gallery}

/-- Whatever is done with a sound gallery whose cells lie on their images, a rule of its board says so. -/
theorem follows (h : g.Sound) (hfits : g.board.Fits) (act : Act) : g.Follows act := by
  cases act with
  | get id x y => exact follows_get g id x y
  | read k x y preferPending => exact follows_read hfits k x y preferPending
  | change op =>
    cases op with
    | create name width height => exact follows_create h name width height
    | adopt image => exact follows_adopt h image
    | hold id => exact follows_hold g id
    | release id => exact follows_release g id
    | write id w => exact follows_write g id w
    | openDraft target => exact follows_openDraft h target
    | closeDraft k => exact follows_closeDraft g k
    | queueCell k x y c => exact follows_queueCell h hfits k x y c
    | queueRect k r c => exact follows_queueRect h hfits k r c
    | queueEllipse k r c => exact follows_queueEllipse h hfits k r c
    | cancel k x y => exact follows_cancel hfits k x y
    | cancelRect k r => exact follows_cancelRect g k r
    | takePending k => exact follows_takePending g k
    | applyDraft k target => exact follows_applyDraft g k target
    | commit k => exact follows_commit hfits k

/-- What acts answer, one after another. -/
def answers (g : Gallery) : List Act → List (Act × Except Fault Reply)
  | [] => []
  | act :: rest => (act, (g.outcome act).1) :: answers (g.outcome act).2 rest

/-- The gallery after some acts. -/
def afterActs (g : Gallery) (acts : List Act) : Gallery := acts.foldl (fun g act => (g.outcome act).2) g

theorem board_empty (limit : Nat) : (Gallery.empty limit).board = Board.empty := by
  refine Board.ext (funext fun id => canvas_of_none ?_) (funext fun k => sheet_of_none Std.ExtTreeMap.getElem?_empty)
  exact congrArg (Option.map Slot.image) Std.ExtTreeMap.getElem?_empty

theorem runs_of_sound (h : g.Sound) (hfits : g.board.Fits) (acts : List Act) :
    g.board.Runs (g.answers acts) (g.afterActs acts).board := by
  induction acts generalizing g with
  | nil => exact .done g.board
  | cons act rest ih =>
    have hfirst : g.Follows act := follows h hfits act
    exact .act hfirst (ih (h.outcome act) (hfits.does hfirst))

end Runs

/-! ## Reading after a commit -/

/-- The board after a commit. -/
theorem board_commit {g : Gallery} (hfits : g.board.Fits) {k : Nat} {s : Sheet} {v : Canvas}
    (hs : g.board.sheet k = some s) (hv : g.board.canvas s.target = some v) : (g.commit k).2.board =
      (g.board.setSheet k (some s.clear)).setCanvas s.target (some (v.write s.pending)) := by
  have hdoes : g.board.Does (.change (.commit k)) (.ok (.count (g.commit k).1)) (g.commit k).2.board :=
    follows_commit hfits k
  generalize (g.commit k).2.board = b' at hdoes
  cases hdoes with
  | absent reply hlacks => cases hs.symm.trans hlacks
  | commit hs' hv' hn =>
    cases hs.symm.trans hs'
    cases hv.symm.trans hv'
    rfl

/-- After a commit every position reads committed as it read before if what is pending was preferred. -/
theorem read_commit {g : Gallery} (hfits : g.board.Fits) (k : Nat) (x y : Int) :
    (g.commit k).2.read k x y false = g.read k x y true := by
  cases hs : g.board.sheet k with
  | none =>
    have hd : g.drafts[k]? = none := Option.map_eq_none_iff.1 hs
    have hcommit : g.commit k = (0, g) := by rw [commit, hd]
    rw [hcommit]
    simp only [Gallery.read, hd]
  | some s =>
    obtain ⟨v, hv, -⟩ := hfits k s hs
    have hboard := board_commit hfits hs hv
    have hfits' : (g.commit k).2.board.Fits := hfits.does (follows_commit hfits k)
    have hs' : (g.commit k).2.board.sheet k = some s.clear := by
      rw [hboard]
      exact if_pos rfl
    have hv' : (g.commit k).2.board.canvas s.clear.target = some (v.write s.pending) := by
      rw [hboard]
      exact if_pos rfl
    have hat {p : Position} : (v.write s.pending).At x y p ↔ v.At x y p :=
      ⟨fun h => ⟨h.x_eq, h.y_eq, h.has⟩, fun h => ⟨h.x_eq, h.y_eq, h.has⟩⟩
    obtain ⟨p, c, hp, hshown, hread⟩ | ⟨hbeside, hread⟩ := read_spec hfits hs hv x y true
    · obtain ⟨p', c', hp', hshown', hread'⟩ | ⟨hbeside', -⟩ := read_spec hfits' hs' hv' x y false
      · obtain rfl : p = p' := hp.unique (hat.1 hp')
        rw [Canvas.shown_write hp.has, hshown] at hshown'
        cases hshown'
        rw [hread', hread]
      · exact absurd (hat.2 hp) (hbeside' p)
    · obtain ⟨p', c', hp', -, -⟩ | ⟨-, hread'⟩ := read_spec hfits' hs' hv' x y false
      · exact absurd (hat.1 hp') (hbeside p')
      · rw [hread', hread]
        rfl

/-- **Drafts are maps of pending cells over their images.**  Whatever is done with any number of images and drafts, one
act after another, what can be seen of them changes and is answered by the rules of boards; and a commit makes every
position read as it did when what was pending was preferred. -/
theorem gallery_refines_board (limit : Nat) (acts : List Act) :
    Board.empty.Runs ((Gallery.empty limit).answers acts) ((Gallery.empty limit).afterActs acts).board ∧
    ∀ k x y, (((Gallery.empty limit).afterActs acts).commit k).2.read k x y false =
      ((Gallery.empty limit).afterActs acts).read k x y true := by
  have hfits : (Gallery.empty limit).board.Fits := board_empty limit ▸ Board.fits_empty
  have hruns := runs_of_sound (sound_empty limit) hfits acts
  exact ⟨board_empty limit ▸ hruns, read_commit (hfits.runs hruns)⟩

end Gallery

end ScriptWarden.Texture
