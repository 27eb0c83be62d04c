import ScriptWarden.Proofs.Texture.Account
import ScriptWarden.Proofs.Texture.Canvas
set_option autoImplicit false

/-!
# Texture: what drafts mean

A *board* has canvases and sheets: a sheet is a map of pending cells over one of the canvases.  It knows nothing of
arrays, accounts and holders.  What each operation may do with a board, and what it answers, is a list of rules
(`Board.Does`); whatever a rule does not name stays as it is.  Pending cells always lie on their canvas
(`Board.Fits`).
-/

namespace ScriptWarden.Texture

open Gallery (Op)

/-! ## Boards -/

/-- Pending cells of a canvas. -/
structure Sheet where
  target : Nat
  pending : Position → Option Color

namespace Sheet

/-- Colours for some cells become pending, whatever those cells had. -/
def queue (s : Sheet) (cells : Position → Option Color) : Sheet :=
  { s with pending := fun p => (cells p).or (s.pending p) }

/-- Some cells are pending no more. -/
def drop (s : Sheet) (P : Position → Prop) [DecidablePred P] : Sheet :=
  { s with pending := fun p => if P p then none else s.pending p }

/-- Nothing is pending any more. -/
def clear (s : Sheet) : Sheet := { s with pending := fun _ => none }

end Sheet

/-- The colour that is seen at a position: the pending one if there is one and it is preferred, else the committed
one. -/
def Canvas.shown (v : Canvas) (s : Sheet) (preferPending : Bool) (p : Position) : Option Color :=
  (if preferPending then s.pending p else none).or (v.colour p)

/-- What was pending is seen once it is written. -/
theorem Canvas.shown_write {v : Canvas} {p : Position} (hp : v.Has p) (s : Sheet) :
    (v.write s.pending).shown s.clear false p = v.shown s true p := if_pos hp

/-- Canvases and sheets by number. -/
@[ext] structure Board where
  canvas : Nat → Option Canvas
  sheet : Nat → Option Sheet

/-- Exactly so many positions have a property. -/
def Counts (n : Nat) (P : Position → Prop) : Prop :=
  ∃ cells : List Position, cells.Nodup ∧ (∀ p, p ∈ cells ↔ P p) ∧ cells.length = n

/-! ## Acts -/

/-- An operation on images and drafts, or a question about them. -/
inductive Act where
  | change (op : Op)
  | get (id : Nat) (x y : Int)
  | read (draft : Nat) (x y : Int) (preferPending : Bool)

/-- What an act answers. -/
inductive Reply where
  | done
  /-- The number of a new image or draft. -/
  | made (n : Nat)
  | count (n : Nat)
  | flag (b : Bool)
  | colour (c : Color)
  | edits (l : List (Position × Color))

namespace Board

/-- A board without canvases. -/
def empty : Board := ⟨fun _ => none, fun _ => none⟩

/-- Another canvas, or none, for a number. -/
def setCanvas (b : Board) (id : Nat) (v : Option Canvas) : Board :=
  { b with canvas := fun j => if id = j then v else b.canvas j }

/-- Another sheet, or none, for a number. -/
def setSheet (b : Board) (k : Nat) (s : Option Sheet) : Board :=
  { b with sheet := fun j => if k = j then s else b.sheet j }

theorem setCanvas_self {b : Board} {id : Nat} {v : Canvas} (hv : b.canvas id = some v) :
    b.setCanvas id (some v) = b := by
  refine Board.ext (funext fun j => ?_) rfl
  unfold setCanvas
  simp only
  split
  · next heq => rw [← heq, hv]
  · rfl

/-- What is found after the sheet of a number was changed. -/
theorem found_setSheet {b : Board} {k j : Nat} {s : Option Sheet} {s' : Sheet}
    (hfound : (b.setSheet k s).sheet j = some s') : k = j ∧ s = some s' ∨ k ≠ j ∧ b.sheet j = some s' := by
  unfold setSheet at hfound
  simp only at hfound
  split at hfound
  · next heq => exact .inl ⟨heq, hfound⟩
  · next hne => exact .inr ⟨hne, hfound⟩

theorem canvas_setCanvas_self (b : Board) (id : Nat) (v : Option Canvas) : (b.setCanvas id v).canvas id = v :=
  if_pos rfl

theorem canvas_setCanvas_ne {b : Board} {id j : Nat} (h : id ≠ j) (v : Option Canvas) :
    (b.setCanvas id v).canvas j = b.canvas j := if_neg h

/-! ## What acts do -/

variable (b : Board)

/-- An act is about a canvas or a sheet that is not there. -/
def Lacks : Act → Prop
  | .change (.write id _) | .change (.openDraft id) | .get id _ _ => b.canvas id = none
  | .change (.queueCell k _ _ _) | .change (.queueRect k _ _) | .change (.queueEllipse k _ _) => b.sheet k = none
  | .change (.cancel k _ _) | .change (.cancelRect k _) => b.sheet k = none
  | .change (.takePending k) | .change (.commit k) => b.sheet k = none
  | .change (.applyDraft k id) => b.sheet k = none ∧ b.canvas id = none
  | .change (.closeDraft k) | .read k _ _ _ => b.sheet k = none
  | .change (.create ..) | .change (.adopt _) | .change (.hold _) | .change (.release _) => False

/-- An act names a place on a canvas, which must be there. -/
inductive Names : Act → Canvas → Int → Int → Prop
  | set {id : Nat} {v : Canvas} (x y : Int) (c : Color) (hv : b.canvas id = some v) :
    Names (.change (.write id (.set x y c))) v x y
  | fillFirst {id : Nat} {v : Canvas} (x y width height : Int) (c : Color) (hv : b.canvas id = some v)
    (harea : ¬ (width ≤ 0 ∨ height ≤ 0)) : Names (.change (.write id (.fill x y width height c))) v x y
  | fillLast {id : Nat} {v : Canvas} (x y width height : Int) (c : Color) (hv : b.canvas id = some v)
    (harea : ¬ (width ≤ 0 ∨ height ≤ 0)) : Names (.change (.write id (.fill x y width height c))) v
      (Image.reach x width) (Image.reach y height)
  | get {id : Nat} {v : Canvas} (x y : Int) (hv : b.canvas id = some v) : Names (.get id x y) v x y
  | queueCell {k : Nat} {s : Sheet} {v : Canvas} (x y : Int) (c : Color) (hs : b.sheet k = some s)
    (hv : b.canvas s.target = some v) : Names (.change (.queueCell k x y c)) v x y
  | read {k : Nat} {s : Sheet} {v : Canvas} (x y : Int) (preferPending : Bool) (hs : b.sheet k = some s)
    (hv : b.canvas s.target = some v) : Names (.read k x y preferPending) v x y

/-- So many pixels an act adds: those of a new canvas, or the cells that are not pending yet. -/
inductive Costs : Act → Nat → Prop
  | create (name : String) (width height : Nat) : Costs (.change (.create name width height)) (width * height)
  | queueCell {k n : Nat} {s : Sheet} {v : Canvas} {x y : Int} {p : Position} (c : Color) (hs : b.sheet k = some s)
    (hv : b.canvas s.target = some v) (hp : v.At x y p) (hn : Counts n fun q => q = p ∧ s.pending q = none) :
    Costs (.change (.queueCell k x y c)) n
  | queueRect {k n : Nat} {s : Sheet} {v : Canvas} (r : Rect) (c : Color) (hs : b.sheet k = some s)
    (hv : b.canvas s.target = some v)
    (hn : Counts n fun p => (r.contains p = true ∧ v.Has p) ∧ s.pending p = none) :
    Costs (.change (.queueRect k r c)) n
  | queueEllipse {k n : Nat} {s : Sheet} {v : Canvas} (r : Rect) (c : Color) (hs : b.sheet k = some s)
    (hv : b.canvas s.target = some v) (hn : Counts n fun p =>
      ((r.contains p = true ∧ v.Has p) ∧ r.ellipseContains p.x p.y = true) ∧ s.pending p = none) :
    Costs (.change (.queueEllipse k r c)) n

/-- Why an act may be refused. -/
inductive Refuses : Act → Fault → Prop
  | beside {act : Act} {v : Canvas} {x y : Int} (hnames : b.Names act v x y) (hbeside : v.Beside x y) :
    Refuses act (.outOfBounds x y v.width v.height)
  /-- What it adds does not fit into the allowance. -/
  | exhausted {act : Act} {requested used limit : Nat} (hcosts : b.Costs act requested) (hused : used ≤ limit)
    (hfull : limit < used + requested) : Refuses act (.exhausted requested used limit)

/-- What an act may do with a board, and what it answers. -/
inductive Does : Act → Except Fault Reply → Board → Prop
  /-- An act that is refused changes nothing. -/
  | refused {act : Act} {e : Fault} (hwhy : b.Refuses act e) : Does act (.error e) b
  /-- Nor does one that is about nothing. -/
  | absent {act : Act} (reply : Except Fault Reply) (hlacks : b.Lacks act) : Does act reply b
  -- writing
  | set {id : Nat} {v : Canvas} {x y : Int} {p : Position} (c : Color) (hv : b.canvas id = some v)
    (hp : v.At x y p) : Does (.change (.write id (.set x y c))) (.ok .done)
      (b.setCanvas id (some (v.write (stroke (· = p) c))))
  | fill {id : Nat} {v : Canvas} {x y width height : Int} {p q : Position} (c : Color) (hv : b.canvas id = some v)
    (harea : ¬ (width ≤ 0 ∨ height ≤ 0)) (hp : v.At x y p)
    (hq : v.At (Image.reach x width) (Image.reach y height) q) :
    Does (.change (.write id (.fill x y width height c))) (.ok .done) (b.setCanvas id (some (v.write (stroke
      (fun r => (Rect.ofCorners x y (Image.reach x width) (Image.reach y height)).contains r = true) c))))
  | fillNothing (id : Nat) (x y : Int) {width height : Int} (c : Color) (hempty : width ≤ 0 ∨ height ≤ 0) :
    Does (.change (.write id (.fill x y width height c))) (.ok .done) b
  | apply {id : Nat} {v : Canvas} (edits : List (Position × Color)) (hv : b.canvas id = some v) :
    Does (.change (.write id (.apply edits))) (.ok (.count (edits.countP fun e => v.Has e.1)))
      (b.setCanvas id (some (v.write (lastOf edits))))
  | mark {id : Nat} {v : Canvas} (dirty : Bool) (hv : b.canvas id = some v) :
    Does (.change (.write id (.mark dirty))) (.ok .done) (b.setCanvas id (some { v with dirty }))
  -- pending cells
  | queueCell {k : Nat} {s : Sheet} {v : Canvas} {x y : Int} {p : Position} (c : Color) (hs : b.sheet k = some s)
    (hv : b.canvas s.target = some v) (hp : v.At x y p) : Does (.change (.queueCell k x y c)) (.ok .done)
      (b.setSheet k (some (s.queue (stroke (· = p) c))))
  | queueRect {k n : Nat} {s : Sheet} {v : Canvas} (r : Rect) (c : Color) (hs : b.sheet k = some s)
    (hv : b.canvas s.target = some v) (hn : Counts n fun p => r.contains p = true ∧ v.Has p) :
    Does (.change (.queueRect k r c)) (.ok (.count n))
      (b.setSheet k (some (s.queue (stroke (fun p => r.contains p = true ∧ v.Has p) c))))
  | queueEllipse {k n : Nat} {s : Sheet} {v : Canvas} (r : Rect) (c : Color) (hs : b.sheet k = some s)
    (hv : b.canvas s.target = some v)
    (hn : Counts n fun p => (r.contains p = true ∧ v.Has p) ∧ r.ellipseContains p.x p.y = true) :
    Does (.change (.queueEllipse k r c)) (.ok (.count n)) (b.setSheet k (some (s.queue
      (stroke (fun p => (r.contains p = true ∧ v.Has p) ∧ r.ellipseContains p.x p.y = true) c))))
  | cancel {k : Nat} {s : Sheet} {v : Canvas} {x y : Int} {p : Position} (hs : b.sheet k = some s)
    (hv : b.canvas s.target = some v) (hp : v.At x y p) :
    Does (.change (.cancel k x y)) (.ok (.flag (s.pending p).isSome)) (b.setSheet k (some (s.drop (· = p))))
  | cancelBeside {k : Nat} {s : Sheet} {v : Canvas} {x y : Int} (hs : b.sheet k = some s)
    (hv : b.canvas s.target = some v) (hbeside : v.Beside x y) :
    Does (.change (.cancel k x y)) (.ok (.flag false)) b
  | cancelRect {k n : Nat} {s : Sheet} (r : Rect) (hs : b.sheet k = some s)
    (hn : Counts n fun p => r.contains p = true ∧ (s.pending p).isSome) :
    Does (.change (.cancelRect k r)) (.ok (.count n)) (b.setSheet k (some (s.drop (fun p => r.contains p = true))))
  | takePending {k : Nat} {s : Sheet} {edits : List (Position × Color)} (hs : b.sheet k = some s)
    (hedits : ∀ p c, (p, c) ∈ edits ↔ s.pending p = some c) :
    Does (.change (.takePending k)) (.ok (.edits edits)) (b.setSheet k (some s.clear))
  -- committing
  | applyDraft {k id n : Nat} {s : Sheet} {v : Canvas} (hs : b.sheet k = some s) (hv : b.canvas id = some v)
    (hn : Counts n fun p => v.Has p ∧ (s.pending p).isSome) : Does (.change (.applyDraft k id)) (.ok (.count n))
      ((b.setSheet k (some s.clear)).setCanvas id (some (v.write s.pending)))
  | applyNothing {k id : Nat} {v : Canvas} (hs : b.sheet k = none) (hv : b.canvas id = some v) :
    Does (.change (.applyDraft k id)) (.ok (.count 0)) (b.setCanvas id (some (v.write fun _ => none)))
  | applyNowhere {k id : Nat} {s : Sheet} (hs : b.sheet k = some s) (hv : b.canvas id = none) :
    Does (.change (.applyDraft k id)) (.ok (.count 0)) (b.setSheet k (some s.clear))
  | commit {k n : Nat} {s : Sheet} {v : Canvas} (hs : b.sheet k = some s) (hv : b.canvas s.target = some v)
    (hn : Counts n fun p => (s.pending p).isSome) : Does (.change (.commit k)) (.ok (.count n))
      ((b.setSheet k (some s.clear)).setCanvas s.target (some (v.write s.pending)))
  -- reading
  | get {id : Nat} {v : Canvas} {x y : Int} {p : Position} {c : Color} (hv : b.canvas id = some v) (hp : v.At x y p)
    (hc : v.colour p = some c) : Does (.get id x y) (.ok (.colour c)) b
  | read {k : Nat} {s : Sheet} {v : Canvas} {x y : Int} {p : Position} {c : Color} {preferPending : Bool}
    (hs : b.sheet k = some s) (hv : b.canvas s.target = some v) (hp : v.At x y p)
    (hc : v.shown s preferPending p = some c) : Does (.read k x y preferPending) (.ok (.colour c)) b
  -- coming and going
  | create {id : Nat} (name : String) (width height : Nat) (hfresh : b.canvas id = none) :
    Does (.change (.create name width height)) (.ok (.made id)) (b.setCanvas id (some (.blank width height)))
  | adopt {id : Nat} (image : Image) (hfresh : b.canvas id = none) :
    Does (.change (.adopt image)) (.ok (.made id)) (b.setCanvas id (some image.canvas))
  | hold (id : Nat) : Does (.change (.hold id)) (.ok .done) b
  | release (id : Nat) : Does (.change (.release id)) (.ok .done) b
  | releaseLast {id : Nat} (hfree : ∀ k s, b.sheet k = some s → s.target ≠ id) :
    Does (.change (.release id)) (.ok .done) (b.setCanvas id none)
  | openDraft {id k : Nat} {v : Canvas} (hv : b.canvas id = some v) (hfresh : b.sheet k = none) :
    Does (.change (.openDraft id)) (.ok (.made k)) (b.setSheet k (some ⟨id, fun _ => none⟩))
  | closeDraft {k : Nat} {s : Sheet} (hs : b.sheet k = some s) :
    Does (.change (.closeDraft k)) (.ok .done) (b.setSheet k none)
  | closeLast {k : Nat} {s : Sheet} (hs : b.sheet k = some s)
    (hfree : ∀ j s', j ≠ k → b.sheet j = some s' → s'.target ≠ s.target) :
    Does (.change (.closeDraft k)) (.ok .done) ((b.setSheet k none).setCanvas s.target none)

/-! ## Pending cells lie on their canvas -/

/-- Every sheet has its canvas, and its cells lie on it. -/
def Fits : Prop := ∀ k s, b.sheet k = some s → ∃ v, b.canvas s.target = some v ∧ ∀ p, (s.pending p).isSome → v.Has p

variable {b}

theorem fits_empty : Fits empty := nofun

theorem Fits.setSheet (h : b.Fits) (k : Nat) {s : Sheet} {v : Canvas} (hv : b.canvas s.target = some v)
    (hpending : ∀ p, (s.pending p).isSome → v.Has p) : (b.setSheet k (some s)).Fits := by
  intro j s' hs'
  obtain ⟨-, heq⟩ | ⟨-, hfound⟩ := found_setSheet hs'
  · cases heq
    exact ⟨v, hv, hpending⟩
  · exact h j s' hfound

/-- Cells may stop to be pending. -/
theorem Fits.fewer (h : b.Fits) {k : Nat} {s s' : Sheet} (hs : b.sheet k = some s) (htarget : s'.target = s.target)
    (hfewer : ∀ p, (s'.pending p).isSome → (s.pending p).isSome) : (b.setSheet k (some s')).Fits := by
  obtain ⟨v, hv, hpending⟩ := h k s hs
  exact h.setSheet k (htarget ▸ hv) fun p hp => hpending p (hfewer p hp)

theorem Fits.drop (h : b.Fits) {k : Nat} {s : Sheet} (hs : b.sheet k = some s) (P : Position → Prop)
    [DecidablePred P] : (b.setSheet k (some (s.drop P))).Fits := by
  refine h.fewer hs rfl fun p hp => ?_
  unfold Sheet.drop at hp
  simp only at hp
  split at hp
  · cases hp
  · exact hp

theorem Fits.clear (h : b.Fits) {k : Nat} {s : Sheet} (hs : b.sheet k = some s) :
    (b.setSheet k (some s.clear)).Fits := h.fewer hs rfl fun _ hp => by cases hp

/-- Cells on the canvas become pending. -/
theorem Fits.queue (h : b.Fits) {k : Nat} {s : Sheet} {v : Canvas} (hs : b.sheet k = some s)
    (hv : b.canvas s.target = some v) {P : Position → Prop} [DecidablePred P] (c : Color) (hP : ∀ p, P p → v.Has p) :
    (b.setSheet k (some (s.queue (stroke P c)))).Fits := by
  refine h.setSheet k hv fun p hp => ?_
  obtain ⟨v', hv', hpending⟩ := h k s hs
  rw [hv] at hv'
  cases hv'
  unfold Sheet.queue stroke at hp
  simp only at hp
  split at hp
  · next hin => exact hP p hin
  · exact hpending p (by rwa [Option.none_or] at hp)

theorem Fits.setCanvas (h : b.Fits) {id : Nat} {v v' : Canvas} (hv : b.canvas id = some v)
    (hwidth : v'.width = v.width) (hheight : v'.height = v.height) : (b.setCanvas id (some v')).Fits := by
  intro k s hs
  obtain ⟨v'', hv'', hpending⟩ := h k s hs
  by_cases heq : id = s.target
  · subst heq
    rw [hv] at hv''
    cases hv''
    refine ⟨v', b.canvas_setCanvas_self _ _, fun p hp => ?_⟩
    unfold Canvas.Has
    rw [hwidth, hheight]
    exact hpending p hp
  · exact ⟨v'', (canvas_setCanvas_ne heq _).trans hv'', hpending⟩

/-- A number without a sheet may get a canvas, or lose it. -/
theorem Fits.setFree (h : b.Fits) {id : Nat} (hfree : ∀ k s, b.sheet k = some s → s.target ≠ id)
    (v : Option Canvas) : (b.setCanvas id v).Fits := by
  intro k s hs
  obtain ⟨v', hv', hpending⟩ := h k s hs
  exact ⟨v', (canvas_setCanvas_ne (Ne.symm (hfree k s hs)) v).trans hv', hpending⟩

theorem Fits.setFresh (h : b.Fits) {id : Nat} (hfresh : b.canvas id = none) (v : Canvas) :
    (b.setCanvas id (some v)).Fits := by
  refine h.setFree (fun k s hs heq => ?_) (some v)
  obtain ⟨v', hv', -⟩ := h k s hs
  rw [heq, hfresh] at hv'
  cases hv'

theorem Fits.closeSheet (h : b.Fits) (k : Nat) : (b.setSheet k none).Fits := by
  intro j s hs
  obtain ⟨-, heq⟩ | ⟨-, hfound⟩ := found_setSheet hs
  · cases heq
  · exact h j s hfound

/-- Acts keep pending cells on their canvas. -/
theorem Fits.does (h : b.Fits) {act : Act} {reply : Except Fault Reply} {b' : Board} (hdoes : b.Does act reply b') :
    b'.Fits := by
  cases hdoes with
  | refused hwhy => exact h
  | absent reply hlacks => exact h
  | set c hv hp => exact h.setCanvas hv rfl rfl
  | fill c hv harea hp hq => exact h.setCanvas hv rfl rfl
  | fillNothing id x y c hempty => exact h
  | apply edits hv => exact h.setCanvas hv rfl rfl
  | mark dirty hv => exact h.setCanvas hv rfl rfl
  | queueCell c hs hv hp => exact h.queue hs hv c fun q hq => hq ▸ hp.has
  | queueRect r c hs hv hn => exact h.queue hs hv c fun q hq => hq.2
  | queueEllipse r c hs hv hn => exact h.queue hs hv c fun q hq => hq.1.2
  | cancel hs hv hp => exact h.drop hs _
  | cancelBeside hs hv hbeside => exact h
  | cancelRect r hs hn => exact h.drop hs _
  | takePending hs hedits => exact h.clear hs
  | applyDraft hs hv hn => exact (h.clear hs).setCanvas hv rfl rfl
  | applyNothing hs hv => exact h.setCanvas hv rfl rfl
  | applyNowhere hs hv => exact h.clear hs
  | commit hs hv hn => exact (h.clear hs).setCanvas hv rfl rfl
  | get hv hp hc => exact h
  | read hs hv hp hc => exact h
  | create name width height hfresh => exact h.setFresh hfresh _
  | adopt image hfresh => exact h.setFresh hfresh _
  | hold id => exact h
  | release id => exact h
  | releaseLast hfree => exact h.setFree hfree none
  | openDraft hv hfresh => exact h.setSheet _ hv nofun
  | closeDraft hs => exact h.closeSheet _
  | @closeLast k s hs hfree =>
    refine (h.closeSheet k).setFree (fun j s' hs' => ?_) none
    obtain ⟨-, heq⟩ | ⟨hne, hfound⟩ := found_setSheet hs'
    · cases heq
    · exact hfree j s' (Ne.symm hne) hfound

/-! ## Runs -/

/-- Acts one after another, with what each of them answers. -/
inductive Runs : Board → List (Act × Except Fault Reply) → Board → Prop
  | done (b : Board) : Runs b [] b
  | act {b b' b'' : Board} {act : Act} {reply : Except Fault Reply} {rest : List (Act × Except Fault Reply)}
    (hdoes : b.Does act reply b') (hrest : Runs b' rest b'') : Runs b ((act, reply) :: rest) b''

theorem Fits.runs {b b' : Board} {trace : List (Act × Except Fault Reply)} (h : b.Fits) (hruns : b.Runs trace b') :
    b'.Fits := by
  induction hruns with
  | done b => exact h
  | act hdoes hrest ih => exact ih (h.does hdoes)

end Board

end ScriptWarden.Texture
