import ScriptWarden.Proofs.Api.Drawing
import ScriptWarden.Proofs.Package.Spoken
import ScriptWarden.Proofs.Trust.Reach
set_option autoImplicit false

/-!
# Packages: uploads of images

What the host gets of the images of a package is written down as a ledger, the latest upload first, with the number of
each image.  An image that has a name and is not dirty is as the host got it last (`Shown`): nothing but an upload takes
the mark from an image, and only a turn that draws on it, or its own making, puts the mark on.  So an upload leaves the
host with all named images as they are, and an image that nobody draws on is not uploaded again (`uploads_are_current`).
-/

namespace ScriptWarden.Package

open Api (CallStrokes)
open Lua (Value)
open Texture (Gallery Image)
open Trust (Policy)

/-! ## Uploading -/

/-- An image as the host gets it. -/
def cleaned (i : Image) : Image := { i with dirty := false }

theorem cleaned_of_clean {i : Image} (h : i.dirty = false) : cleaned i = i := by
  rw [cleaned, ← h]

/-- The number of an image, and the image that the host gets. -/
abbrev Upload := Nat × Image

/-- An image is not dirty. -/
def Clean {κ : Type} (s : Services κ) (id : Nat) : Prop :=
  ∀ image, s.gallery.image? id = some image → image.dirty = false

namespace Services

variable {κ : Type}

/-- What is uploaded of an image: nothing unless it is dirty. -/
def uploadOf (s : Services κ) (id : Nat) : List Upload :=
  match s.gallery.image? id with
  | some image => if image.dirty then [(id, cleaned image)] else []
  | none => []

/-- What is uploaded of some images, one after the other. -/
def uploadsOf (s : Services κ) : List Nat → List Upload
  | [] => []
  | id :: rest => (s.uploadOne id).uploadsOf rest ++ s.uploadOf id

section One

variable (s : Services κ) (id : Nat)

/-- Either an image is dirty and is uploaded, or nothing happens. -/
theorem uploadOne_cases :
    (∃ image, s.gallery.image? id = some image ∧ image.dirty = true ∧ s.uploadOf id = [(id, cleaned image)] ∧
      s.uploadOne id =
        { s.tell (.upload (cleaned image)) with gallery := s.gallery.editImage id fun _ => cleaned image }) ∨
    Clean s id ∧ s.uploadOf id = [] ∧ s.uploadOne id = s := by
  unfold uploadOne uploadOf Clean
  cases s.gallery.image? id with
  | none => exact .inr ⟨nofun, rfl, rfl⟩
  | some image =>
    simp only
    split
    · next hdirty => exact .inl ⟨image, rfl, hdirty, rfl, rfl⟩
    · next hclean =>
      refine .inr ⟨fun image' himage' => ?_, rfl, rfl⟩
      cases himage'
      simpa using hclean

theorem textures_uploadOne : (s.uploadOne id).textures = s.textures := by
  obtain ⟨image, -, -, -, hone⟩ | ⟨-, -, hone⟩ := s.uploadOne_cases id
  · rw [hone]
    rfl
  · rw [hone]

theorem next_uploadOne : (s.uploadOne id).gallery.next = s.gallery.next := by
  obtain ⟨image, -, -, -, hone⟩ | ⟨-, -, hone⟩ := s.uploadOne_cases id
  · rw [hone]
    rfl
  · rw [hone]

/-- The image is not dirty any more, and the others are as they were. -/
theorem image?_uploadOne (j : Nat) : (s.uploadOne id).gallery.image? j =
    if id = j then (s.gallery.image? j).map cleaned else s.gallery.image? j := by
  obtain ⟨image, himage, -, -, hone⟩ | ⟨hclean, -, hone⟩ := s.uploadOne_cases id
  · rw [hone]
    simp only [Gallery.image?_editImage]
    split
    · next heq =>
      rw [← heq, himage]
      rfl
    · rfl
  · rw [hone]
    split
    · next heq =>
      subst heq
      cases himage : s.gallery.image? id with
      | none => rfl
      | some image => exact congrArg some (cleaned_of_clean (hclean image himage)).symm
    · rfl

/-- The host gets what the ledger says. -/
theorem uploadsIn_uploadOne :
    uploadsIn (s.uploadOne id).outbox = (s.uploadOf id).map (·.2) ++ uploadsIn s.outbox := by
  obtain ⟨image, -, -, hof, hone⟩ | ⟨-, hof, hone⟩ := s.uploadOne_cases id
  · rw [hone, hof]
    rfl
  · rw [hone, hof]
    rfl

theorem clean_uploadOne {j : Nat} (h : id = j ∨ Clean s j) : Clean (s.uploadOne id) j := by
  intro image himage
  rw [image?_uploadOne] at himage
  split at himage
  · obtain ⟨before, -, rfl⟩ := Option.map_eq_some_iff.1 himage
    rfl
  · next hne => exact h.resolve_left hne image himage

end One

section All

variable (s : Services κ) (ids : List Nat)

theorem next_uploadAll : (ids.foldl uploadOne s).gallery.next = s.gallery.next := by
  induction ids generalizing s with
  | nil => rfl
  | cons id rest ih => exact (ih _).trans (s.next_uploadOne id)

theorem textures_uploadAll : (ids.foldl uploadOne s).textures = s.textures := by
  induction ids generalizing s with
  | nil => rfl
  | cons id rest ih => exact (ih _).trans (s.textures_uploadOne id)

theorem uploadsIn_uploadAll :
    uploadsIn (ids.foldl uploadOne s).outbox = (s.uploadsOf ids).map (·.2) ++ uploadsIn s.outbox := by
  induction ids generalizing s with
  | nil => rfl
  | cons id rest ih =>
    rw [List.foldl_cons, ih, uploadsIn_uploadOne, uploadsOf, List.map_append, List.append_assoc]

theorem clean_uploadAll {j : Nat} (h : j ∈ ids ∨ Clean s j) : Clean (ids.foldl uploadOne s) j := by
  induction ids generalizing s with
  | nil => exact h.resolve_left List.not_mem_nil
  | cons id rest ih =>
    refine ih _ ?_
    rw [List.mem_cons, or_assoc] at h
    obtain rfl | hrest | hclean := h
    · exact .inr (s.clean_uploadOne j (.inl rfl))
    · exact .inl hrest
    · exact .inr (s.clean_uploadOne id (.inr hclean))

/-- Only dirty images are uploaded. -/
theorem mem_uploadsOf {u : Upload} (h : u ∈ s.uploadsOf ids) :
    u.1 ∈ ids ∧ ∃ image, s.gallery.image? u.1 = some image ∧ image.dirty = true := by
  induction ids generalizing s with
  | nil => cases h
  | cons id rest ih =>
    obtain hrest | hfirst := List.mem_append.1 h
    · obtain ⟨hmem, image, himage, hdirty⟩ := ih _ hrest
      refine ⟨List.mem_cons_of_mem _ hmem, image, ?_, hdirty⟩
      rw [image?_uploadOne] at himage
      split at himage
      · obtain ⟨before, -, rfl⟩ := Option.map_eq_some_iff.1 himage
        cases hdirty
      · exact himage
    · obtain ⟨image, himage, hdirty, hof, -⟩ | ⟨-, hof, -⟩ := s.uploadOne_cases id
      · rw [hof, List.mem_singleton] at hfirst
        subst hfirst
        exact ⟨List.mem_cons_self, image, himage, hdirty⟩
      · rw [hof] at hfirst
        cases hfirst

end All

end Services

/-! ## The copies of the host -/

section Shown

variable {κ : Type} {ledger : List Upload} {s s' : Services κ}

theorem Hung.uploadOne (h : Hung s) (id : Nat) : Hung (s.uploadOne id) := by
  constructor
  · intro j image himage
    rw [s.next_uploadOne id]
    rw [s.image?_uploadOne id] at himage
    split at himage
    · obtain ⟨before, hbefore, -⟩ := Option.map_eq_some_iff.1 himage
      exact h.lt_next j before hbefore
    · exact h.lt_next j image himage
  · intro name j hname
    rw [s.textures_uploadOne id] at hname
    obtain ⟨image, himage, hnamed⟩ := h.named name j hname
    rw [s.image?_uploadOne id, himage]
    split
    · exact ⟨cleaned image, rfl, hnamed⟩
    · exact ⟨image, rfl, hnamed⟩

/-- An image that has a name and is not dirty is what was uploaded last, of that image and under that name. -/
structure Shown (ledger : List Upload) (s : Services κ) : Prop where
  hung : Hung s
  current : ∀ (name : String) (id : Nat) image, s.textures[name]? = some id → s.gallery.image? id = some image →
    image.dirty = false → ledger.find? (·.1 = id) = some (id, image) ∧
      ledger.find? (·.2.name = name) = some (id, image)

/-- What draws uploads nothing, and what it draws on is dirty. -/
theorem Shown.drawn {targets : Nat → Prop} (h : Shown ledger s) (hdrawn : Drawn targets s s') : Shown ledger s' := by
  refine ⟨hdrawn.hung h.hung, fun name id image hname himage hclean => ?_⟩
  have hbefore : s.gallery.image? id = some image := by
    obtain hsame | ⟨hdirty, -⟩ := hdrawn.image id image himage
    · exact hsame
    · rw [hclean] at hdirty
      cases hdirty
  obtain hsame | hnew := hdrawn.name name id hname
  · exact h.current name id image hsame hbefore hclean
  · exact absurd (h.hung.lt_next id image hbefore) (Nat.not_lt.2 hnew)

/-- An image that has a name is uploaded if it is dirty. -/
theorem Shown.uploadOne (h : Shown ledger s) {name : String} {id : Nat} (hname : s.textures[name]? = some id) :
    Shown (s.uploadOf id ++ ledger) (s.uploadOne id) := by
  have hhung := h.hung.uploadOne id
  obtain ⟨image, himage, -, hof, -⟩ | ⟨-, hof, hone⟩ := s.uploadOne_cases id
  · refine ⟨hhung, fun name' j image' hname' himage' hclean => ?_⟩
    have hnamed : (cleaned image).name = name := by
      obtain ⟨image'', himage'', hnamed⟩ := h.hung.named name id hname
      rw [himage] at himage''
      rw [← hnamed, ← Option.some.inj himage'']
      rfl
    rw [s.textures_uploadOne id] at hname'
    rw [s.image?_uploadOne id] at himage'
    rw [hof, List.singleton_append]
    split at himage'
    · next heq =>
      subst heq
      rw [himage] at himage'
      obtain rfl : cleaned image = image' := Option.some.inj himage'
      obtain rfl := h.hung.name_eq hname hname'
      exact ⟨List.find?_cons_of_pos (by simp), List.find?_cons_of_pos (by simp [hnamed])⟩
    · next hne =>
      have hother : name ≠ name' := by
        rintro rfl
        exact hne (Option.some.inj (hname.symm.trans hname'))
      obtain ⟨hid, hlast⟩ := h.current name' j image' hname' himage' hclean
      rw [List.find?_cons_of_neg (by simpa using hne), List.find?_cons_of_neg (by simpa [hnamed] using hother)]
      exact ⟨hid, hlast⟩
  · rw [hof, hone]
    exact h

/-- Images that have names are uploaded, one after the other. -/
theorem Shown.uploadAll (h : Shown ledger s) (ids : List Nat)
    (hnames : ∀ id ∈ ids, ∃ name : String, s.textures[name]? = some id) :
    Shown (s.uploadsOf ids ++ ledger) (ids.foldl Services.uploadOne s) := by
  induction ids generalizing s ledger with
  | nil => exact h
  | cons id rest ih =>
    obtain ⟨name, hname⟩ := hnames id List.mem_cons_self
    have hrest := ih (h.uploadOne hname) fun id' hid' => by
      rw [s.textures_uploadOne id]
      exact hnames id' (List.mem_cons_of_mem _ hid')
    rw [← List.append_assoc] at hrest
    exact hrest

theorem mem_values {m : Std.ExtTreeMap String Nat} {id : Nat} :
    id ∈ m.values ↔ ∃ name : String, m[name]? = some id := by
  simp only [Trust.values_eq_toList, List.mem_map, Prod.exists, Std.ExtTreeMap.mem_toList_iff_getElem?_eq_some,
    exists_eq_right]

theorem Shown.uploadDirty (h : Shown ledger s) : Shown (s.uploadsOf s.textures.values ++ ledger) s.uploadDirty.2 :=
  h.uploadAll _ fun _ hid => mem_values.1 hid

/-- After an upload of every named image that is dirty, the host has them all as they are. -/
theorem Shown.uploaded (h : Shown ledger s) {name : String} {id : Nat}
    (hname : s.uploadDirty.2.textures[name]? = some id) : ∃ image, s.uploadDirty.2.gallery.image? id = some image ∧
      image.dirty = false ∧ (s.uploadsOf s.textures.values ++ ledger).find? (·.1 = id) = some (id, image) ∧
      (s.uploadsOf s.textures.values ++ ledger).find? (·.2.name = name) = some (id, image) := by
  obtain ⟨image, himage, -⟩ := h.uploadDirty.hung.named name id hname
  have hbefore : s.textures[name]? = some id := by
    rw [← hname]
    exact congrArg (·[name]?) (s.textures_uploadAll s.textures.values).symm
  have hclean := s.clean_uploadAll s.textures.values (.inl (mem_values.2 ⟨name, hbefore⟩)) image himage
  exact ⟨image, himage, hclean, h.uploadDirty.current name id image hname himage hclean⟩

end Shown

/-! ## Turns -/

/-- A turn draws on an image: a script calls a method that does, and the call succeeds. -/
def Turn.Draws (turn : Turn) (policy : Policy) (s : Api.Services) (id : Nat) : Prop :=
  match turn with
  | .call heap type name args =>
    (∃ vs, (Bridge.bridgeCall Api.surface policy type name args ⟨heap, s, none⟩).1 = .ok vs) ∧
      CallStrokes heap s type name args id
  | _ => False

/-- What is uploaded in a turn, the latest first. -/
def Turn.uploads (turn : Turn) (s : Api.Services) : List Upload :=
  match turn with
  | .upload => s.uploadsOf s.textures.values
  | _ => []

/-- What is uploaded in some turns, the latest first. -/
def uploads : List (Policy × Turn) → Api.Services → List Upload
  | [], _ => []
  | (policy, turn) :: rest, s => uploads rest (turn.apply policy s) ++ turn.uploads s

/-- None of some turns draws on an image. -/
def LeftAlone (id : Nat) : List (Policy × Turn) → Api.Services → Prop
  | [], _ => True
  | (policy, turn) :: rest, s => ¬ turn.Draws policy s id ∧ LeftAlone id rest (turn.apply policy s)

section Turns

variable {ledger : List Upload} {s : Api.Services} {id : Nat} (turn : Turn) (policy : Policy)

/-- A call that fails changes nothing, and one that succeeds draws on what it is to draw on. -/
theorem call_drawn (heap : Lua.Heap) (type name : String) (args : List Value) (s : Api.Services) :
    Drawn ((Turn.call heap type name args).Draws policy s) s ((Turn.call heap type name args).apply policy s) := by
  have hdrawn := Api.bridgeCall_draws policy type name args ⟨heap, s, none⟩
  have hatomic := Bridge.atomic_bridgeCall Api.surface_atomic policy type name args ⟨heap, s, none⟩
  unfold Turn.Draws Turn.apply
  simp only
  cases hcall : Bridge.bridgeCall Api.surface policy type name args ⟨heap, s, none⟩ with
  | mk r w =>
    cases r with
    | error e =>
      rw [hatomic e w hcall]
      exact .refl s
    | ok vs =>
      rw [hcall] at hdrawn
      exact hdrawn.mono fun id hstrokes => ⟨⟨vs, rfl⟩, hstrokes⟩

/-- Only one kind of turns uploads images. -/
theorem uploads_of_ne (hturn : turn ≠ .upload) : turn.uploads s = [] := by
  cases turn with
  | upload => exact absurd rfl hturn
  | _ => rfl

/-- The others draw on what they are to draw on. -/
theorem turn_drawn (hturn : turn ≠ .upload) (s : Api.Services) :
    Drawn (turn.Draws policy s) s (turn.apply policy s) := by
  cases turn with
  | call heap type name args => exact call_drawn policy heap type name args s
  | field heap type name state =>
    unfold Turn.apply
    simp only
    split
    · next fieldType get hmember =>
      have hreads : (Bridge.readField get state).Reads :=
        Bridge.Action.reads_bind Bridge.reads_checkAlive fun _ => Api.surface_paints type name _ hmember state
      rw [hreads ⟨heap, s, none⟩]
      exact .refl s
    · exact .refl s
  | method type name =>
    unfold Turn.apply
    simp only
    split
    · exact .refl s
    · exact .of_wall rfl
  | consult c => exact .of_wall (Api.wall_trustValue policy c s)
  | clock => exact .of_wall (Services.tickQuotas_keeps policy s (fun _ _ => rfl) fun _ _ => rfl)
  | taken =>
    unfold Turn.apply
    simp only
    split
    · exact .of_wall rfl
    · exact .refl s
  | shutdown => exact drawn_shutdown s
  | upload => exact absurd rfl hturn
  | _ => exact .of_wall rfl

theorem shown_turn (h : Shown ledger s) : Shown (turn.uploads s ++ ledger) (turn.apply policy s) := by
  by_cases hturn : turn = .upload
  · subst hturn
    exact h.uploadDirty
  · rw [uploads_of_ne turn hturn]
    exact h.drawn (turn_drawn turn policy hturn s)

theorem shown_play (turns : List (Policy × Turn)) (h : Shown ledger s) :
    Shown (uploads turns s ++ ledger) (play s turns) := by
  induction turns generalizing s ledger with
  | nil => exact h
  | cons turn rest ih =>
    have hrest := ih (shown_turn turn.2 turn.1 h)
    rw [← List.append_assoc] at hrest
    exact hrest

theorem uploadsIn_turn (s : Api.Services) :
    uploadsIn (turn.apply policy s).outbox = (turn.uploads s).map (·.2) ++ uploadsIn s.outbox := by
  by_cases hturn : turn = .upload
  · subst hturn
    exact s.uploadsIn_uploadAll s.textures.values
  · rw [uploads_of_ne turn hturn]
    exact (turn_drawn turn policy hturn s).uploads_eq

theorem uploads_append (turns turns' : List (Policy × Turn)) (s : Api.Services) :
    uploads (turns ++ turns') s = uploads turns' (play s turns) ++ uploads turns s := by
  induction turns generalizing s with
  | nil => exact (List.append_nil _).symm
  | cons turn rest ih =>
    rw [List.cons_append, uploads, ih, List.append_assoc]
    rfl

/-- The host gets what the ledger says. -/
theorem uploadsIn_play (turns : List (Policy × Turn)) (s : Api.Services) :
    uploadsIn (play s turns).outbox = (uploads turns s).map (·.2) ++ uploadsIn s.outbox := by
  induction turns generalizing s with
  | nil => rfl
  | cons turn rest ih =>
    refine (ih _).trans ?_
    rw [uploadsIn_turn, uploads, List.map_append, List.append_assoc]

/-- An image that was made and is not dirty. -/
structure Settled (s : Api.Services) (id : Nat) : Prop where
  lt_next : id < s.gallery.next
  clean : Clean s id

/-- A turn that does not draw on such an image leaves it so and does not upload it. -/
theorem settled_turn (h : Settled s id) (halone : ¬ turn.Draws policy s id) :
    Settled (turn.apply policy s) id ∧ ∀ u ∈ turn.uploads s, u.1 ≠ id := by
  by_cases hturn : turn = .upload
  · subst hturn
    refine ⟨⟨?_, s.clean_uploadAll s.textures.values (.inr h.clean)⟩, fun u hu heq => ?_⟩
    · exact (s.next_uploadAll s.textures.values).symm ▸ h.lt_next
    · obtain ⟨-, image, himage, hdirty⟩ := s.mem_uploadsOf s.textures.values hu
      rw [h.clean image (heq ▸ himage)] at hdirty
      cases hdirty
  · have hdrawn := turn_drawn turn policy hturn s
    rw [uploads_of_ne turn hturn]
    refine ⟨⟨Nat.lt_of_lt_of_le h.lt_next hdrawn.next_le, fun image himage => ?_⟩, fun u hu => nomatch hu⟩
    obtain hsame | ⟨-, htarget | hnew⟩ := hdrawn.image id image himage
    · exact h.clean image hsame
    · exact absurd htarget halone
    · exact absurd h.lt_next (Nat.not_lt.2 hnew)

/-- An image that is not dirty is not uploaded before a turn draws on it. -/
theorem settled_play (turns : List (Policy × Turn)) (h : Settled s id) (halone : LeftAlone id turns s) :
    ∀ u ∈ uploads turns s, u.1 ≠ id := by
  induction turns generalizing s with
  | nil => exact fun u hu => nomatch hu
  | cons turn rest ih =>
    obtain ⟨hfirst, hrest⟩ := halone
    obtain ⟨hsettled, hnone⟩ := settled_turn turn.2 turn.1 h hfirst
    intro u hu
    obtain hu | hu := List.mem_append.1 hu
    · exact ih hsettled hrest u hu
    · exact hnone u hu

/-- What was just uploaded is not dirty. -/
theorem settled_of_uploaded (hhung : Hung s) {u : Upload} (hu : u ∈ Turn.upload.uploads s) :
    Settled (Turn.upload.apply policy s) u.1 := by
  obtain ⟨hmem, image, himage, -⟩ := s.mem_uploadsOf s.textures.values hu
  refine ⟨?_, s.clean_uploadAll s.textures.values (.inl hmem)⟩
  exact (s.next_uploadAll s.textures.values).symm ▸ hhung.lt_next u.1 image himage

end Turns

/-! ## Instances -/

section Instances

variable (t : Terms) (policy : Policy) (generation : Nat) (source : Source)

/-- At first there is nothing to upload, and nothing was uploaded. -/
theorem shown_new : Shown [] (Instance.new t policy generation source).services ∧
    uploadsIn (Instance.new t policy generation source).services.outbox = [] := by
  have hwall : wall (Instance.new t policy generation source).services = (.empty t.limits.texturePixels, ∅, []) :=
    Services.new_keeps (f := wall) policy (fun _ _ => rfl) ..
  generalize (Instance.new t policy generation source).services = s at hwall ⊢
  obtain ⟨hgallery, hrest⟩ := Prod.mk.inj hwall
  obtain ⟨htextures, huploads⟩ := Prod.mk.inj hrest
  have himage (id : Nat) : s.gallery.image? id = none := by
    rw [hgallery]
    exact congrArg (Option.map _) Std.ExtTreeMap.getElem?_empty
  have hname (name : String) : s.textures[name]? = none := by
    rw [htextures]
    exact Std.ExtTreeMap.getElem?_empty
  refine ⟨⟨⟨fun id image h => ?_, fun name id h => ?_⟩, fun name id image h => ?_⟩, huploads⟩
  · rw [himage] at h
    cases h
  · rw [hname] at h
    cases h
  · rw [hname] at h
    cases h

/-- When a render succeeds, the last turn is an upload. -/
theorem turns_of_render {i i' : Instance} {delta : Float} (h : i.render t policy delta = (.ok (), i')) :
    ∃ turns, i'.services = Turn.upload.apply policy (play i.services turns) := by
  obtain ⟨turns, -, hdispatch⟩ := dispatch_turns t policy i (.render delta)
  refine ⟨turns.map (policy, ·), ?_⟩
  rw [← hdispatch]
  unfold Instance.render Instance.during at h
  split at h
  · simp only at h
    split at h
    · cases h
    · next heq =>
      cases h
      rw [heq]
      rfl
  · cases h

end Instances

/-- **Uploads of images are current.**  Whatever turns the services of a new package go through, the host gets what the
ledger says, and an image that has a name and is not dirty is what the host got last, of that image and under that name.
An image that was uploaded is not uploaded again before a turn draws on it.  What the host does with an instance,
under whatever trust, is turns; and when a render succeeds, the host has every image that has a name as it is. -/
theorem uploads_are_current (t : Terms) (policy : Policy) (generation : Nat) (source : Source) :
    let i₀ := Instance.new t policy generation source
    (∀ turns : List (Policy × Turn), uploadsIn (play i₀.services turns).outbox = (uploads turns i₀.services).map (·.2) ∧
      Shown (uploads turns i₀.services) (play i₀.services turns)) ∧
    (∀ (before : List (Policy × Turn)) (policy : Policy) (after : List (Policy × Turn)),
      let s := play i₀.services before
      ∀ u ∈ Turn.upload.uploads s, LeftAlone u.1 after (Turn.upload.apply policy s) →
        ∀ u' ∈ uploads after (Turn.upload.apply policy s), u'.1 ≠ u.1) ∧
    (∀ ops : List (Policy × Operation), ∃ parts : List (List Turn), parts.length = ops.length ∧
      (afterAll t i₀ ops).services = play i₀.services (underPolicies ops parts)) ∧
    ∀ (ops : List (Policy × Operation)) (policy : Policy) (delta : Float) (i : Instance),
      (afterAll t i₀ ops).render t policy delta = (.ok (), i) →
        ∃ turns, i.services = play i₀.services turns ∧
          ∀ (name : String) (id : Nat), i.services.textures[name]? = some id →
            ∃ image, i.services.gallery.image? id = some image ∧ image.dirty = false ∧
              (uploads turns i₀.services).find? (·.1 = id) = some (id, image) ∧
              (uploadsIn i.services.outbox).find? (·.name = name) = some image := by
  intro i₀
  obtain ⟨hnew, hnone⟩ := shown_new t policy generation source
  have hshown (turns : List (Policy × Turn)) : Shown (uploads turns i₀.services) (play i₀.services turns) := by
    have hplayed := shown_play turns hnew
    rwa [List.append_nil] at hplayed
  have hsent (turns : List (Policy × Turn)) :
      uploadsIn (play i₀.services turns).outbox = (uploads turns i₀.services).map (·.2) := by
    rw [uploadsIn_play, hnone, List.append_nil]
  refine ⟨fun turns => ⟨hsent turns, hshown turns⟩, fun before policy after => ?_, run_is_play t i₀,
    fun ops policy delta i hrender => ?_⟩
  · exact fun u hu halone => settled_play after (settled_of_uploaded policy (hshown before).hung hu) halone
  · obtain ⟨parts, -, hrun⟩ := run_is_play t i₀ ops
    obtain ⟨rendering, hservices⟩ := turns_of_render t policy hrender
    rw [hrun, ← play_append] at hservices
    generalize underPolicies ops parts ++ rendering = turns at hservices
    have hplay : i.services = play i₀.services (turns ++ [(policy, .upload)]) := by
      rw [hservices, play_append]
      rfl
    refine ⟨turns ++ [(policy, .upload)], hplay, fun name id hname => ?_⟩
    rw [hservices] at hname
    obtain ⟨image, himage, hclean, hid, hlast⟩ := (hshown turns).uploaded hname
    have hledger : uploads (turns ++ [(policy, .upload)]) i₀.services =
        Turn.upload.uploads (play i₀.services turns) ++ uploads turns i₀.services := uploads_append _ _ _
    refine ⟨image, hservices ▸ himage, hclean, hledger ▸ hid, ?_⟩
    rw [hplay, hsent, hledger, List.find?_map]
    exact congrArg (Option.map _) hlast

/-- A script that makes an image. -/
def hanging : String := "textures:newTexture('a', 2, 2)"

theorem hanging_chars : ∃ cs, hanging = String.ofList cs ∧ Speaks cs ∧
    (Turn.upload.uploads (running hanging cs).services).map (·.1) = [0] ∧
    ((running hanging cs).render roomy default 0).1.toBool ∧
    ((running hanging cs).render roomy default 0).2.services.textures["a"]? = some 0 := by
  refine ⟨_, rfl, ?_, ?_, ?_, ?_⟩ <;> decide +kernel

/-- The host gets the image that the script makes with the next render, and not again. -/
theorem hanging_uploaded_once : ∃ i j image,
    (Instance.new roomy default 0 (spoken hanging)).start roomy granting = (.ok (), i) ∧
    i.render roomy default 0 = (.ok (), j) ∧ j.services.gallery.image? 0 = some image ∧
    (uploadsIn j.services.outbox).find? (·.name = "a") = some image ∧
    ∃ u ∈ Turn.upload.uploads i.services,
      ∀ u' ∈ uploads [(default, .upload)] (Turn.upload.apply default i.services), u'.1 ≠ u.1 := by
  obtain ⟨cs, htext, hspeaks, huploads, hok, hname⟩ := hanging_chars
  have hstart := start_spoken htext hspeaks
  obtain ⟨-, honce, hruns, hrenders⟩ := uploads_are_current roomy default 0 (spoken hanging)
  obtain ⟨parts, -, hplay⟩ := hruns [(granting, .start)]
  have hrenders := hrenders [(granting, .start)] default 0
  rw [afterAll_start, hstart] at hplay hrenders
  obtain ⟨turns, -, hcurrent⟩ := hrenders _ (eq_ok_of_toBool hok)
  obtain ⟨image, himage, -, -, hlast⟩ := hcurrent "a" 0 hname
  obtain ⟨u, hu⟩ : ∃ u, u ∈ Turn.upload.uploads (running hanging cs).services := by
    refine List.exists_mem_of_ne_nil _ fun hnil => ?_
    rw [hnil] at huploads
    cases huploads
  have honce := honce (underPolicies [(granting, .start)] parts) default [(default, .upload)] u
  rw [← hplay] at honce
  exact ⟨_, _, image, hstart, eq_ok_of_toBool hok, himage, hlast, u, hu, honce hu ⟨id, trivial⟩⟩

end ScriptWarden.Package
