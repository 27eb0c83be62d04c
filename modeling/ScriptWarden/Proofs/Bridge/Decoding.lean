import ScriptWarden.Proofs.Bridge.Quiet
import ScriptWarden.Proofs.Bridge.Selection
set_option autoImplicit false

/-!
# Bridge: accepted arguments decode

A method reads its arguments by their places, apart from the signatures that it declares.  What a parameter takes
can be read as what its type says, so a method that reads in each place what the chosen signature has there never
fails to (`Call.Accepted.fits`).  The reports of those failures begin in one way (`Misread`), and what a method has to
say for itself never begins like that (`Objection.not_misread`).
-/

namespace ScriptWarden.Bridge

variable {κ α β : Type}

/-! ## Reading -/

/-- Reading gives something. -/
def Readable (x : Except String α) : Prop := ∃ a, x = .ok a

theorem readable_pure (a : α) : Readable (pure a) := ⟨a, rfl⟩

theorem Readable.bind {x : Except String α} {f : α → Except String β} (hx : Readable x)
    (hf : ∀ a, Readable (f a)) : Readable (x >>= f) := by
  obtain ⟨a, rfl⟩ := hx
  exact hf a

theorem Readable.map {x : Except String α} (hx : Readable x) (f : α → β) : Readable (f <$> x) := by
  obtain ⟨a, rfl⟩ := hx
  exact ⟨f a, rfl⟩

/-! ## Chosen signatures -/

namespace Call

variable {c : Call} {i : Nat} {name : String}

/-- A call whose signature was chosen among some, because it accepts the arguments. -/
def Accepted (c : Call) (ss : List Signature) : Prop :=
  ∃ s, ss[c.overload]? = some s ∧ Accepts s c.arguments

/-- Do parameters take the arguments of a call, those from number `i` on? -/
def Fits (c : Call) (i : Nat) : Signature → Prop
  | [] => True
  | p :: ps => p.Takes (c.argument i) ∧ c.Fits (i + 1) ps

/-- The chosen one of some signatures, numbered from `k` on, and its parameters. -/
def FitsOne (c : Call) (k : Nat) : List Signature → Prop
  | [] => False
  | s :: ss => (c.overload = k ∧ c.Fits 0 s) ∨ c.FitsOne (k + 1) ss

theorem fits_of_takes {s : Signature} (h : ∀ (j : Nat) p, s[j]? = some p → p.Takes (c.argument (i + j))) :
    c.Fits i s := by
  induction s generalizing i with
  | nil => trivial
  | cons p ps ih =>
    refine ⟨h 0 p rfl, ih fun j q hq => ?_⟩
    rw [Nat.add_right_comm]
    exact h (j + 1) q hq

/-- Each place of an accepted call holds something that its parameter takes. -/
theorem Accepted.fits {ss : List Signature} (h : c.Accepted ss) : c.FitsOne 0 ss := by
  obtain ⟨s, hs, haccepts⟩ := h
  have hfits : c.Fits 0 s := fits_of_takes fun j p hp => by
    rw [Nat.zero_add]
    exact ((accepts_iff s c.arguments).1 haccepts).2 j p hp
  suffices hany : ∀ k j, c.overload = k + j → ss[j]? = some s → c.FitsOne k ss from
    hany 0 c.overload (Nat.zero_add _).symm hs
  clear hs
  induction ss with
  | nil => simp
  | cons s' ss ih =>
    intro k j hj hs'
    cases j with
    | zero =>
      cases hs'
      exact .inl ⟨hj, hfits⟩
    | succ j => exact .inr (ih (k + 1) j (by omega) hs')

/-! ## Accessors -/

theorem readable_read {what : String} {f : Argument → Option α} (h : (f (c.argument i)).isSome) :
    Readable (c.read i what f) := by
  obtain ⟨a, ha⟩ := Option.isSome_iff_exists.1 h
  exact ⟨a, by simp only [read, ha]; rfl⟩

theorem readable_vector {what : String} {f : Argument → Option α} (h : (f (c.argument i)).isSome) :
    Readable (c.vector i what f) := by
  obtain ⟨a, ha⟩ := Option.isSome_iff_exists.1 h
  exact ⟨a, by simp only [vector, ha]; rfl⟩

theorem match_of_takes {t : ArgType} (h : (required name t).Takes (c.argument i)) :
    (matchScore? t (c.argument i)).isSome := (Param.takes_of_required h rfl).2

/-- What a type takes can be read by a reader that covers the type. -/
theorem readable_taken {t : ArgType} {what : String} {f : Argument → Option α}
    (hcovers : ∀ a, (matchScore? t a).isSome → (f a).isSome) (h : (required name t).Takes (c.argument i)) :
    Readable (c.read i what f) := readable_read (hcovers _ (match_of_takes h))

theorem readable_int (h : (required name .integer).Takes (c.argument i)) : Readable (c.int i) :=
  readable_taken (fun a ha => by cases a <;> simp_all [matchScore?, Argument.integer?]) h

theorem readable_num (h : (required name .number).Takes (c.argument i)) : Readable (c.num i) :=
  readable_taken (fun a ha => by cases a <;> simp_all [matchScore?, Argument.number?]) h

theorem readable_bool (h : (required name .boolean).Takes (c.argument i)) : Readable (c.bool i) :=
  readable_taken (fun a ha => by cases a <;> simp_all [matchScore?, Argument.boolean?]) h

theorem readable_text (h : (required name .string).Takes (c.argument i)) : Readable (c.text i) :=
  readable_taken (fun a ha => by cases a <;> simp_all [matchScore?, Argument.text?]) h

theorem readable_function (h : (required name .function).Takes (c.argument i)) :
    Readable (c.function i) :=
  readable_taken (fun a ha => by cases a <;> simp_all [matchScore?, Argument.function?]) h

theorem readable_vec3 (h : (required name .vec3).Takes (c.argument i)) : Readable (c.vec3 i) := by
  have hmatch := match_of_takes h
  refine readable_vector ?_
  unfold matchScore? at hmatch
  split at hmatch <;> simp_all [Argument.vec3?]

theorem readable_vec4 (h : (required name .vec4).Takes (c.argument i)) : Readable (c.vec4 i) := by
  have hmatch := match_of_takes h
  refine readable_vector ?_
  unfold matchScore? at hmatch
  split at hmatch <;> simp_all [Argument.vec4?]

/-- An argument that may be left out is read only if it is there. -/
theorem readable_optional {t : ArgType} {f : Call → Nat → Except String α}
    (h : (Bridge.optional name t).Takes (c.argument i))
    (hf : (required name t).Takes (c.argument i) → Readable (f c i)) : Readable (c.optional i f) := by
  unfold Call.optional
  split
  · exact readable_pure _
  · next hgiven =>
    refine (hf ?_).map _
    unfold Param.Takes at h ⊢
    rw [if_neg hgiven] at h ⊢
    exact h

/-- An object that is taken is of the type that is asked for. -/
theorem object_of_takes {type : String} (h : (required name (.object type)).Takes (c.argument i)) :
    ∃ state, c.argument i = .object type state := by
  have hmatch := match_of_takes h
  cases ha : c.argument i with
  | object found state =>
    have hfound : found = type := by
      by_contra hne
      simp [ha, matchScore?, hne] at hmatch
    exact ⟨state, by rw [hfound]⟩
  | _ => simp [ha, matchScore?] at hmatch

end Call

/-! ## Reports -/

/-- Is a text the report of a method that could not read what it was given: an argument, or the object itself? -/
def Misread (method type message : String) : Prop :=
  (∃ rest, message = method ++ ": " ++ ("argument #" ++ rest)) ∨ message = "corrupt " ++ type ++ " object"

/-- Something that a method itself has against a call. -/
def Objection (method message : String) : Prop :=
  ∃ reason : String, message = method ++ ": " ++ reason ∧ reason.toList.head? ≠ some 'a'

section Reports

variable {c : Call} {i : Nat} {what e : String} (type : String)

theorem misread_of_read {f : Argument → Option α} (he : c.read i what f = .error e) :
    Misread c.method type e := by
  unfold Call.read at he
  split at he
  · cases he
  · cases he
    exact .inl ⟨_, by simp only [String.append_assoc]; rfl⟩

theorem misread_of_vector {f : Argument → Option α} (he : c.vector i what f = .error e) :
    Misread c.method type e := by
  unfold Call.vector at he
  split at he
  · cases he
  · cases he
    exact .inl ⟨_, by simp only [String.append_assoc]; rfl⟩
  · cases he
    exact .inl ⟨_, by simp only [String.append_assoc]; rfl⟩

theorem misread_of_object {f : κ → Option α} {w : Lua.World (Package.Services κ)}
    (he : (c.object i f w).1 = .error e) : Misread c.method type e := by
  unfold Call.object at he
  rw [Action.bind_apply] at he
  cases hid : c.stateOf i with
  | error e' =>
    rw [hid] at he
    cases he
    exact misread_of_read type hid
  | ok id =>
    simp only [hid, Action.lift_apply, Action.bind_apply, Action.look] at he
    cases hfound : w.host.states[id]?.bind f with
    | some a =>
      simp only [hfound] at he
      cases he
    | none =>
      simp only [hfound] at he
      cases he
      exact .inl ⟨_, by simp only [String.append_assoc]; rfl⟩

end Reports

theorem head_append {s t : String} {x : Char} (h : s.toList.head? = some x) :
    (s ++ t).toList.head? = some x := by
  rw [String.toList_append, List.head?_append, h]
  rfl

/-- A method's own words begin with another letter. -/
theorem objection_of_head {method reason : String} {x : Char} (h : reason.toList.head? = some x)
    (hx : x ≠ 'a') : Objection method (method ++ ": " ++ reason) :=
  ⟨reason, rfl, by rw [h]; simpa using hx⟩

/-- An objection is never taken for the report of something misread. -/
theorem Objection.not_misread {method type message : String} (h : Objection method message)
    (hmethod : method.toList.head? ≠ some 'c') : ¬ Misread method type message := by
  obtain ⟨reason, rfl, hreason⟩ := h
  rintro (⟨rest, heq⟩ | heq)
  · have hsame : reason.toList = ("argument #" ++ rest).toList := by
      have h := congrArg String.toList heq
      simpa only [String.toList_append, List.append_cancel_left_eq] using h
    rw [hsame] at hreason
    exact hreason (head_append rfl)
  · have hcorrupt : (method ++ ": " ++ reason).toList.head? = some 'c' := by
      rw [heq]
      exact head_append (head_append rfl)
    cases hfirst : method.toList with
    | nil => simp [String.toList_append, hfirst] at hcorrupt
    | cons x rest =>
      have hx : method.toList.head? = some x := by rw [hfirst]; rfl
      exact hmethod (hx.trans ((head_append (head_append hx)).symm.trans hcorrupt))

end ScriptWarden.Bridge
