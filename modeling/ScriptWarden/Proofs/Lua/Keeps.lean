import ScriptWarden.Proofs.Lua.Public
set_option autoImplicit false

/-!
# Lua: native functions that keep the guard

A native function *keeps* the guard if it leaves it standing, gives public values and asks for calls with public
values, as long as the answers to those calls are public.  What is built from such functions keeps it, too.
-/

namespace ScriptWarden.Lua

/-! ## Worlds -/

/-- What is watched: the function of the guard, and what it takes for the host to hold public values only. -/
structure Ward (σ : Type) where
  guard : Closure
  host : σ → Prop

/-- The same without a host. -/
def Ward.bare {σ : Type} (ward : Ward σ) : Ward Unit := ⟨ward.guard, fun _ => True⟩

variable {σ : Type} {ward : Ward σ} {shared shared' : Nat → Prop}

/-- The guard stands in a world, and the host holds public values. -/
def World.Guarded (ward : Ward σ) (shared : Nat → Prop) (w : World σ) : Prop :=
  w.heap.Guarded ward.guard shared ∧ ward.host w.host

/-- The guard stands in a later world, where more variables may be shared. -/
def World.Later (ward : Ward σ) (shared : Nat → Prop) (w w' : World σ) : Prop :=
  ∃ shared', Heap.Grows shared shared' w.heap w'.heap ∧ w'.Guarded ward shared'

theorem World.Guarded.later {w : World σ} (hw : w.Guarded ward shared) : w.Later ward shared w :=
  ⟨shared, .refl shared w.heap, hw⟩

theorem World.Later.trans {w₁ w₂ w₃ : World σ} (h : w₁.Later ward shared w₂)
    (h' : ∀ shared', w₂.Guarded ward shared' → w₂.Later ward shared' w₃) :
    w₁.Later ward shared w₃ := by
  obtain ⟨shared₂, hgrows, hw⟩ := h
  obtain ⟨shared₃, hgrows', hw'⟩ := h' shared₂ hw
  exact ⟨shared₃, hgrows.trans hgrows', hw'⟩

/-! ## Outcomes -/

variable {α β : Type} [HasPublic α] [HasPublic β]

/-- Whatever a native function does from a world on keeps the guard.  A function that asks for a call goes on in
whatever world the answer comes with. -/
def Outcome.Keeps (ward : Ward σ) (shared : Nat → Prop) (w : World σ) (o : Outcome σ α) : Prop :=
  match o with
  | .done a w' => w.Later ward shared w' ∧ IsPublic a
  | .fail f w' => w.Later ward shared w' ∧ IsPublic f
  | .ask q resume w' => w.Later ward shared w' ∧ IsPublic q ∧
      ∀ shared' answer w'', w''.Guarded ward shared' → IsPublic answer →
        (resume answer w'').Keeps ward shared' w''

/-- Whatever a native function does keeps the guard. -/
def Native.Keeps (ward : Ward σ) (n : Native σ α) : Prop :=
  ∀ shared w, w.Guarded ward shared → (n w).Keeps ward shared w

namespace Outcome

theorem Keeps.of_later {w w' : World σ} {o : Outcome σ α}
    (h : ∀ shared', w'.Guarded ward shared' → o.Keeps ward shared' w')
    (hw : w.Later ward shared w') : o.Keeps ward shared w := by
  have ⟨shared', _, hw'⟩ := hw
  have ho := h shared' hw'
  cases o with
  | done a w'' => exact ⟨hw.trans fun _ hw' => (h _ hw').1, ho.2⟩
  | fail f w'' => exact ⟨hw.trans fun _ hw' => (h _ hw').1, ho.2⟩
  | ask q resume w'' => exact ⟨hw.trans fun _ hw' => (h _ hw').1, ho.2⟩

theorem Keeps.bind {w : World σ} {o : Outcome σ α} {k : α → World σ → Outcome σ β}
    (h : o.Keeps ward shared w) (hk : ∀ a, IsPublic a → Native.Keeps ward (k a)) :
    (o.bind k).Keeps ward shared w := by
  induction o generalizing w shared with
  | done a w' => exact .of_later (fun shared' hw' => hk a h.2 shared' w' hw') h.1
  | fail f w' => exact h
  | ask q resume w' ih =>
    exact ⟨h.1, h.2.1, fun shared' answer w'' hw'' hanswer =>
      ih answer w'' (h.2.2 shared' answer w'' hw'' hanswer)⟩

/-- The host and the meter of a world are nothing to a function that knows nothing of them. -/
theorem later_lift {h : Heap} {w' : World Unit} {host : σ} {meter : Option Meter}
    (hlater : World.Later ward.bare shared ⟨h, (), none⟩ w') (hhost : ward.host host) :
    World.Later ward shared ⟨h, host, meter⟩ ⟨w'.heap, host, meter⟩ := by
  obtain ⟨shared', hgrows, hw'⟩ := hlater
  exact ⟨shared', hgrows, hw'.1, hhost⟩

theorem Keeps.lift {h : Heap} {o : Outcome Unit α} {host : σ} {meter : Option Meter}
    (ho : o.Keeps ward.bare shared ⟨h, (), none⟩) (hhost : ward.host host) :
    (o.lift host meter).Keeps ward shared ⟨h, host, meter⟩ := by
  induction o generalizing h host meter shared with
  | done a w' => exact ⟨later_lift ho.1 hhost, ho.2⟩
  | fail f w' => exact ⟨later_lift ho.1 hhost, ho.2⟩
  | ask q resume w' ih =>
    refine ⟨later_lift ho.1 hhost, ho.2.1, fun shared' answer w'' hw'' hanswer => ?_⟩
    obtain ⟨h'', host'', meter''⟩ := w''
    exact ih answer _ (ho.2.2 shared' answer _ ⟨hw''.1, trivial⟩ hanswer) hw''.2

end Outcome

/-! ## Native functions -/

namespace Native

theorem keeps_pure {a : α} (ha : IsPublic a) : (pure a : Native σ α).Keeps ward :=
  fun _ _ hw => ⟨hw.later, ha⟩

theorem Keeps.bind {n : Native σ α} {k : α → Native σ β} (h : n.Keeps ward)
    (hk : ∀ a, IsPublic a → (k a).Keeps ward) : (n >>= k).Keeps ward :=
  fun shared w hw => (h shared w hw).bind hk

theorem keeps_ite {c : Prop} [Decidable c] {n n' : Native σ α} (h : n.Keeps ward)
    (h' : n'.Keeps ward) : (if c then n else n').Keeps ward := by
  split
  · exact h
  · exact h'

theorem keeps_heap {f : Heap → α} (hf : ∀ shared h, h.Guarded ward.guard shared → IsPublic (f h)) :
    (heap f : Native σ α).Keeps ward :=
  fun shared w hw => ⟨hw.later, hf shared w.heap hw.1⟩

/-- A look at the heap that shows no values. -/
theorem keeps_look {α : Type} (f : Heap → α) :
    @Keeps σ α (noValues α) ward (heap f) :=
  fun _ _ hw => ⟨hw.later, trivial⟩

theorem keeps_create {f : Heap → α × Heap}
    (hf : ∀ shared h, h.Guarded ward.guard shared → IsPublic (f h).1 ∧
      ∃ shared', Heap.Grows shared shared' h (f h).2 ∧ (f h).2.Guarded ward.guard shared') :
    (create f : Native σ α).Keeps ward := by
  intro shared w hw
  obtain ⟨ha, shared', hgrows, hguarded⟩ := hf shared w.heap hw.1
  exact ⟨⟨shared', hgrows, hguarded, hw.2⟩, ha⟩

/-- A change of the heap that leaves the variables alone. -/
theorem keeps_modifyHeap {f : Heap → Heap}
    (hf : ∀ shared h, h.Guarded ward.guard shared → (f h).Guarded ward.guard shared)
    (hglobals : ∀ h, (f h).globals = h.globals) (hcells : ∀ h, (f h).cells = h.cells) :
    (modifyHeap f : Native σ Unit).Keeps ward :=
  fun shared w hw => ⟨⟨shared, .of_cells (hglobals _) (hcells _), hf shared w.heap hw.1, hw.2⟩, trivial⟩

theorem keeps_host {f : σ → α × σ} (hf : ∀ s, ward.host s → IsPublic (f s).1 ∧ ward.host (f s).2) :
    (host f : Native σ α).Keeps ward :=
  fun shared w hw =>
    ⟨⟨shared, .refl shared w.heap, hw.1, (hf w.host hw.2).2⟩, (hf w.host hw.2).1⟩

theorem keeps_fail {fault : Fault} (hf : IsPublic fault) : (fail fault : Native σ α).Keeps ward :=
  fun _ _ hw => ⟨hw.later, hf⟩

theorem keeps_failHere (message : Bytes) : (failHere message : Native σ α).Keeps ward :=
  keeps_fail (isPublic_here message)

theorem keeps_failText (message : String) : (failText message : Native σ α).Keeps ward :=
  keeps_fail (isPublic_above _ _)

theorem keeps_failArgument (index : Nat) (message : String) :
    (failArgument index message : Native σ α).Keeps ward := keeps_fail (isPublic_argument _ _)

theorem keeps_call {f : Value} {args : List Value} (hf : IsPublic f) (hargs : IsPublic args) :
    (call f args : Native σ (List Value)).Keeps ward := by
  refine fun shared w hw => ⟨hw.later, ⟨hf, hargs⟩, fun shared' answer w' hw' hanswer => ?_⟩
  cases answer with
  | values vs => exact ⟨hw'.later, hanswer⟩
  | raised t => exact ⟨hw'.later, hanswer⟩

theorem keeps_call1 {f : Value} {args : List Value} (hf : IsPublic f) (hargs : IsPublic args) :
    (call1 f args : Native σ Value).Keeps ward :=
  (keeps_call hf hargs).bind fun _ hvs => keeps_pure hvs.headD

theorem keeps_guarded {f : Value} {args : List Value} {handler : Option Value} (hf : IsPublic f)
    (hargs : IsPublic args) (hhandler : IsPublic handler) :
    (guarded f args handler : Native σ Answer).Keeps ward :=
  fun _ _ hw => ⟨hw.later, ⟨hf, hargs, hhandler⟩, fun _ _ _ hw' hanswer => ⟨hw'.later, hanswer⟩⟩

theorem keeps_makeString (size : Nat) (make : Unit → Bytes) :
    (makeString size make : Native σ Value).Keeps ward := by
  intro shared w hw
  unfold makeString
  simp only
  split
  · split
    · exact ⟨hw.later, isPublic_memory⟩
    · refine ⟨⟨shared, .of_cells rfl rfl, hw.1.of_eq rfl rfl rfl rfl rfl, hw.2⟩, isPublic_str _⟩
  · refine ⟨⟨shared, .of_cells rfl rfl, hw.1.of_eq rfl rfl rfl rfl rfl, hw.2⟩, isPublic_str _⟩

theorem keeps_newString (s : Bytes) : (newString s : Native σ Value).Keeps ward :=
  keeps_makeString _ _

theorem Keeps.lift {n : Native Unit α} (h : n.Keeps ward.bare) : (n.lift : Native σ α).Keeps ward :=
  fun shared w hw => (h shared ⟨w.heap, (), none⟩ ⟨hw.1, trivial⟩).lift hw.2

/-! ### Lists -/

theorem keeps_mapM {γ : Type} {f : γ → Native σ α} (hf : ∀ c, (f c).Keeps ward) (cs : List γ) :
    (cs.mapM f).Keeps ward := by
  have hloop : ∀ (cs : List γ) (got : List α), IsPublic got →
      (List.mapM.loop f cs got).Keeps ward := by
    intro cs
    induction cs with
    | nil =>
      intro got hgot
      exact keeps_pure fun a ha => hgot a (List.mem_reverse.1 ha)
    | cons c cs ih =>
      intro got hgot
      exact (hf c).bind fun a ha => ih _ ((isPublic_cons a got).2 ⟨ha, hgot⟩)
  exact hloop cs [] isPublic_emptyList

theorem keeps_forM {γ : Type} {f : γ → Native σ Unit} (hf : ∀ c, (f c).Keeps ward) (cs : List γ) :
    (cs.forM f).Keeps ward := by
  induction cs with
  | nil => exact keeps_pure trivial
  | cons c cs ih => exact (hf c).bind fun _ _ => ih

theorem keeps_foldlM {γ : Type} {f : α → γ → Native σ α}
    (hf : ∀ a c, IsPublic a → (f a c).Keeps ward) (cs : List γ) {a : α} (ha : IsPublic a) :
    (cs.foldlM f a).Keeps ward := by
  induction cs generalizing a with
  | nil => exact keeps_pure ha
  | cons c cs ih => exact (hf a c ha).bind fun _ hb => ih hb

end Native

end ScriptWarden.Lua
