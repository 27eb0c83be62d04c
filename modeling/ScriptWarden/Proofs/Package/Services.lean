import ScriptWarden.Package.Services
set_option autoImplicit false

/-!
# Packages: what the host leaves alone

Between two runs of scripts the host consults the owner's trust, lets the budgets of a package pass a tick and uploads
its images.  Each of these touches a few parts of the services only.  What a part is does not matter here: it is
whatever `f` reads of the services, and does not see the lines for the operator, the gate, or the images and what is
uploaded.
-/

namespace ScriptWarden.Package.Services

open Trust (Capability Policy)

section Keeps

variable {κ α : Type} {f : Services κ → α} (policy : Policy) (s : Services κ)

section Notices

variable (hnote : ∀ (s : Services κ) (d : Diagnostic), f (s.note d) = f s)

include hnote

theorem trustValue_keeps (c : Capability) : f (s.trustValue policy c).2 = f s := by
  unfold trustValue
  split
  · rfl
  · exact hnote s _

/-- Some capabilities are asked for, one after the other. -/
theorem consulted_keeps {ask : Services κ → Capability → Services κ}
    (hask : ∀ s c, ask s c = s ∨ ask s c = (s.trustValue policy c).2) (cs : List Capability) :
    f (cs.foldl ask s) = f s := by
  induction cs generalizing s with
  | nil => rfl
  | cons c rest ih =>
    have hfirst : f (ask s c) = f s := by
      obtain h | h := hask s c
      · rw [h]
      · rw [h]
        exact trustValue_keeps policy s hnote c
    exact (ih (ask s c)).trans hfirst

/-- New services are as they are given, but for lines for the operator. -/
theorem new_keeps (package principal : String) (generation : Nat) (limits : Limits)
    (reply : Host.Request → Nat → Option Host.Completion) : f (.new package principal generation limits reply policy) =
      f { package, principal, generation, limits, reply
          gate := .new (policy.resolve principal), gallery := .empty limits.texturePixels } := by
  have hask (s : Services κ) (c : Capability) :
      (if c.refillRule.isSome then (s.trustValue policy c).2 else s) = s ∨
        (if c.refillRule.isSome then (s.trustValue policy c).2 else s) = (s.trustValue policy c).2 := by
    split
    · exact .inr rfl
    · exact .inl rfl
  unfold Services.new
  exact consulted_keeps policy _ hnote hask _

theorem tickQuotas_keeps (hgate : ∀ (s : Services κ) (gate : Quota.Gate), f { s with gate } = f s) :
    f (s.tickQuotas policy) = f s :=
  (hgate _ _).trans (consulted_keeps policy s hnote (fun _ _ => .inr rfl) s.gate.due)

end Notices

theorem uploadDirty_keeps (hemit : ∀ (s : Services κ) (e : Effect), f (s.emit e) = f s)
    (hgallery : ∀ (s : Services κ) (gallery : Texture.Gallery), f { s with gallery } = f s) :
    f s.uploadDirty.2 = f s := by
  have hone (s : Services κ) (id : Nat) : f (s.uploadOne id) = f s := by
    unfold uploadOne
    split
    · split
      · exact (hgallery _ _).trans (hemit s _)
      · rfl
    · rfl
  unfold uploadDirty
  simp only
  generalize s.textures.values = ids
  induction ids generalizing s with
  | nil => rfl
  | cons id rest ih => exact (ih _).trans (hone s id)

end Keeps

end ScriptWarden.Package.Services
