import ScriptWarden.Bridge.Natives
import ScriptWarden.Proofs.Lua.Stop
set_option autoImplicit false

/-!
# Bridge: errors pass

Functions of the host call functions of scripts to start modules and to show values.  An error of the host
that comes back from such a call goes on to the script that called them.
-/

namespace ScriptWarden

open Lua (Native Value World)
open Package (Services)

namespace Lua.Native

variable {σ α β : Type}

/-- Whatever a native function asks for, it passes errors of the host on. -/
def Forwards (n : Native σ α) : Prop := ∀ w, (n w).Forwards

theorem Forwards.bind {n : Native σ α} {k : α → Native σ β} (h : n.Forwards)
    (hk : ∀ a, (k a).Forwards) : (n >>= k).Forwards := fun w => (h w).bind hk

/-- What knows nothing of the host passes errors of the host on as well in a program with one. -/
theorem Forwards.lift {n : Native Unit α} (h : n.Forwards) : (n.lift : Native σ α).Forwards := by
  have houtcome : ∀ (o : Outcome Unit α) (host : σ) meter, o.Forwards → (o.lift host meter).Forwards := by
    intro o
    induction o with
    | done a w => exact fun _ _ _ => trivial
    | fail f w => exact fun _ _ _ => trivial
    | ask q resume w ih =>
      intro host meter ho
      refine ⟨?_, fun answer w' => ih answer _ _ _ (ho.2 answer _)⟩
      cases q with
      | call f args => trivial
      | guarded f args handler =>
        refine ⟨ho.1.1, fun id e w' hid => ?_⟩
        obtain ⟨id', heap, hresume, hid'⟩ := ho.1.2 id e ⟨w'.heap, (), none⟩ hid
        refine ⟨id', heap, ?_, hid'⟩
        simp only [hresume]
        rfl
  exact fun w => houtcome _ _ _ (h _)

end Lua.Native

namespace Bridge

variable {κ α : Type}

end Bridge

end ScriptWarden
