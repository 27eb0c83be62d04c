import ScriptWarden.Proofs.Lua.Library.List
import ScriptWarden.Proofs.Lua.Library.Math
import ScriptWarden.Proofs.Lua.Library.Text
set_option autoImplicit false

/-!
# Lua: the library keeps the guard

What scripts can call is public, and every public function of the language keeps the guard.  The function behind
the guard changes the metatable of the table it is given and nothing else.
-/

namespace ScriptWarden.Lua.Library

open ScriptWarden.Lua.Native

variable {σ : Type} {ward : Ward σ} {args : List Value}

theorem keeps_builtin {f : Builtin} (hf : f ≠ .setmetatable) (hargs : IsPublic args) :
    (builtin f args : Native σ (List Value)).Keeps ward := by
  unfold builtin
  split
  · exact keeps_base hf hargs
  · exact keeps_list f hargs
  · exact keeps_math f hargs
  · exact keeps_string f hargs

/-- Public functions keep the guard, if those of the host do. -/
theorem keeps_natives {host : HostFunction → List Value → Native σ (List Value)} (collector : Collector)
    (hhost : ∀ f args, IsPublic args → (host f args).Keeps ward) {f : Value} (hf : IsPublic f)
    (hargs : IsPublic args) : (natives host collector f args).Keeps ward := by
  unfold natives
  simp only
  split
  · exact (keeps_builtin hf hargs).lift
  · exact (keeps_matchStep _).lift
  · exact hhost _ _ hargs
  · exact keeps_pure isPublic_emptyList

/-- Changing the metatable of another table than that of globals keeps the guard. -/
theorem keeps_withMetatable {shared : Nat → Prop} {w : World σ} (hw : w.Guarded ward shared) {id : Nat}
    (hid : id ≠ w.heap.globals) (m : Option Nat) :
    ((do
      let locked ← heap (·.metafield (.table id) "__metatable")
      if !locked.isNil then failText "cannot change a protected metatable"
      modifyHeap (·.setMetatable id m)
      return [.table id] : Native σ (List Value)) w).Keeps ward shared w := by
  have hset : ((do
      modifyHeap (·.setMetatable id m)
      return [.table id] : Native σ (List Value)) w).Keeps ward shared w :=
    ⟨⟨shared, grows_setMetatable shared w.heap id m, guarded_setMetatable hw.1 hid m, hw.2⟩, by simp⟩
  change ((if _ then failText _ >>= fun _ => _ else _ : Native σ (List Value)) w).Keeps ward shared w
  split
  · exact keeps_failText _ shared w hw
  · exact hset

/-- The function behind the guard keeps it, too, as long as it is not given the global table. -/
theorem keeps_setMetatable {shared : Nat → Prop} {w : World σ} (hw : w.Guarded ward shared)
    (hglobals : arg args 1 ≠ .table w.heap.globals) :
    (setMetatable args w).Keeps ward shared w := by
  unfold setMetatable tableArg
  split
  · next id harg =>
    have hid : id ≠ w.heap.globals := fun heq => hglobals (by rw [harg, heq])
    generalize arg? args 2 = meta?
    match meta? with
    | some .nil => exact keeps_withMetatable hw hid none
    | some (.table m) => exact keeps_withMetatable hw hid (some m)
    | none | some (.bool _) | some (.int _) | some (.float _) | some (.str _) | some (.closure _)
    | some (.builtin _) | some (.matcher _) | some (.host _) | some (.object _) | some (.raised _) =>
      exact ⟨hw.later, isPublic_argument _ _⟩
  · exact ⟨hw.later, isPublic_argument _ _⟩

end ScriptWarden.Lua.Library
