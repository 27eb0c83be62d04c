import ScriptWarden.Proofs.Api.Public
import ScriptWarden.Proofs.Script.Boot
import ScriptWarden.Package.Instance
set_option autoImplicit false

/-!
# Scripts: what the host puts in

After the sandbox script the host puts in what packages may use.  All of it is public, so the guard still stands when
the first code of a package runs (`guarded_setUp`); and no table has a finalizer until then (`unmarked_setUp`).
-/

namespace ScriptWarden.Script

open Api (Thing)
open Lua (Closure Heap IsPublic Table Value)
open Package (Instance Modules Terms)
open Trust (Policy)

variable {guard : Closure} {shared : Nat → Prop}

/-! ## Natives -/

/-- What scripts of a package can call, from the sandbox script on. -/
theorem confined_natives (t : Terms) (policy : Policy) :
    Lua.Machine.Confined (Package.ward Thing sandboxGuard) (t.setting policy).natives where
  guard := isGuard_sandbox
  isPublic _ _ hf hargs := Bridge.keeps_natives (Api.surface_keeps sandboxGuard) policy t.collector hf hargs
  secret _ := rfl
  error _ := rfl

/-! ## Globals -/

theorem guarded_setGlobal {h : Heap} (hh : h.Guarded guard shared) (name : String) {v : Value}
    (hv : IsPublic v) : (setGlobal name v h).Guarded guard shared :=
  hh.rawSet h.globals (Lua.isPublic_text name) hv

theorem public_setText {t : Table} (ht : IsPublic t) (name : String) {v : Value} (hv : IsPublic v) :
    IsPublic (t.setText name v) := ht.setKey Lua.isPublic_nil _ (Lua.isPublic_text name) hv

theorem guarded_installOutput {h : Heap} (hh : h.Guarded guard shared) {stringifier : Value}
    (hstringifier : IsPublic stringifier) : (installOutput stringifier h).Guarded guard shared := by
  have hstored : Heap.Guarded guard shared { h with stringifier } := { hh with stringifier := hstringifier }
  have hcall : IsPublic (({} : Table).setText "__call" (.host .outputCall)) :=
    public_setText Api.only_empty _ (Lua.isPublic_host _)
  have hinfo := public_setText Api.only_empty "info" (Lua.isPublic_host (.output "info"))
  have hwarn := public_setText hinfo "warn" (Lua.isPublic_host (.output "warn"))
  have hlog := public_setText hwarn "error" (Lua.isPublic_host (.output "error"))
  have hprint := guarded_setGlobal hstored "print" (Lua.isPublic_host (.output "info"))
  exact guarded_setGlobal ((hprint.newTable hcall).newTable (hlog.withMetatable _)) "log"
    (Lua.isPublic_table _)

/-- Global objects are public. -/
theorem guarded_installObjects {w : Vm Thing} (hw : w.Guarded (Package.ward Thing guard) shared) :
    ∃ shared', (installObjects w).Guarded (Package.ward Thing guard) shared' := by
  unfold installObjects
  generalize Api.globalObjects = objects
  induction objects generalizing w shared with
  | nil => exact ⟨shared, hw⟩
  | cons object rest ih =>
    obtain ⟨name, type⟩ := object
    have hcreate : (Api.create type .service).Keeps guard := Api.keeps_create type .service
    obtain ⟨⟨shared', -, hlater⟩, hresult⟩ := hcreate shared w hw
    simp only [List.foldl_cons]
    generalize Api.create type .service w = created at hlater hresult
    obtain ⟨r, w'⟩ := created
    cases r with
    | error message => exact ih hlater
    | ok v => exact ih ⟨guarded_setGlobal hlater.1 name ((Lua.isPublic_ok v).1 hresult), hlater.2⟩

/-! ## Everything -/

theorem guarded_install {w w' : Vm Thing} (hw : w.Guarded (Package.ward Thing guard) shared)
    (h : install w = (.ok (), w')) : ∃ shared', w'.Guarded (Package.ward Thing guard) shared' := by
  obtain ⟨heap, services, meter⟩ := w
  unfold install at h
  simp only at h
  split at h
  · obtain ⟨-, rfl⟩ := Prod.mk.inj h
    have hstringifier : IsPublic (heap.rawGet heap.globals (.text "tostring")) := hw.1.public_get _ _
    exact guarded_installObjects ⟨guarded_installOutput hw.1 hstringifier, hw.2⟩
  · cases h

/-- The guard stands when the first code of a package runs. -/
theorem guarded_setUp {t : Terms} (hsandbox : t.sandbox = builtinSandbox) {s : Setting Thing}
    {modules : Modules} {services : Api.Services} (hpublic : services.Public) {w : Vm Thing}
    (h : Instance.setUp s t modules services = (.ok (), w)) :
    ∃ shared, w.Guarded (Package.ward Thing sandboxGuard) shared := by
  unfold Instance.setUp at h
  rw [hsandbox] at h
  split at h
  · cases h
  · next booted hboot =>
    have hbooted := boot_guarded hpublic hboot
    split at h
    · cases h
    · next heap services' meter hinstall =>
      obtain ⟨shared, hinstalled⟩ := guarded_install hbooted hinstall
      obtain ⟨-, rfl⟩ := Prod.mk.inj h
      exact ⟨shared, guarded_setGlobal hinstalled.1 "require" (Lua.isPublic_host _), hinstalled.2⟩

/-! ## Finalizers -/

theorem marked_installObjects (w : Vm Thing) : (installObjects w).heap.marked = w.heap.marked := by
  unfold installObjects
  generalize Api.globalObjects = objects
  induction objects generalizing w with
  | nil => rfl
  | cons object rest ih =>
    simp only [List.foldl_cons]
    exact ih ⟨setGlobal object.1 _ w.heap, (Api.create object.2 .service w).2.host, w.meter⟩

theorem marked_install {w w' : Vm Thing} (h : install w = (.ok (), w')) : w'.heap.marked = w.heap.marked := by
  obtain ⟨heap, services, meter⟩ := w
  unfold install at h
  simp only at h
  split at h
  · obtain ⟨-, rfl⟩ := Prod.mk.inj h
    exact marked_installObjects ⟨installOutput _ heap, services, meter⟩
  · cases h

/-- No table has a finalizer when the first code of a package runs. -/
theorem unmarked_setUp {t : Terms} (hsandbox : t.sandbox = builtinSandbox) {s : Setting Thing} {modules : Modules}
    {services : Api.Services} {w : Vm Thing} (h : Instance.setUp s t modules services = (.ok (), w)) :
    w.heap.marked = [] := by
  unfold Instance.setUp at h
  rw [hsandbox] at h
  split at h
  · cases h
  · next booted hboot =>
    obtain ⟨taken, rfl⟩ := sandboxed_of_boot s t.memory services hboot
    split at h
    · cases h
    · next heap services' meter hinstall =>
      obtain ⟨-, rfl⟩ := Prod.mk.inj h
      exact marked_install hinstall

end ScriptWarden.Script
