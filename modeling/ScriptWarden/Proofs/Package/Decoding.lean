import ScriptWarden.Proofs.Package.Globals
import ScriptWarden.Proofs.Package.History
set_option autoImplicit false

/-!
# Packages: accepted arguments decode

A method reads its arguments by their places and as what it expects there, without another look at the signature that
was chosen for the call, and takes an object for what its type says.  Whatever the scripts of a package did before, a
method whose signatures accept a call reads all of it (`accepted_arguments_decode`).
-/

namespace ScriptWarden.Package

open Api (Thing)
open Bridge (Action Call Misread Signature)
open Lua (Value)
open Script (Vm)
open Trust (Policy)

/-- The call of a method on an object once a signature was chosen, with the values that a script passed. -/
def callOn (w : Vm Thing) (type name : String) (id state overload : Nat) (values : List Value) (policy : Policy) :
    Call :=
  { method := type ++ ":" ++ name, this := .object id, state, overload
    arguments := Bridge.trimmed (values.map (Bridge.seen w)), values, policy }

/-- That is what the call of a script comes to, in a package that has not ended. -/
theorem bridgeCall_eq {type name : String} {overloads : List Signature} {run : Call → Action Thing (List Value)}
    (hmember : Api.surface.member? type name = some (.method overloads run)) (policy : Policy) (w : Vm Thing)
    (halive : w.host.alive = true) {id state overload : Nat}
    (hreceiver : w.host.objects[id]? = some ⟨type, state⟩) (values : List Value)
    (hselect : Bridge.select overloads (Bridge.trimmed (values.map (Bridge.seen w))) = .ok overload) :
    Bridge.bridgeCall Api.surface policy type name (.object id :: values) w =
      run (callOn w type name id state overload values policy) w := by
  have hseen : Bridge.seen w (.object id) = .object type state := by
    simp [Bridge.seen, Bridge.Argument.ofValue, hreceiver]
  have hcalls : Bridge.bridgeCall Api.surface policy type name (.object id :: values) w =
      Bridge.callMethod Api.surface policy type name (.object id) values state (values.map (Bridge.seen w)) w := by
    simp only [Bridge.bridgeCall, Action.bind_apply, Bridge.seenAll, List.map_cons, hseen, List.headD_cons,
      List.tail_cons, if_true]
  have hchecks : Bridge.checkAlive w = (.ok (), w) := by
    simp only [Bridge.checkAlive, Action.bind_apply, Action.look, halive]
    rfl
  rw [hcalls, Bridge.callMethod, Action.bind_apply, hchecks]
  simp only [hmember, hselect]
  rfl

/-- **Accepted arguments always decode.**  Whatever the scripts of a package have done since it was set up, let a
method be called on an object of its type, with arguments that one of its signatures accepts.  If it fails, then not
because it could not read an argument or the object. -/
theorem accepted_arguments_decode {t : Terms} {modules : Modules} {names : List String} {a b : Activity}
    (hsetUp : SetUp t modules a) (hhistory : History t names a b) {type name : String} {overloads : List Signature}
    {run : Call → Action Thing (List Value)}
    (hmember : Api.surface.member? type name = some (.method overloads run)) {w : Vm Thing}
    (hworld : w.host = b.world.host) {id state : Nat} (hreceiver : w.host.objects[id]? = some ⟨type, state⟩)
    (values : List Value) {overload : Nat}
    (hselect : Bridge.select overloads (Bridge.trimmed (values.map (Bridge.seen w))) = .ok overload)
    (policy : Policy) {e : String} {w' : Vm Thing}
    (hfails : run (callOn w type name id state overload values policy) w = (.error e, w')) :
    ¬ Misread (type ++ ":" ++ name) type e := by
  have htyped : Api.Typed w.host := hworld ▸ (stands_of_history hsetUp hhistory).typed
  exact Api.accepted_decodes hmember htyped rfl hreceiver rfl hselect hfails

/-- The name and the size of an image that cannot be. -/
def noSize : List Value := [.str ByteArray.empty, .int 0, .int 3]

/-- What a script gets that asks for that image in a package without modules. -/
def refusedSize : Except String (List Value) × Vm Thing :=
  Bridge.bridgeCall Api.surface default Api.textureMaker "newTexture" (.object 2 :: noSize) bareWorld

/-- The size is read, and refused. -/
theorem noSize_decodes :
    ∃ e, refusedSize.1 = .error e ∧ ¬ Misread (Api.textureMaker ++ ":" ++ "newTexture") Api.textureMaker e := by
  have hmember : Api.surface.member? Api.textureMaker "newTexture" =
      some (.method [Bridge.required "name" .string :: Api.integers ["width", "height"]]
        (Api.on Api.textureMaker Thing.service? fun c _ => Api.newTexture Api.create c)) := rfl
  have hready : Instance.setUp (unlimited.setting default) unlimited ∅ idleServices = (.ok (), bareWorld) :=
    setUp_of_install boot_bare install_bare
  have hsetUp : SetUp unlimited ∅ (.idle [] bareWorld) := .ready rfl rfl hready
  have hworld : bareWorld.host = (Activity.idle [] bareWorld).world.host := by rw [Activity.world_idle]
  have halive : bareWorld.host.alive = true := by decide +kernel
  have hreceiver : bareWorld.host.objects[2]? = some ⟨Api.textureMaker, 2⟩ := by decide +kernel
  have hselect : Bridge.select [Bridge.required "name" .string :: Api.integers ["width", "height"]]
      (Bridge.trimmed (noSize.map (Bridge.seen bareWorld))) = .ok 0 := by decide +kernel
  have hrefused : refusedSize.1.toBool = false := by decide +kernel
  have hcall : refusedSize = _ := bridgeCall_eq hmember default bareWorld halive hreceiver noSize hselect
  cases hresult : refusedSize with
  | mk r w =>
    rw [hresult] at hrefused hcall
    cases r with
    | ok values => cases hrefused
    | error e =>
      exact ⟨e, rfl, accepted_arguments_decode hsetUp (.refl _) hmember hworld hreceiver noSize hselect default
        hcall.symm⟩

end ScriptWarden.Package
