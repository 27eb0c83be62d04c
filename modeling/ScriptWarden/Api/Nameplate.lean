import ScriptWarden.Api.Thing
set_option autoImplicit false

/-!
# API: the nameplate

Every change needs the owner's trust; one that is refused is dropped without an error.
-/

namespace ScriptWarden.Api

open Bridge (Action Call Registry Signature TypeEntry optional required)
open Lua (Value)

/-- The type of the nameplate. -/
def nameplateType : String := "NameplateAPI"

/-- A method on the nameplate. -/
def onNameplate (run : Call → Action Thing (List Value)) : Call → Action Thing (List Value) :=
  on nameplateType Thing.service? fun c _ => run c

/-- A method that shows a part of the nameplate. -/
def showNameplate (run : Host.Nameplate → Action Thing (List Value)) :
    Call → Action Thing (List Value) :=
  onNameplate fun _ => do run (← Action.look (·.nameplate))

/-- A method that changes the nameplate if the owner may. -/
def setNameplate {α : Type} (read : Call → Except String α)
    (change : α → Host.Nameplate → Host.Nameplate) : Call → Action Thing (List Value) :=
  onNameplate fun c => do
    let a ← read c
    if ← Action.onServices (·.check c.policy .nameplateEdit 1) then
      Action.edit (·.editNameplate (change a))
    c.self

/-- A colour as a vector, with the share of it apart, or its numbers. -/
def backgroundOverloads : List Signature :=
  let loose := [required "r" .number, required "g" .number, required "b" .number]
  [[required "rgb" .vec3], [required "rgba" .vec4], [required "rgb" .vec3, required "a" .number],
    loose, loose ++ [required "a" .number]]

/-- The colour of a call with those parameters. -/
def backgroundOf (c : Call) : Except String Vec4 := do
  let color ←
    match c.overload with
    | 0 => do pure (opaqueColor (← c.vec3 0))
    | 1 => c.vec4 0
    | 2 => do
      let v ← c.vec3 0
      pure ⟨v.x, v.y, v.z, ← c.num 1⟩
    | 3 => do pure ⟨← c.num 0, ← c.num 1, ← c.num 2, 1⟩
    | _ => do pure ⟨← c.num 0, ← c.num 1, ← c.num 2, ← c.num 3⟩
  return clampColor color

/-- Register the type of the nameplate. -/
def registerNameplate (r : Registry Thing) : Registry Thing :=
  let t : TypeEntry Thing := {}
  let t := t.describe "Customises the owner's nameplate."
  let t := t.method "getText" [] (showNameplate fun n =>
    return [n.text.map Value.text |>.getD .nil])
  let t := t.methods ["setText", "text"] [[optional "text" .string]]
    (setNameplate (fun c => c.optional 0 Call.text) fun text n => { n with text })
  let t := t.method "isVisible" [] (showNameplate fun n => truth n.visible)
  let t := t.methods ["setVisible", "visible"] (oneFlag "visible")
    (setNameplate (·.bool 0) fun visible n => { n with visible })
  let t := t.method "hasShadow" [] (showNameplate fun n => truth n.shadow)
  let t := t.methods ["setShadow", "shadow"] (oneFlag "shadow")
    (setNameplate (·.bool 0) fun shadow n => { n with shadow })
  let t := t.method "hasOutline" [] (showNameplate fun n => truth n.outline)
  let t := t.methods ["setOutline", "outline"] (oneFlag "outline")
    (setNameplate (·.bool 0) fun outline n => { n with outline })
  let t := t.method "getPos" [] (showNameplate fun n => vector n.pos.toList)
  let t := t.methods ["setPos", "pos"] (vec3Overloads "pos")
    (setNameplate vec3Of fun pos n => { n with pos })
  let t := t.method "getScale" [] (showNameplate fun n => vector n.scale.toList)
  let t := t.methods ["setScale", "scale"] (vec3Overloads "scale")
    (setNameplate vec3Of fun scale n => { n with scale })
  let t := t.method "getBackgroundColor" [] (showNameplate fun n =>
    match n.background with
    | some v => vector v.toList
    | none => return [.nil])
  let t := t.methods ["setBackgroundColor", "backgroundColor"] backgroundOverloads
    (setNameplate backgroundOf fun color n => { n with background := some color })
  r.register nameplateType t

end ScriptWarden.Api
