import ScriptWarden.Decimal.Layout
import ScriptWarden.Diagnostic
import ScriptWarden.Host.Call
import ScriptWarden.Text.Quoted
set_option autoImplicit false

/-!
# Host: a host that only tells

Without an embedding application the calls of packages become log lines, and every request is
answered at once: nobody is there.
-/

namespace ScriptWarden.Host

/-- Shown numbers between brackets. -/
def bracketed (xs : List Float) : String :=
  "[" ++ ", ".intercalate (xs.map Decimal.detailText) ++ "]"

/-- A value that may be missing. -/
def shownOption (shown : Option String) : String :=
  match shown with
  | none => "None"
  | some s => "Some(" ++ s ++ ")"

/-- A truth value. -/
def shownBool (b : Bool) : String := if b then "true" else "false"

/-- Every field of a nameplate. -/
def Nameplate.shown (n : Nameplate) : String :=
  "NameplateState \x7b text: " ++ shownOption (n.text.map Text.quoted)
    ++ ", visible: " ++ shownBool n.visible
    ++ ", shadow: " ++ shownBool n.shadow
    ++ ", outline: " ++ shownBool n.outline
    ++ ", pos: " ++ bracketed n.pos.toList
    ++ ", scale: " ++ bracketed n.scale.toList
    ++ ", background: " ++ shownOption (n.background.map fun v => bracketed v.toList) ++ " \x7d"

/-- What a call is told as. -/
def Call.told : Call → String
  | .play s =>
    "play '" ++ s.sound ++ "' at " ++ bracketed s.pos.toList ++ " volume "
      ++ Decimal.fixedText s.volume 2 ++ " pitch " ++ Decimal.fixedText s.pitch 2
  | .stop sound => "stop '" ++ sound ++ "'"
  | .pause sound => "pause '" ++ sound ++ "'"
  | .spawn p =>
    "particle '" ++ p.name ++ "' #" ++ toString p.handle ++ " at " ++ bracketed p.pos.toList
  | .remove handle => "remove particle #" ++ toString handle
  | .upload image =>
    "upload " ++ image.caption ++ " " ++ toString image.width ++ "x" ++ toString image.height
  | .override kind value =>
    "texture override " ++ kind.name ++ " -> " ++ shownOption (value.map Text.quoted)
  | .nameplate state => "nameplate " ++ state.shown
  | .request _ r => r.method ++ " " ++ r.path ++ " (offline)"

/-- The log line of a call. -/
def Call.narrate (package : String) (c : Call) : Diagnostic :=
  .info ("[host][" ++ package ++ "] " ++ c.told)

/-- How nobody answers. -/
def offlineAnswer (request : Nat) : Completion := ⟨request, 503, "offline"⟩

end ScriptWarden.Host
