import ScriptWarden.Api.Thing
set_option autoImplicit false

/-!
# API: sounds

Playing a sound takes one unit of its budget; its volume is scaled by a share that trust sets.
-/

namespace ScriptWarden.Api

open Bridge (Action Call Registry TypeEntry required)
open Lua (Value)
open Trust (Effective)

/-- The type of the object that makes sounds. -/
def soundMaker : String := "SoundAPI"

/-- The type of sounds. -/
def soundType : String := "Sound"

/-- What the host plays, at a volume in percent. -/
def Sound.playback (s : Sound) (percent : Effective) : Host.Playback :=
  let scale := Float.ofInt (max (percent.getD 0) 0) / 100
  { sound := s.id, pos := s.pos, volume := s.volume * scale, pitch := s.pitch
    looping := s.looping, attenuation := s.attenuation }

/-- A method on a sound. -/
def onSound (run : Call → Sound → Action Thing (List Value)) : Call → Action Thing (List Value) :=
  on soundType Thing.sound? run

/-- A setter of a sound. -/
def setSound (change : Call → Sound → Except String Sound) : Call → Action Thing (List Value) :=
  onSound fun c s => do
    put c (.sound (← change c s))
    c.self

/-- Play a sound, unless it plays already or the budget is used up. -/
def playSound (c : Call) (s : Sound) : Action Thing (List Value) := do
  if s.playing then return ← c.self
  if ← Action.onServices (·.tryUse .playSound) then
    let percent ← Action.onServices (·.trustValue c.policy .soundVolume)
    Action.edit (·.tell (.play (s.playback percent)))
    put c (.sound { s with playing := true, paused := false })
  c.self

/-- Stop a sound. -/
def stopSound (c : Call) (s : Sound) : Action Thing (List Value) := do
  if s.playing || s.paused then Action.edit (·.tell (.stop s.id))
  put c (.sound { s with playing := false, paused := false })
  c.self

/-- Hold a sound. -/
def pauseSound (c : Call) (s : Sound) : Action Thing (List Value) := do
  if s.playing then
    Action.edit (·.tell (.pause s.id))
    put c (.sound { s with playing := false, paused := true })
  c.self

/-- Register the types of sounds. -/
def registerSounds (r : Registry Thing) (create : String → Thing → Action Thing Value) :
    Registry Thing :=
  let maker : TypeEntry Thing := {}
  let maker := maker.describe "Creates sounds owned by this package."
  let maker := maker.method "newSound" (oneText "id") (on soundMaker Thing.service? fun c _ => do
    return [← create soundType (.sound { id := ← c.text 0 })])
  let t : TypeEntry Thing := {}
  let t := t.describe "A sound the package can position and play."
  let t := t.method "play" [] (onSound playSound)
  let t := t.method "stop" [] (onSound stopSound)
  let t := t.method "pause" [] (onSound pauseSound)
  let t := t.method "isPlaying" [] (onSound fun _ s => truth s.playing)
  let t := t.method "getId" [] (onSound fun _ s => text s.id)
  let t := t.method "getPos" [] (onSound fun _ s => vector s.pos.toList)
  let t := t.methods ["setPos", "pos"] (vec3Overloads "pos") (setSound fun c s => do
    return { s with pos := ← vec3Of c })
  let t := t.method "getVolume" [] (onSound fun _ s => number s.volume)
  let t := t.methods ["setVolume", "volume"] (oneNumber "volume") (setSound fun c s => do
    return { s with volume := clamp 0 1 (← c.num 0) })
  let t := t.method "getPitch" [] (onSound fun _ s => number s.pitch)
  let t := t.methods ["setPitch", "pitch"] (oneNumber "pitch") (setSound fun c s => do
    return { s with pitch := atLeast 0 (← c.num 0) })
  let t := t.method "isLooping" [] (onSound fun _ s => truth s.looping)
  let t := t.methods ["setLoop", "loop"] (oneFlag "looping") (setSound fun c s => do
    return { s with looping := ← c.bool 0 })
  let t := t.method "getAttenuation" [] (onSound fun _ s => number s.attenuation)
  let t := t.methods ["setAttenuation", "attenuation"] (oneNumber "attenuation")
    (setSound fun c s => do return { s with attenuation := atLeast 1 (← c.num 0) })
  (r.register soundMaker maker).register soundType t

end ScriptWarden.Api
