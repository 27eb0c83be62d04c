import ScriptWarden.Bridge.Argument
import ScriptWarden.Host.Call
import ScriptWarden.Quota
import ScriptWarden.Texture.Gallery
import ScriptWarden.Trust.Policy
set_option autoImplicit false

/-!
# Package: services

What the host keeps for one package while it lives, and the operations on it that need the owner's trust.
Nothing here talks to anybody: calls of the host and lines for the operator gather in an outbox.
-/

namespace ScriptWarden.Package

open Trust (Capability Effective Policy)

/-- How much one package may keep. -/
structure Limits where
  logEntries : Nat
  /-- The largest width or height of an image that a script makes. -/
  textureSize : Nat
  texturePixels : Nat
  deriving DecidableEq, Repr, Inhabited

/-- Something for the world outside. -/
inductive Effect where
  /-- A call on behalf of a package. -/
  | call (package : String) (c : Host.Call)
  | notice (d : Diagnostic)
  /-- What a script printed past the log. -/
  | printed (bytes : ByteArray)
  /-- A run of a package's scripts was given up before its end.  Whoever waits for that waits for ever. -/
  | unending (package : String)
  deriving Inhabited

/-- A line of a package's log. -/
structure LogEntry where
  level : String
  message : String
  deriving DecidableEq, Repr, Inhabited

/-- What the host has for a package; `κ` is the state of an object. -/
structure Services (κ : Type) where
  package : String
  principal : String
  /-- The load that the package comes from. -/
  generation : Nat := 0
  limits : Limits
  /-- The answer of the host to a request, if it has one at once. -/
  reply : Host.Request → Nat → Option Host.Completion := fun _ _ => none
  gate : Quota.Gate
  log : List LogEntry := []
  gallery : Texture.Gallery
  /-- Images by name. -/
  textures : Std.ExtTreeMap String Nat := ∅
  nameplate : Host.Nameplate := {}
  mailbox : Host.Mailbox := {}
  nextHandle : Nat := 1
  /-- Functions registered for each event. -/
  callbacks : Std.ExtTreeMap String (List Lua.Value) := ∅
  objects : Array Bridge.Object := #[]
  states : Array κ := #[]
  /-- The function of each method that a script has asked for, under its qualified name. -/
  methods : Std.ExtTreeMap String Lua.HostFunction := ∅
  /-- Modules that have not been started. -/
  modules : Std.ExtTreeMap String String := ∅
  /-- What happened for the world outside, the latest first. -/
  outbox : List Effect := []

namespace Services

variable {κ : Type}

/-! ## The outbox -/

/-- Put something into the outbox. -/
def emit (s : Services κ) (e : Effect) : Services κ := { s with outbox := e :: s.outbox }

/-- Tell the host to do something. -/
def tell (s : Services κ) (c : Host.Call) : Services κ := s.emit (.call s.package c)

/-- A line for the operator. -/
def note (s : Services κ) (d : Diagnostic) : Services κ := s.emit (.notice d)

/-- A run of the package's scripts was given up. -/
def giveUp (s : Services κ) : Services κ := s.emit (.unending s.package)

/-- Take everything out of the outbox, the oldest first. -/
def drain (s : Services κ) : List Effect × Services κ :=
  (s.outbox.reverse, { s with outbox := [] })

/-! ## Trust -/

/-- The owner's value, and what the operator hears if it is undefined. -/
def trustValue (s : Services κ) (policy : Policy) (c : Capability) : Effective × Services κ :=
  match policy.resolve s.principal c with
  | some n => (some n, s)
  | none => (none, s.note (Policy.undefinedNotice s.principal c))

/-- Services of a package; its budgets are full. -/
def new (package principal : String) (generation : Nat) (limits : Limits)
    (reply : Host.Request → Nat → Option Host.Completion) (policy : Policy) : Services κ :=
  let s : Services κ :=
    { package, principal, generation, limits, reply
      gate := .new (policy.resolve principal), gallery := .empty limits.texturePixels }
  Capability.all.foldl
    (fun s c => if c.refillRule.isSome then (s.trustValue policy c).2 else s) s

/-- Is a capability without a budget granted?  A refusal is flagged, a grant takes the flag back. -/
def check (s : Services κ) (policy : Policy) (c : Capability) (least : Int) : Bool × Services κ :=
  let (value, s) := s.trustValue policy c
  if value.any fun n => least ≤ n then (true, { s with gate := s.gate.unflag c })
  else (false, { s with gate := s.gate.flag c })

/-- Take one unit of a budget. -/
def tryUse (s : Services κ) (c : Capability) : Bool × Services κ :=
  let (granted, gate) := s.gate.tryUse c
  (granted, { s with gate })

/-- One tick passes for every budget. -/
def tickQuotas (s : Services κ) (policy : Policy) : Services κ :=
  let due := s.gate.due
  let s := due.foldl (fun s c => (s.trustValue policy c).2) s
  { s with gate := s.gate.tick (policy.resolve s.principal) }

/-! ## Life -/

/-- Does the package still run? -/
def alive (s : Services κ) : Bool := s.mailbox.live

/-- The package ends: nothing reaches it any more, and its images have no names. -/
def shutdown (s : Services κ) : Services κ :=
  { s with
    mailbox := s.mailbox.retire
    gallery := s.textures.foldl (fun g _ id => g.release id) s.gallery
    textures := ∅ }

/-- A number for a particle or a request. -/
def takeHandle (s : Services κ) : Nat × Services κ :=
  (s.nextHandle, { s with nextHandle := s.nextHandle + 1 })

/-! ## The log -/

/-- How loud a line of a package is for the operator. -/
def levelOf (level : String) : Level :=
  match level with
  | "error" => .error
  | "warn" => .warn
  | _ => .info

/-- Add a line to the log; the oldest lines go when there are too many. -/
def pushLog (s : Services κ) (level message : String) : Services κ :=
  let log := s.log ++ [⟨level, message⟩]
  { s.note ⟨levelOf level, "[script][" ++ s.package ++ "] " ++ message⟩ with
    log := log.drop (log.length - s.limits.logEntries) }

/-! ## Images -/

/-- Make an image under a name.  An image that had the name loses it. -/
def createTexture (s : Services κ) (name : String) (width height : Nat) :
    Except Texture.Fault (Nat × Services κ) := do
  let (id, gallery) ← s.gallery.create name width height
  let gallery :=
    match s.textures[name]? with
    | some old => gallery.release old
    | none => gallery
  return (id, { s with gallery, textures := s.textures.insert name id })

/-- Is the image to be uploaded? -/
def isDirty (s : Services κ) (id : Nat) : Bool := (s.gallery.image? id).any (·.dirty)

/-- Upload an image if it changed since its last upload. -/
def uploadOne (s : Services κ) (id : Nat) : Services κ :=
  match s.gallery.image? id with
  | some image =>
    if image.dirty then
      let clean := { image with dirty := false }
      { s.tell (.upload clean) with gallery := s.gallery.editImage id fun _ => clean }
    else s
  | none => s

/-- Upload every named image that changed; gives their number. -/
def uploadDirty (s : Services κ) : Nat × Services κ :=
  let ids := s.textures.values
  (ids.countP s.isDirty, ids.foldl uploadOne s)

/-! ## The nameplate -/

/-- Change the nameplate and show it. -/
def editNameplate (s : Services κ) (f : Host.Nameplate → Host.Nameplate) : Services κ :=
  let nameplate := f s.nameplate
  { s with nameplate }.tell (.nameplate nameplate)

/-! ## Requests -/

/-- Send a request; an answer that the host has at once is delivered at once. -/
def send (s : Services κ) (request : Host.Request) : Nat × Services κ :=
  let (id, s) := s.takeHandle
  let s := s.tell (.request ⟨s.package, s.generation, id⟩ request)
  match s.reply request id with
  | some c => (id, { s with mailbox := (s.mailbox.deliver c).2 })
  | none => (id, s)

/-! ## Objects -/

/-- A new state of an object. -/
def newState (s : Services κ) (state : κ) : Nat × Services κ :=
  (s.states.size, { s with states := s.states.push state })

/-- A new object with a state. -/
def newObject (s : Services κ) (o : Bridge.Object) : Lua.Value × Services κ :=
  (.object s.objects.size, { s with objects := s.objects.push o })

end Services

end ScriptWarden.Package
