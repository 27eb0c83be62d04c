import Std.Data.ExtTreeMap
set_option autoImplicit false

/-!
# Trust: capabilities and groups

The closed set of things a package may ask the host for, and the five tiers its owner may stand in.
Both are ordered by declaration; that order is the one of every listing.
-/

namespace ScriptWarden.Trust

/-- A privileged operation.  The first three are ceilings on executed instructions. -/
inductive Capability where
  | initInstructions
  | tickInstructions
  | renderInstructions
  | spawnParticle
  | playSound
  /-- Percentage applied to every volume a script asks for. -/
  | soundVolume
  | networkCall
  | renderOverride
  | nameplateEdit
  deriving DecidableEq, Repr, Inhabited

/-- How a bounded capability refills: at most `maximum` units, given out anew every `interval`
ticks. -/
structure RefillRule where
  maximum : Int
  interval : Nat
  deriving DecidableEq, Repr, Inhabited

namespace Capability

/-- Every capability, in declared order. -/
def all : List Capability :=
  [.initInstructions, .tickInstructions, .renderInstructions, .spawnParticle, .playSound,
    .soundVolume, .networkCall, .renderOverride, .nameplateEdit]

/-- Position in declared order. -/
def index : Capability → Nat
  | .initInstructions => 0
  | .tickInstructions => 1
  | .renderInstructions => 2
  | .spawnParticle => 3
  | .playSound => 4
  | .soundVolume => 5
  | .networkCall => 6
  | .renderOverride => 7
  | .nameplateEdit => 8

/-- The name that files keep. -/
def name : Capability → String
  | .initInstructions => "INIT_INSTRUCTIONS"
  | .tickInstructions => "TICK_INSTRUCTIONS"
  | .renderInstructions => "RENDER_INSTRUCTIONS"
  | .spawnParticle => "SPAWN_PARTICLE"
  | .playSound => "PLAY_SOUND"
  | .soundVolume => "SOUND_VOLUME"
  | .networkCall => "NETWORK_CALL"
  | .renderOverride => "RENDER_OVERRIDE"
  | .nameplateEdit => "NAMEPLATE_EDIT"

/-- The name as one word in mixed case, as log lines show it. -/
def label : Capability → String
  | .initInstructions => "InitInstructions"
  | .tickInstructions => "TickInstructions"
  | .renderInstructions => "RenderInstructions"
  | .spawnParticle => "SpawnParticle"
  | .playSound => "PlaySound"
  | .soundVolume => "SoundVolume"
  | .networkCall => "NetworkCall"
  | .renderOverride => "RenderOverride"
  | .nameplateEdit => "NameplateEdit"

/-- The capability of a name. -/
def ofName? (s : String) : Option Capability := all.find? fun c => c.name == s

/-- One line of help. -/
def description : Capability → String
  | .initInstructions => "Instructions allowed while the package initialises"
  | .tickInstructions => "Instructions allowed per tick event"
  | .renderInstructions => "Instructions allowed per render event"
  | .spawnParticle => "Particles spawned per tick"
  | .playSound => "Sounds started per second"
  | .soundVolume => "Volume percentage applied to package sounds"
  | .networkCall => "Network requests per second"
  | .renderOverride => "May override rendered textures"
  | .nameplateEdit => "May edit the owner's nameplate"

/-- The refill rule of a capability that draws on a shared resource. -/
def refillRule : Capability → Option RefillRule
  | .spawnParticle => some ⟨1000, 1⟩
  | .playSound => some ⟨100, 20⟩
  | .networkCall => some ⟨20, 20⟩
  | _ => none

theorem mem_all (c : Capability) : c ∈ all := by cases c <;> decide

theorem ofName?_name (c : Capability) : ofName? c.name = some c := by cases c <;> decide

theorem index_injective {a b : Capability} (h : a.index = b.index) : a = b := by
  revert h
  cases a <;> cases b <;> decide

instance : Ord Capability := ⟨compareOn index⟩

instance : Std.TransOrd Capability :=
  inferInstanceAs (Std.TransCmp (compareOn index))

instance : Std.LawfulEqOrd Capability where
  eq_of_compare h := index_injective (Std.LawfulEqOrd.eq_of_compare h)

end Capability

/-- A trust tier.  Tiers do not inherit from one another. -/
inductive Group where
  | blocked
  | untrusted
  | trusted
  | friend
  /-- The operator's own packages. -/
  | operator
  deriving DecidableEq, Repr, Inhabited

namespace Group

/-- Every group, in declared order. -/
def all : List Group := [.blocked, .untrusted, .trusted, .friend, .operator]

/-- Position in declared order. -/
def index : Group → Nat
  | .blocked => 0
  | .untrusted => 1
  | .trusted => 2
  | .friend => 3
  | .operator => 4

/-- The name that files keep. -/
def name : Group → String
  | .blocked => "BLOCKED"
  | .untrusted => "UNTRUSTED"
  | .trusted => "TRUSTED"
  | .friend => "FRIEND"
  | .operator => "LOCAL"

/-- The name that people see. -/
def displayName : Group → String
  | .blocked => "Blocked"
  | .untrusted => "Untrusted"
  | .trusted => "Trusted"
  | .friend => "Friend"
  | .operator => "Local"

/-- The colour it is shown in, eight bits a channel from red down to blue. -/
def color : Group → Nat
  | .blocked => 0xFF2A2A
  | .untrusted => 0xFF72AD
  | .trusted => 0xA17FFF
  | .friend => 0x55FFFF
  | .operator => 0x55FF55

/-- The group of a name. -/
def ofName? (s : String) : Option Group := all.find? fun g => g.name == s

/-- The group of a principal nobody has placed yet. -/
def initial : Group := .untrusted

/-- One tier up; the operator's group is neither entered nor left. -/
def promoted : Group → Group
  | .blocked => .untrusted
  | .untrusted => .trusted
  | .trusted => .friend
  | .friend => .friend
  | .operator => .operator

/-- One tier down; the operator's group is not left. -/
def demoted : Group → Group
  | .blocked => .blocked
  | .untrusted => .blocked
  | .trusted => .untrusted
  | .friend => .trusted
  | .operator => .operator

theorem mem_all (g : Group) : g ∈ all := by cases g <;> decide

theorem ofName?_name (g : Group) : ofName? g.name = some g := by cases g <;> decide

theorem index_injective {a b : Group} (h : a.index = b.index) : a = b := by
  revert h
  cases a <;> cases b <;> decide

instance : Ord Group := ⟨compareOn index⟩

instance : Std.TransOrd Group :=
  inferInstanceAs (Std.TransCmp (compareOn index))

instance : Std.LawfulEqOrd Group where
  eq_of_compare h := index_injective (Std.LawfulEqOrd.eq_of_compare h)

end Group

/-! ## Values and tables -/

/-- An effective value; `none` is "undefined" and denies. -/
abbrev Effective := Option Int

/-- Values set for some capabilities. -/
abbrev Overrides := Std.ExtTreeMap Capability Int

/-- Declared values of the groups. -/
abbrev Defaults := Std.ExtTreeMap Group Overrides

/-- The declared value of a group. -/
def Defaults.value (d : Defaults) (g : Group) (c : Capability) : Effective :=
  d[g]?.bind (·[c]?)

/-- Declare one value. -/
def Defaults.declare (d : Defaults) (g : Group) (c : Capability) (n : Int) : Defaults :=
  d.insert g ((d[g]?.getD ∅).insert c n)

/-- The built-in values of a capability, in group order. -/
def Capability.builtin : Capability → Group → Int
  | .initInstructions => row 0 8192 65536 262144 2147483647
  | .tickInstructions => row 0 1024 8192 32768 2147483647
  | .renderInstructions => row 0 512 4096 16384 2147483647
  | .spawnParticle => row 0 0 8 32 1000
  | .playSound => row 0 0 4 16 100
  | .soundVolume => row 0 0 100 100 100
  | .networkCall => row 0 0 2 5 20
  | .renderOverride => row 0 0 0 1 1
  | .nameplateEdit => row 0 0 1 1 1
where
  /-- Values of the five groups. -/
  row (blocked untrusted trusted friend operator : Int) : Group → Int
    | .blocked => blocked
    | .untrusted => untrusted
    | .trusted => trusted
    | .friend => friend
    | .operator => operator

/-- The complete built-in table. -/
def Defaults.builtin : Defaults :=
  Group.all.foldl
    (fun d g => Capability.all.foldl (fun d c => d.declare g c (c.builtin g)) d) ∅

end ScriptWarden.Trust
