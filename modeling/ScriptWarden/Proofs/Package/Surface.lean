import ScriptWarden.Proofs.Bridge.Description
import ScriptWarden.Proofs.Bridge.Members
import ScriptWarden.Proofs.Lua.Member
import ScriptWarden.Proofs.Package.Modules
set_option autoImplicit false

/-!
# Packages: the surface is the one that is described

The bridge describes the members of every type in a document.  What scripts find on the objects of a live package are
those members and no others, whatever keys they use and whatever happened before (`surface_as_described`): that
depends on the services alone, which every store leaves as they are.  Methods are kept as functions under joined names
once they were asked for, and they keep to their names all along (`keyed_of_path`).
-/

namespace ScriptWarden.Package

open Api (Thing Typed)
open Bridge (Fails Keyed PlainName Receives listed noMember noRoom hostError)
open Lua (Machine Natives Origin Outcome Runner Stack Value World)
open Lua.Machine (ComesTo Overflows Raises hostRoom makeRoom nativeLimit reading storing)
open Relation (ReflTransGen)
open Script (Vm)
open Trust (Policy)

variable {t : Terms} {policy : Policy}

/-! ## Functions keep to their names -/

/-- Functions that keep to their names before do so afterwards. -/
def KeyedBetween (w w' : Vm Thing) : Prop := Keyed w.host → Keyed w'.host

theorem keyed_of_methods {s s' : Api.Services} (h : Keyed s) (hsame : s'.methods = s.methods) : Keyed s' := by
  intro key f hf
  rw [hsame] at hf
  exact h key f hf

theorem admits_keyed (policy : Policy) : AdmitsScripts policy KeyedBetween where
  refl _ h := h
  trans h h' hs := h' (h hs)
  heap _ _ _ _ h := h
  tick stack w h := by
    rw [(Machine.tickMeter_eq stack w).2]
    exact h
  turn turn hturn heap s meter h := by
    cases turn with
    | call heap' type name args =>
      exact keyed_of_methods h (Api.bridgeCall_growing policy type name args ⟨heap', s, none⟩).methods_eq
    | field heap' type name state =>
      simp only [apply_field]
      exact h
    | method type name =>
      simp only [Turn.apply]
      split
      · exact h
      · exact h.insert type name
    | log level message => exact h
    | module name => exact h
    | _ => exact hturn.elim

/-- Functions keep to their names, and go on doing so in what runs. -/
def Activity.KeepsNames (a : Activity) : Prop :=
  Keyed a.world.host ∧
    match a with
    | .idle _ _ => True
    | .running _ m => m.Within KeyedBetween m.world

theorem keepsNames_ofCall {todo : List (Value × List Value)} {w : Vm Thing} (h : Keyed w.host) (f : Value)
    (args : List Value) : (Activity.running todo (.ofCall f args w)).KeepsNames :=
  ⟨h, Machine.within_ofCall (admits_keyed default).toAdmits f args w⟩

theorem keepsNames_of_within {todo : List (Value × List Value)} {m : Machine Api.Services} {w : Vm Thing}
    (h : Keyed w.host) (hm : m.Within KeyedBetween w) : (Activity.running todo m).KeepsNames :=
  ⟨hm.world h, hm.here (admits_keyed default).toAdmits⟩

theorem keepsNames_of_goes {a b : Activity} (ha : a.KeepsNames) (hgoes : Goes t a b) : b.KeepsNames := by
  obtain ⟨⟨started, hdoes⟩, hremembers⟩ := hgoes
  have hstep (policy : Policy) {m : Machine Api.Services} (hm : m.Within KeyedBetween m.world) :
      (m.step (t.setting policy).natives).Within KeyedBetween m.world :=
    Machine.step_within (admits_keyed policy).toAdmits hm
      (fun f args _ _ => natives_within (admits_keyed policy).toAdmitsTurns t.collector f args)
      fun _ => (admits_keyed policy).tick _ _
  cases hdoes with
  | enter => exact keepsNames_ofCall (w := ⟨_, (taken _ _).host, _⟩) ha.1 _ _
  | refuse => exact ⟨ha.1, trivial⟩
  | event => exact ⟨ha.1, trivial⟩
  | call => exact keepsNames_ofCall ha.1 _ _
  | require policy hrequires => exact keepsNames_of_within ha.1 (hstep policy ha.2)
  | step policy hplain => exact keepsNames_of_within ha.1 (hstep policy ha.2)
  | text => exact keepsNames_of_within ha.1 (textMachine_within (admits_keyed default).toAdmits _ _)
  | release => exact keepsNames_of_within ha.1 (Machine.within_ofClose (admits_keyed default).toAdmits t.collector _)
  | ended => exact ⟨ha.1, trivial⟩
  | host => exact ⟨keyed_of_methods ha.1 hremembers, trivial⟩

/-- No function is kept when a package is opened. -/
theorem keepsNames_of_opened {modules : Modules} {a : Activity} (h : Opened t modules a) : a.KeepsNames := by
  obtain @⟨policy, services, w, -, -, hunasked, hready⟩ := h
  have hbegin : Keyed services := by
    intro key f hf
    rw [hunasked] at hf
    simp at hf
  have hboot : Keyed (Script.boot (t.setting policy) t.sandbox t.memory services).2.host :=
    chunk_rel t (admits_keyed policy) Script.sandboxChunk _ ⟨_, services, none⟩ hbegin
  refine ⟨?_, trivial⟩
  unfold Instance.setUp at hready
  split at hready
  · cases hready
  · next booted heq =>
    rw [heq] at hboot
    split at hready
    · cases hready
    · next heap services' meter hinstall =>
      obtain ⟨-, rfl⟩ := Prod.mk.inj hready
      exact keyed_of_methods hboot (tended_install hinstall).methods_eq

theorem keyed_of_path {modules : Modules} {a b : Activity} (hopened : Opened t modules a)
    (hreaches : ReflTransGen (Goes t) a b) : Keyed b.world.host := by
  have hkeeps : b.KeepsNames := by
    induction hreaches with
    | refl => exact keepsNames_of_opened hopened
    | tail _ hgoes ih => exact keepsNames_of_goes ih hgoes
  exact hkeeps.1

/-! ## Members -/

/-- Types and their members have plain names. -/
theorem surface_plain {type name : String} {m : Bridge.Member Thing}
    (hmember : Api.surface.member? type name = some m) : PlainName type ∧ type ≠ "" ∧ PlainName name := by
  have hall : Api.surface.types.toList.all (fun entry => decide (PlainName entry.1 ∧ entry.1 ≠ "") &&
      entry.2.members.keys.all fun name => decide (PlainName name)) = true := rfl
  obtain ⟨entry, htype, hname⟩ := Option.bind_eq_some_iff.1 hmember
  have hentry := List.all_eq_true.1 hall (type, entry) (Std.ExtTreeMap.mem_toList_iff_getElem?_eq_some.2 htype)
  obtain ⟨hplain, hnames⟩ := Bool.and_eq_true_iff.1 hentry
  have hkey : name ∈ entry.members.keys := by
    rw [Std.ExtTreeMap.mem_keys, Std.ExtTreeMap.mem_iff_isSome_getElem?, hname]
    rfl
  obtain ⟨htype, hne⟩ := of_decide_eq_true hplain
  exact ⟨htype, hne, of_decide_eq_true (List.all_eq_true.1 hnames name hkey)⟩

/-- The methods and fields that the bridge lists, each with its type. -/
def listedMethods : List (String × String) := listed "methods" Api.surface.toJson

def listedFields : List (String × String) := listed "fields" Api.surface.toJson

/-- A key names nothing that is listed for a type. -/
def Unlisted (type : String) (key : Value) : Prop :=
  ∀ name, key = .text name → (type, name) ∉ listedMethods ∧ (type, name) ∉ listedFields

/-- No string spells a member that is not listed. -/
theorem member?_of_unlisted {type : String} {key : Value} (h : Unlisted type key) (s : Lua.Bytes)
    (hkey : key = .str s) : Api.surface.member? type (Text.lossy s) = none := by
  cases hmember : Api.surface.member? type (Text.lossy s) with
  | none => rfl
  | some m =>
    obtain ⟨-, -, hplain⟩ := surface_plain hmember
    have htext : key = .text (Text.lossy s) :=
      hkey.trans (congrArg Value.str ((Text.lossy_eq_iff hplain.ascii s).1 rfl))
    obtain ⟨hmethods, hfields⟩ := h _ htext
    cases m with
    | method overloads run => exact absurd (Bridge.Registry.mem_listed_methods.2 ⟨overloads, run, hmember⟩) hmethods
    | field type get => exact absurd (Bridge.Registry.mem_listed_fields.2 ⟨type, get, hmember⟩) hfields

/-! ## Reading and storing -/

section Reads

variable (natives : Natives Api.Services) (s : Api.Services)

/-- The memory limit leaves no room for what a read makes: not even once what is taken was counted again. -/
def Tight (id : Nat) (key : Value) (w : Vm Thing) (stack : Stack Api.Services) : Prop :=
  (makeRoom stack .member [.object id, key] w).heap.hasRoom hostRoom = false

/-- Whoever reads a key of an object gets a value, and nothing changes but the functions that are kept and the count of
what is taken.  Only where memory is tight there may be the error that there is no room instead. -/
def Offers (id : Nat) (key v : Value) : Prop :=
  ∀ (w : Vm Thing), w.host = s → ∀ fuel origin runner k (stack : Stack Api.Services),
    stack.natives ≠ nativeLimit →
    (∃ taken methods, ComesTo natives (reading fuel id key origin runner k w stack)
      ⟨.look runner (k v ⟨{ w.heap with taken }, { w.host with methods }, w.meter⟩), stack⟩) ∨
    (Tight id key w stack ∧ Raises natives (reading fuel id key origin runner k w stack) noRoom)

/-- Whoever reads a key of an object gets the error that there is no such member, or, only where memory is tight, the
error that there is no room; and nothing changes. -/
def Lacks (id : Nat) (type : String) (key : Value) : Prop :=
  ∀ (w : Vm Thing), w.host = s → ∀ fuel origin runner k (stack : Stack Api.Services),
    stack.natives ≠ nativeLimit →
    Raises natives (reading fuel id key origin runner k w stack)
      (hostError (noMember type (Bridge.keyName key (Bridge.seen w key)))) ∨
    (Tight id key w stack ∧ Raises natives (reading fuel id key origin runner k w stack) noRoom)

/-- Whoever sets a key of an object gets an error, and nothing changes: not the services, and so no later read. -/
def Rejects (id : Nat) (key : Value) : Prop :=
  ∀ (w : Vm Thing), w.host = s → ∀ fuel v origin runner k (stack : Stack Api.Services),
    (stack.natives ≠ nativeLimit →
      ∃ message, Raises natives (storing fuel id key v origin runner k w stack) (hostError message)) ∧
    (stack.natives = nativeLimit → Overflows natives (storing fuel id key v origin runner k w stack))

end Reads

/-- What scripts find on objects is what the bridge lists for their types. -/
structure AsListed (natives : Natives Api.Services) (s : Api.Services) : Prop where
  /-- A method that is listed is there, as a function of that method. -/
  method : ∀ (id : Nat) o name, s.objects[id]? = some o → (o.type, name) ∈ listedMethods →
    Offers natives s id (.text name) (.host (.method o.type name))
  /-- A field that is listed is there. -/
  field : ∀ (id : Nat) o name, s.objects[id]? = some o → (o.type, name) ∈ listedFields →
    ∃ v, Offers natives s id (.text name) v
  /-- Nothing else is there. -/
  lacks : ∀ (id : Nat) o key, s.objects[id]? = some o → Unlisted o.type key → Lacks natives s id o.type key
  /-- Nothing is read where the stack is full of native functions that wait. -/
  full : ∀ (w : Vm Thing) fuel id key origin runner k (stack : Stack Api.Services), stack.natives = nativeLimit →
    Overflows natives (reading fuel id key origin runner k w stack)
  /-- Nothing can be set. -/
  rejects : ∀ (id : Nat) o key, s.objects[id]? = some o → Rejects natives s id key
  /-- A method does nothing without an object of its own type. -/
  foreign : ∀ type name, (type, name) ∈ listedMethods → ∀ (w : Vm Thing) args, ¬ Receives w.host type args →
    ∀ stack, ∃ message, Raises natives ⟨.call (.host (.method type name)) args w, stack⟩ (hostError message)

/-- There is room for a read, perhaps because what is taken is counted again, or memory is tight. -/
theorem roomy_or_tight (id : Nat) (key : Value) (w : Vm Thing) (stack : Stack Api.Services) :
    (∃ taken, makeRoom stack .member [.object id, key] w = ⟨{ w.heap with taken }, w.host, w.meter⟩ ∧
      ({ w.heap with taken } : Lua.Heap).hasRoom hostRoom = true) ∨ Tight id key w stack := by
  unfold Tight
  obtain ⟨taken, hcounted⟩ := Machine.makeRoom_eq stack .member [.object id, key] w
  rw [hcounted]
  cases hroom : ({ w.heap with taken } : Lua.Heap).hasRoom hostRoom with
  | true => exact .inl ⟨taken, rfl, hroom⟩
  | false => exact .inr rfl

/-- Where memory is tight no key is read, whatever it is. -/
theorem reading_tight {w : Vm Thing} {id : Nat} {key : Value} {stack : Stack Api.Services} {fuel : Nat}
    {origin : Origin} {runner : Runner} {k : Value → Vm Thing → Lua.Outcome Api.Services (List Value)}
    (hroom : stack.natives ≠ nativeLimit) (htight : Tight id key w stack) :
    Raises (t.setting policy).natives (reading fuel id key origin runner k w stack) noRoom :=
  Machine.reading_fails hroom (Bridge.readMember_full htight _)

theorem asListed {s : Api.Services} (hkeyed : Keyed s) (htyped : Typed s) (halive : s.alive = true) :
    AsListed (t.setting policy).natives s where
  method id o name ho hlisted w hw fuel origin runner k stack hroom := by
    subst hw
    obtain ⟨taken, hcounted, hroomy⟩ | htight := roomy_or_tight id (.text name) w stack
    · obtain ⟨overloads, run, hmember⟩ := Bridge.Registry.mem_listed_methods.1 hlisted
      obtain ⟨htype, -, hname⟩ := surface_plain hmember
      obtain ⟨methods, hread⟩ := Bridge.readMember_method (w := ⟨{ w.heap with taken }, w.host, w.meter⟩) ho hkeyed
        htype hname hmember hroomy
      have hdone : (t.setting policy).natives (.host .member) [.object id, .text name]
          (makeRoom stack .member [.object id, .text name] w) = .done [.host (.method o.type name)]
            ⟨{ w.heap with taken }, { w.host with methods }, w.meter⟩ := hcounted ▸ hread
      exact .inl ⟨taken, methods, Machine.reading_done hroom hdone⟩
    · exact .inr ⟨htight, reading_tight hroom htight⟩
  field id o name ho hlisted := by
    obtain ⟨fieldType, get, hmember⟩ := Bridge.Registry.mem_listed_fields.1 hlisted
    obtain ⟨-, -, hname⟩ := surface_plain hmember
    have hshown : Api.Shown o.type get := Api.surface_coheres o.type name _ hmember
    obtain ⟨f, hget, hsucceeds⟩ := hshown o.state
    obtain ⟨v, hv⟩ := hsucceeds s (htyped id o ho)
    refine ⟨v, fun w hw fuel origin runner k stack hroom => ?_⟩
    subst hw
    obtain ⟨taken, hcounted, hroomy⟩ | htight := roomy_or_tight id (.text name) w stack
    · have hgot : get o.state ⟨{ w.heap with taken }, w.host, none⟩ =
          (.ok v, ⟨{ w.heap with taken }, w.host, none⟩) := by rw [hget, hv]
      have hdone : (t.setting policy).natives (.host .member) [.object id, .text name]
          (makeRoom stack .member [.object id, .text name] w) = .done [v] ⟨{ w.heap with taken }, w.host, w.meter⟩ := by
        rw [hcounted]
        exact Bridge.readMember_field (w := ⟨{ w.heap with taken }, w.host, w.meter⟩) ho halive hname hmember hgot
          hroomy
      exact .inl ⟨taken, w.host.methods, Machine.reading_done hroom hdone⟩
    · exact .inr ⟨htight, reading_tight hroom htight⟩
  lacks id o key ho hunlisted w hw fuel origin runner k stack hroom := by
    subst hw
    obtain ⟨taken, hcounted, hroomy⟩ | htight := roomy_or_tight id key w stack
    · have hfails : Fails (Bridge.readMember Api.surface [.object id, key])
          (hostError (noMember o.type (Bridge.keyName key (Bridge.seen w key))))
          (makeRoom stack .member [.object id, key] w) := by
        rw [hcounted]
        exact Bridge.readMember_lacks ho (member?_of_unlisted hunlisted) hroomy
      exact .inl (Machine.reading_fails hroom hfails)
    · exact .inr ⟨htight, reading_tight hroom htight⟩
  full w fuel id key origin runner k stack hfull := Machine.reading_full hfull
  rejects id o key ho w hw fuel v origin runner k stack := by
    subst hw
    refine ⟨fun hroom => ?_, Machine.storing_full⟩
    obtain ⟨message, hfails⟩ : ∃ message,
        Fails (Bridge.refuseMember Api.surface [.object id, key, v]) (hostError message) w :=
      Bridge.refuseMember_fails ho v
    exact ⟨message, Machine.storing_fails hroom hfails⟩
  foreign type name hlisted w args hforeign stack := by
    obtain ⟨overloads, run, hmember⟩ := Bridge.Registry.mem_listed_methods.1 hlisted
    obtain ⟨-, htype, -⟩ := surface_plain hmember
    obtain ⟨message, hfails⟩ : ∃ message,
        Fails (Bridge.perform (Bridge.bridgeCall Api.surface policy type name args)) (hostError message) w :=
      Bridge.foreign_receiver_fails policy htype hforeign
    exact ⟨message, Machine.call_raises hfails⟩

/-- **The surface is exactly the one that is described.**  In every state that the scripts of a live package come to
from where it was opened, each object has the members that the bridge lists for its type, and no others: a read of any
other key, by whomever and from wherever, raises the error that there is no such member.  Every store raises an error
and leaves the services as they are, which all later reads depend on.  A method that is called without an object of its
own type raises an error, and has no effect.  Where the stack is full of native functions that wait, no key is read at
all.  The memory that an instance holds after any operations is always that of such a state. -/
theorem surface_as_described (t : Terms) :
    (∀ modules a b policy, Opened t modules a → ReflTransGen (Goes t) a b → b.world.host.alive = true →
      AsListed (t.setting policy).natives b.world.host) ∧
    ∀ policy generation source ops heap, (afterAll t (.new t policy generation source) ops).heap = some heap →
      ∃ a todo, Opened t source.modules a ∧ ReflTransGen (Goes t) a
        (.idle todo ⟨heap, (afterAll t (.new t policy generation source) ops).services, none⟩) := by
  refine ⟨fun modules a b policy hopened hreaches halive => ?_, fun policy generation source ops => ?_⟩
  · obtain ⟨names, hhistory⟩ := exists_history (acts_of_path hreaches)
    exact asListed (keyed_of_path hopened hreaches) (stands_of_history hopened.setUp hhistory).typed halive
  · exact (lived_afterAll t policy generation source ops).went

theorem unlisted_text {type name : String} (h : Api.surface.member? type name = none) : Unlisted type (.text name) := by
  intro name' hname
  obtain rfl : name = name' := String.toByteArray_inj.1 (Value.str.inj hname)
  refine ⟨fun hlisted => ?_, fun hlisted => ?_⟩
  · obtain ⟨overloads, run, hmember⟩ := Bridge.Registry.mem_listed_methods.1 hlisted
    cases h.symm.trans hmember
  · obtain ⟨type, get, hmember⟩ := Bridge.Registry.mem_listed_fields.1 hlisted
    cases h.symm.trans hmember

theorem listed_newSound : ("SoundAPI", "newSound") ∈ listedMethods :=
  Bridge.Registry.mem_listed_methods.2 ⟨_, _, rfl⟩

/-- The global object for sounds makes sounds, and does not play them. -/
theorem sounds_as_described : ∃ w, Opened unlimited ∅ (.idle [] w) ∧ w.host.alive = true ∧
    w.host.objects[0]? = some ⟨"SoundAPI", 0⟩ ∧
    Offers (unlimited.setting default).natives w.host 0 (.text "newSound") (.host (.method "SoundAPI" "newSound")) ∧
    Lacks (unlimited.setting default).natives w.host 0 "SoundAPI" (.text "play") := by
  have hopened := opened_fresh ∅
  obtain ⟨halive, hobject⟩ : (freshWorld ∅).host.alive = true ∧
      (freshWorld ∅).host.objects[0]? = some ⟨"SoundAPI", 0⟩ := by decide +kernel
  generalize freshWorld ∅ = w at hopened halive hobject
  have hsurface := (surface_as_described unlimited).1 ∅ _ _ default hopened .refl halive
  have hnone : (Api.surface.member? "SoundAPI" "play").isNone := by decide +kernel
  have hunlisted : Unlisted "SoundAPI" (.text "play") := unlisted_text (Option.isNone_iff_eq_none.1 hnone)
  exact ⟨w, hopened, halive, hobject, hsurface.method 0 ⟨"SoundAPI", 0⟩ "newSound" hobject listed_newSound,
    hsurface.lacks 0 ⟨"SoundAPI", 0⟩ (.text "play") hobject hunlisted⟩

/-! ## A full stack -/

/-- A script that has so many protected calls within each other that there is no room for another one, and then reads a
member. -/
def nesting : String := "local p=pcall local function f(n,...)if n==0 then return p(...)end " ++
  "return f(n-1,p,p,p,p,p,p,p,p,p,p,p,p,p,p,p,...)end f(13,function()return sounds.newSound end)"

/-- A package of that script. -/
def nestingModules : Modules := (∅ : Modules).insert "" nesting

theorem nesting_program : (Text.utf8 nesting.toList).head? ≠ some 0x1B ∧
    (Script.parseLexemes ByteArray.empty (Script.scanChars nesting.toList)).toBool ∧
    (imageOf nesting.toList).protos.back?.isSome := by
  refine ⟨?_, ?_, ?_⟩ <;> decide +kernel

theorem nesting_reads : let m := freshAt nestingModules 697 nesting.toList
    m.nextRead? = some (0, Text.bytes "newSound") ∧ m.stack.natives = nativeLimit ∧
      m.world.host.alive = true ∧ m.world.host.objects[0]? = some ⟨"SoundAPI", 0⟩ := by
  decide +kernel

/-- Without room for one more function of the host, a member that is listed cannot be read. -/
theorem full_stack_hides_member : ∃ a m o, Opened unlimited nestingModules a ∧
    ReflTransGen (Goes unlimited) a (.running [] m) ∧ m.world.host.alive = true ∧
    m.world.host.objects[0]? = some o ∧ (o.type, "newSound") ∈ listedMethods ∧
    (∃ fuel origin runner k stack, m = reading fuel 0 (.text "newSound") origin runner k m.world stack) ∧
    Overflows (unlimited.setting default).natives m := by
  obtain ⟨hhead, hparsed, hmain⟩ := nesting_program
  obtain ⟨hread, hfull, halive, hobject⟩ := nesting_reads
  have hstored : nestingModules[""]? = some (String.ofList nesting.toList) := by
    rw [String.ofList_toList]
    simp [nestingModules]
  have hreaches := fresh_goes hstored hhead hparsed hmain 697
  generalize freshAt nestingModules 697 nesting.toList = m at hread hfull halive hobject hreaches
  obtain ⟨fuel, origin, runner, k, stack, hstep, hnatives⟩ :=
    Machine.step_of_nextRead (unlimited.setting default).natives hread
  have hlast : Goes unlimited (.running [] m) (.running [] (m.step (unlimited.setting default).natives)) :=
    ⟨step_acts default m, trivial⟩
  have hpath := hreaches.tail hlast
  rw [hstep] at hpath
  exact ⟨_, _, _, opened_fresh nestingModules, hpath, halive, hobject, listed_newSound, ⟨_, _, _, _, _, rfl⟩,
    Machine.reading_full (hnatives.trans hfull)⟩

end ScriptWarden.Package
