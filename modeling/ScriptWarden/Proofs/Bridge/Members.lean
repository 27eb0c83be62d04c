import Mathlib.Data.List.Basic
import ScriptWarden.Proofs.Bridge.Failure
import ScriptWarden.Proofs.Text.Lossy
set_option autoImplicit false

/-!
# Bridge: members of objects

What the functions of the host behind the metatable of objects do, with whatever registry.  A read looks the key up in
the registry and nowhere else (`readMember_method`, `readMember_field`, `readMember_lacks`), if there is room for what
it makes (`readMember_full`), a store always fails (`refuseMember_fails`), and a method fails before it does anything
if its receiver is of another type (`foreign_receiver_fails`).  The function of a method is made once and kept under a
joined name; as long as every function that is kept goes by its own name (`Keyed`), it is the one that the key asks
for.
-/

namespace ScriptWarden.Bridge

open Lua (Native Outcome Raised Value World)
open Lua.Machine (hostRoom)
open Package (Services)

variable {κ α : Type} {r : Registry κ} {w : World (Services κ)} {id : Nat} {o : Object} {key : Value}

/-! ## Errors -/

/-- An error with a text. -/
def hostError (message : String) : Raised := ⟨Lua.Machine.hostText message, nativePlace⟩

/-- A native function fails with an error of the host, and there is that error then and nothing else is new. -/
def Fails (n : Native (Services κ) α) (e : Raised) (w : World (Services κ)) : Prop :=
  n w = .fail (.value (.raised w.heap.raised.size)) ⟨(w.heap.newRaised e).2, w.host, w.meter⟩

/-- An action that changes nothing and gives something. -/
theorem perform_done {a : Action κ α} {x : α}
    (h : a ⟨w.heap, w.host, none⟩ = (.ok x, ⟨w.heap, w.host, none⟩)) : perform a w = .done x w := by
  obtain ⟨heap, services, meter⟩ := w
  simp only at h
  unfold perform
  simp only [h]

/-- An action that changes nothing and fails. -/
theorem perform_fails {a : Action κ α} {message : String}
    (h : a ⟨w.heap, w.host, none⟩ = (.error message, ⟨w.heap, w.host, none⟩)) :
    Fails (perform a) (hostError message) w := by
  obtain ⟨heap, services, meter⟩ := w
  simp only at h
  unfold Fails perform
  simp only [h]
  rfl

/-! ## Functions that are kept -/

/-- Every function that is kept goes by its own name. -/
def Keyed (s : Services κ) : Prop :=
  ∀ key f, s.methods[key]? = some f → ∃ type name, key = type ++ ":" ++ name ∧ f = .method type name

theorem Keyed.insert {s : Services κ} (h : Keyed s) (type name : String) :
    Keyed { s with methods := s.methods.insert (type ++ ":" ++ name) (.method type name) } := by
  intro key f hf
  rw [Std.ExtTreeMap.getElem?_insert] at hf
  split at hf
  · next hkey =>
    obtain rfl := Std.LawfulEqCmp.eq_of_compare hkey
    cases hf
    exact ⟨type, name, rfl, rfl⟩
  · exact h key f hf

/-- A name of ASCII characters that is told apart from others it is joined with by a colon. -/
def PlainName (name : String) : Prop := ∀ c ∈ name.toList, c.toNat < 0x80 ∧ c ≠ ':'

instance (name : String) : Decidable (PlainName name) :=
  decidable_of_iff (name.toList.all (fun c => c.toNat < 0x80 ∧ c ≠ ':') = true) (by simp [PlainName])

theorem PlainName.ascii {name : String} (h : PlainName name) : ∀ c ∈ name.toList, c.toNat < 0x80 :=
  fun c hc => (h c hc).1

theorem PlainName.noColon {name : String} (h : PlainName name) : ':' ∉ name.toList := fun hc => (h ':' hc).2 rfl

theorem joined_inj {type name type' name' : String} (htype : PlainName type) (hname : PlainName name)
    (h : type ++ ":" ++ name = type' ++ ":" ++ name') : type = type' ∧ name = name' := by
  have hlists : type.toList ++ ':' :: name.toList = type'.toList ++ ':' :: name'.toList := by
    simpa using congrArg String.toList h
  obtain ⟨htypes, -, hnames⟩ := (List.append_cons_inj_of_notMem htype.noColon hname.noColon).1 hlists
  exact ⟨String.toList_injective htypes, String.toList_injective hnames⟩

/-- The function of a method, which is made if it is not there. -/
theorem methodFunction_done (hkeyed : Keyed w.host) {type name : String} (htype : PlainName type)
    (hname : PlainName name) : ∃ methods, methodFunction type name w =
      .done (.host (.method type name)) ⟨w.heap, { w.host with methods }, w.meter⟩ := by
  obtain ⟨heap, s, meter⟩ := w
  unfold methodFunction Native.host
  simp only
  cases hf : s.methods[type ++ ":" ++ name]? with
  | none => exact ⟨_, rfl⟩
  | some f =>
    obtain ⟨type', name', hjoined, rfl⟩ := hkeyed _ f hf
    obtain ⟨rfl, rfl⟩ := joined_inj htype hname hjoined
    exact ⟨s.methods, rfl⟩

/-! ## Reading -/

theorem keyName_text {name : String} (hname : PlainName name) (a : Argument) : keyName (.text name) a = name :=
  (Text.lossy_eq_iff hname.ascii _).2 rfl

/-- An object and the name that a key of it stands for are looked up first. -/
theorem memberName_done (ho : w.host.objects[id]? = some o) (rest : List Value) :
    memberName (.object id :: key :: rest) w = .done (o, keyName key (seen w key)) w := by
  have hobject : objectOf w.host (.object id) = o := by simp [objectOf, ho]
  unfold memberName
  simp [hobject]

theorem readMember_roomy (hroom : w.heap.hasRoom hostRoom = true) (args : List Value) :
    readMember r args w = findMember r args w := by
  change (if w.heap.hasRoom hostRoom then findMember r args else raiseHost noRoom) w = _
  rw [if_pos hroom]

/-- Without room no key is read, whatever it is. -/
theorem readMember_full (hfull : w.heap.hasRoom hostRoom = false) (args : List Value) :
    Fails (readMember r args) noRoom w := by
  change (if w.heap.hasRoom hostRoom then findMember r args else raiseHost noRoom) w = _
  rw [hfull]
  rfl

section Reading

variable {name : String} (ho : w.host.objects[id]? = some o)

include ho

theorem readMember_method (hkeyed : Keyed w.host) (htype : PlainName o.type) (hname : PlainName name)
    {overloads : List Signature} {run : Call → Action κ (List Value)}
    (hmember : r.member? o.type name = some (.method overloads run)) (hroom : w.heap.hasRoom hostRoom = true) :
    ∃ methods, readMember r [.object id, .text name] w =
        .done [.host (.method o.type name)] ⟨w.heap, { w.host with methods }, w.meter⟩ := by
  obtain ⟨methods, hfunction⟩ := methodFunction_done hkeyed htype hname
  refine ⟨methods, ?_⟩
  rw [readMember_roomy hroom]
  unfold findMember
  change (memberName [.object id, .text name] w).bind _ = _
  rw [memberName_done ho, keyName_text hname]
  simp only [Outcome.bind, hmember]
  change (methodFunction o.type name w).bind _ = _
  rw [hfunction]
  rfl

theorem readMember_field (halive : w.host.alive = true) (hname : PlainName name) {type : ArgType}
    {get : Nat → Action κ Value} (hmember : r.member? o.type name = some (.field type get)) {v : Value}
    (hget : get o.state ⟨w.heap, w.host, none⟩ = (.ok v, ⟨w.heap, w.host, none⟩))
    (hroom : w.heap.hasRoom hostRoom = true) : readMember r [.object id, .text name] w = .done [v] w := by
  have hread : readField get o.state ⟨w.heap, w.host, none⟩ = (.ok v, ⟨w.heap, w.host, none⟩) := by
    simp only [readField, checkAlive, Action.bind_apply, Action.look, halive]
    exact hget
  rw [readMember_roomy hroom]
  unfold findMember
  change (memberName [.object id, .text name] w).bind _ = _
  rw [memberName_done ho, keyName_text hname]
  simp only [Outcome.bind, hmember]
  change (perform (readField get o.state) w).bind _ = _
  rw [perform_done hread]
  rfl

/-- A key that is no string, or a string that names no member. -/
theorem readMember_lacks (hlacks : ∀ s, key = .str s → r.member? o.type (Text.lossy s) = none)
    (hroom : w.heap.hasRoom hostRoom = true) :
    Fails (readMember r [.object id, key]) (hostError (noMember o.type (keyName key (seen w key)))) w := by
  unfold Fails
  rw [readMember_roomy hroom]
  unfold findMember
  change (memberName [.object id, key] w).bind _ = _
  rw [memberName_done ho]
  simp only [Outcome.bind]
  cases key with
  | str s =>
    have hnone : r.member? o.type (keyName (.str s) (seen w (.str s))) = none := hlacks s rfl
    simp only [hnone]
    rfl
  | _ => rfl

/-- A store says that there is no such member, or that it cannot be changed. -/
theorem refuseMember_fails (v : Value) : ∃ message,
    Fails (refuseMember r [.object id, key, v]) (hostError message) w := by
  unfold Fails refuseMember
  change ∃ message, (memberName [.object id, key, v] w).bind _ = _
  rw [memberName_done ho]
  simp only [Outcome.bind]
  cases r.member? o.type (keyName key (seen w key)) with
  | none => exact ⟨_, rfl⟩
  | some m => cases m <;> exact ⟨_, rfl⟩

end Reading

/-! ## Receivers -/

/-- The first of some values is an object of a type. -/
def Receives (s : Services κ) (type : String) (args : List Value) : Prop :=
  ∃ id o rest, args = .object id :: rest ∧ s.objects[id]? = some o ∧ o.type = type

/-- A method that is called without an object of its type. -/
theorem foreign_receiver_fails (policy : Trust.Policy) {type name : String} (htype : type ≠ "") {args : List Value}
    (hforeign : ¬ Receives w.host type args) : ∃ message,
      Fails (perform (bridgeCall r policy type name args)) (hostError message) w := by
  have hfails : ∃ message, bridgeCall r policy type name args ⟨w.heap, w.host, none⟩ =
      (.error message, ⟨w.heap, w.host, none⟩) := by
    unfold bridgeCall
    cases args with
    | nil => exact ⟨_, rfl⟩
    | cons this values =>
      simp only [Action.bind_apply, seenAll, List.map_cons, List.headD_cons]
      cases this with
      | object id =>
        have hfound : (w.host.objects[id]?.getD default).type ≠ type := by
          intro hfound
          cases ho : w.host.objects[id]? with
          | none =>
            rw [ho] at hfound
            exact htype hfound.symm
          | some o =>
            rw [ho] at hfound
            exact hforeign ⟨id, o, values, rfl, ho, hfound⟩
        simp only [seen, Argument.ofValue, if_neg hfound]
        exact ⟨_, rfl⟩
      | _ => exact ⟨_, rfl⟩
  obtain ⟨message, hmessage⟩ := hfails
  exact ⟨message, perform_fails hmessage⟩

end ScriptWarden.Bridge
