import ScriptWarden.Proofs.Api.Standing
import ScriptWarden.Proofs.Package.Decoding
set_option autoImplicit false

/-!
# Packages: handles

A package numbers its particles and its requests from one counter.  What the host is told about these numbers is
written down as a ledger, the latest call first, with the object on whose behalf a script made it.  The objects and the
ledger agree at any time on which particles the host shows (`Linear`): a number is never used twice, a particle that is
removed was shown for the same object, and an object that is shown again is removed first.  So an object has one
particle at most, and says of itself that it is alive exactly if it has one (`handles_are_linear`).
-/

namespace ScriptWarden.Package

open Api (Alters Thing handleAt numbers standing)
open Host (NumberCall)
open Lua (Heap Value)
open Trust (Policy)

/-! ## The ledger -/

/-- A call of the host about a number, the package that made it, and the object on whose behalf. -/
structure Use where
  owner : Nat
  package : String
  call : NumberCall
  deriving DecidableEq, Repr

/-- The number that a call of the host is the first to use. -/
def Use.new? (u : Use) : Option Nat :=
  match u.call with
  | .spawn handle => some handle
  | .request id => some id
  | .remove _ => none

/-- The numbers of particles that were shown and of requests. -/
def newIn (ledger : List Use) : List Nat := ledger.filterMap Use.new?

/-- The particles that the host shows, with the objects that they belong to. -/
def shownBy : List Use → List (Nat × Nat)
  | [] => []
  | u :: earlier =>
    match u.call with
    | .spawn handle => (u.owner, handle) :: shownBy earlier
    | .remove handle => (shownBy earlier).filter (·.2 ≠ handle)
    | .request _ => shownBy earlier

/-- Whatever is removed is shown at the time, for the same object. -/
def RemovesShown : List Use → Prop
  | [] => True
  | u :: earlier => (∀ handle, u.call = .remove handle → (u.owner, handle) ∈ shownBy earlier) ∧ RemovesShown earlier

/-- What is shown was shown under a number of its own. -/
theorem mem_newIn_of_shownBy {ledger : List Use} {owner handle : Nat} (h : (owner, handle) ∈ shownBy ledger) :
    handle ∈ newIn ledger := by
  induction ledger with
  | nil => cases h
  | cons u earlier ih =>
    obtain ⟨owner', package, call⟩ := u
    cases call with
    | spawn handle' =>
      obtain heq | hmem := List.mem_cons.1 h
      · cases heq
        exact List.mem_cons_self
      · exact List.mem_cons_of_mem _ (ih hmem)
    | remove handle' => exact ih (List.mem_of_mem_filter h)
    | request id => exact List.mem_cons_of_mem _ (ih h)

/-- If no number is used twice, a particle belongs to one object. -/
theorem owner_eq_of_shownBy {ledger : List Use} (hnodup : (newIn ledger).Nodup) {owner owner' handle : Nat}
    (h : (owner, handle) ∈ shownBy ledger) (h' : (owner', handle) ∈ shownBy ledger) : owner = owner' := by
  induction ledger with
  | nil => cases h
  | cons u earlier ih =>
    obtain ⟨owner'', package, call⟩ := u
    cases call with
    | spawn handle' =>
      obtain ⟨hnew, hnodup⟩ := List.nodup_cons.1 hnodup
      obtain heq | hmem := List.mem_cons.1 h <;> obtain heq' | hmem' := List.mem_cons.1 h'
      · cases heq
        cases heq'
        rfl
      · cases heq
        exact absurd (mem_newIn_of_shownBy hmem') hnew
      · cases heq'
        exact absurd (mem_newIn_of_shownBy hmem) hnew
      · exact ih hnodup hmem hmem'
    | remove handle' => exact ih hnodup (List.mem_of_mem_filter h) (List.mem_of_mem_filter h')
    | request id => exact ih (List.nodup_cons.1 hnodup).2 h h'

/-- The ledger of a package, the next number, and the numbers that objects have agree. -/
structure Linear (package : String) (ledger : List Use) (next : Nat) (handles : Nat → Option Nat) : Prop where
  package_eq : ∀ u ∈ ledger, u.package = package
  lt_next : ∀ n ∈ newIn ledger, n < next
  nodup : (newIn ledger).Nodup
  removes : RemovesShown ledger
  shown_iff : ∀ owner handle, (owner, handle) ∈ shownBy ledger ↔ handles owner = some handle

namespace Linear

variable {package : String} {ledger : List Use} {next owner handle : Nat} {handles : Nat → Option Nat}

theorem empty (package : String) (next : Nat) : Linear package [] next fun _ => none where
  package_eq _ h := nomatch h
  lt_next _ h := nomatch h
  nodup := List.nodup_nil
  removes := trivial
  shown_iff _ _ := ⟨nofun, nofun⟩

theorem spawned (h : Linear package ledger next handles) (hnone : handles owner = none) :
    Linear package (⟨owner, package, .spawn next⟩ :: ledger) (next + 1)
      (Function.update handles owner (some next)) where
  package_eq := List.forall_mem_cons.2 ⟨rfl, h.package_eq⟩
  lt_next := List.forall_mem_cons.2 ⟨Nat.lt_succ_self next, fun n hn => Nat.lt_succ_of_lt (h.lt_next n hn)⟩
  nodup := List.nodup_cons.2 ⟨fun hmem => Nat.lt_irrefl next (h.lt_next next hmem), h.nodup⟩
  removes := ⟨nofun, h.removes⟩
  shown_iff owner' handle := by
    simp only [shownBy, List.mem_cons, Prod.mk.injEq, h.shown_iff]
    by_cases heq : owner' = owner
    · subst heq
      simp [hnone, eq_comm]
    · simp [heq, Function.update_of_ne]

theorem removed (h : Linear package ledger next handles) (hshown : handles owner = some handle) :
    Linear package (⟨owner, package, .remove handle⟩ :: ledger) next (Function.update handles owner none) where
  package_eq := List.forall_mem_cons.2 ⟨rfl, h.package_eq⟩
  lt_next := h.lt_next
  nodup := h.nodup
  removes := by
    refine ⟨fun handle' hcall => ?_, h.removes⟩
    cases hcall
    exact (h.shown_iff owner handle).2 hshown
  shown_iff owner' handle' := by
    simp only [shownBy, List.mem_filter, h.shown_iff, decide_eq_true_eq]
    by_cases heq : owner' = owner
    · subst heq
      simp [hshown, eq_comm]
    · rw [Function.update_of_ne heq]
      refine and_iff_left_of_imp fun hother => ?_
      rintro rfl
      exact heq (owner_eq_of_shownBy h.nodup ((h.shown_iff _ _).2 hother) ((h.shown_iff _ _).2 hshown))

theorem requested (h : Linear package ledger next handles) :
    Linear package (⟨owner, package, .request next⟩ :: ledger) (next + 1) handles where
  package_eq := List.forall_mem_cons.2 ⟨rfl, h.package_eq⟩
  lt_next := List.forall_mem_cons.2 ⟨Nat.lt_succ_self next, fun n hn => Nat.lt_succ_of_lt (h.lt_next n hn)⟩
  nodup := List.nodup_cons.2 ⟨fun hmem => Nat.lt_irrefl next (h.lt_next next hmem), h.nodup⟩
  removes := ⟨nofun, h.removes⟩
  shown_iff := h.shown_iff

end Linear

/-! ## Turns -/

/-- The calls of the host about numbers that a turn makes, the latest first, on behalf of the object that a script calls
a method of. -/
def Turn.uses (policy : Policy) (turn : Turn) (s : Api.Services) : List Use :=
  match turn with
  | .call heap _ _ args =>
    match (Bridge.Argument.ofValue heap s.objects (args.headD .nil)).state? with
    | some owner =>
      let before := numbered s.outbox
      let after := numbered (turn.apply policy s).outbox
      (after.take (after.length - before.length)).map fun (package, told) => ⟨owner, package, told⟩
    | none => []
  | _ => []

/-- The ledger of some turns. -/
def uses : List (Policy × Turn) → Api.Services → List Use
  | [], _ => []
  | (policy, turn) :: rest, s => uses rest (turn.apply policy s) ++ turn.uses policy s

/-- A ledger and the services of a package agree. -/
def Agrees (ledger : List Use) (s : Api.Services) : Prop := Linear s.package ledger s.nextHandle (handleAt s)

section Turns

variable {ledger : List Use} {s s' : Api.Services} (policy : Policy) (turn : Turn)

theorem agrees_of_numbers (h : numbers s' = numbers s) (hagrees : Agrees ledger s) : Agrees ledger s' := by
  simp only [numbers, Prod.mk.injEq] at h
  obtain ⟨hnext, -, hhandles, hpackage⟩ := h
  rw [Agrees, hnext, hhandles, hpackage]
  exact hagrees

/-- What the ledger gets and what the outbox gets belong together, and the ledger agrees with the services again. -/
structure Booked (s s' : Api.Services) (new : List Use) : Prop where
  package_eq : s'.package = s.package
  numbered_eq : numbered s'.outbox = new.map (fun u => (u.package, u.call)) ++ numbered s.outbox
  agrees : ∀ ledger, Agrees ledger s → Agrees (new ++ ledger) s'

theorem Booked.of_numbers (h : numbers s' = numbers s) : Booked s s' [] :=
  ⟨congrArg (·.2.2.2) h, congrArg (·.2.1) h, fun _ => agrees_of_numbers h⟩

/-- What a call that succeeds does to the ledger, on behalf of its object. -/
theorem booked_of_alters {c : Bridge.Call} {type name : String} (h : Alters c s s' type name) :
    ∃ told : List NumberCall, Booked s s' (told.map (⟨c.state, s.package, ·⟩)) := by
  cases h with
  | nothing _ h => exact ⟨[], .of_numbers (congrArg (·.2) h)⟩
  | registered _ _ h => exact ⟨[], .of_numbers (congrArg (·.2) h)⟩
  | cleared _ h => exact ⟨[], .of_numbers (congrArg (·.2) h)⟩
  | spawned _ h =>
    simp only [standing, numbers, Prod.mk.injEq] at h
    obtain ⟨-, hnext, hnumbered, hhandles, hpackage⟩ := h
    cases hold : handleAt s c.state with
    | none =>
      rw [hold] at hnumbered
      refine ⟨[.spawn s.nextHandle], hpackage, hnumbered, fun ledger hagrees => ?_⟩
      rw [Agrees, hnext, hhandles, hpackage]
      exact hagrees.spawned hold
    | some old =>
      rw [hold] at hnumbered
      refine ⟨[.spawn s.nextHandle, .remove old], hpackage, hnumbered, fun ledger hagrees => ?_⟩
      have htwice := (hagrees.removed hold).spawned (Function.update_self c.state none (handleAt s))
      rw [Function.update_idem] at htwice
      rw [Agrees, hnext, hhandles, hpackage]
      exact htwice
  | removed hshown h =>
    simp only [standing, numbers, Prod.mk.injEq] at h
    obtain ⟨-, hnext, hnumbered, hhandles, hpackage⟩ := h
    refine ⟨[.remove _], hpackage, hnumbered, fun ledger hagrees => ?_⟩
    rw [Agrees, hnext, hhandles, hpackage]
    exact hagrees.removed hshown
  | requested h =>
    simp only [standing, numbers, Prod.mk.injEq] at h
    obtain ⟨-, hnext, hnumbered, hhandles, hpackage⟩ := h
    refine ⟨[.request s.nextHandle], hpackage, hnumbered, fun ledger hagrees => ?_⟩
    rw [Agrees, hnext, hhandles, hpackage]
    exact hagrees.requested

theorem uses_of_numbered_eq (h : numbered (turn.apply policy s).outbox = numbered s.outbox) :
    turn.uses policy s = [] := by
  unfold Turn.uses
  split
  · split
    · simp [h]
    · rfl
  · rfl

/-- The ledger gets what the outbox gets. -/
theorem turn_booked : Booked s (turn.apply policy s) (turn.uses policy s) := by
  cases turn_affects policy turn s with
  | spared _ h =>
    have hnumbers := congrArg (·.2) h
    rw [uses_of_numbered_eq policy turn (congrArg (·.2.1) hnumbers)]
    exact .of_numbers hnumbers
  | @failed heap type name args e h =>
    have hsame : (Turn.call heap type name args).apply policy s = s := congrArg (·.2.host) h
    rw [uses_of_numbered_eq policy _ (by rw [hsame]), hsame]
    exact .of_numbers rfl
  | @altered heap type name args vs w' run c hran hdone halters =>
    have happly : (Turn.call heap type name args).apply policy s = w'.host := congrArg (·.2.host) hran
    obtain ⟨told, hbooked⟩ := booked_of_alters halters
    have howner : (Bridge.Argument.ofValue heap s.objects (args.headD .nil)).state? = some c.state := by
      rw [hdone.args_eq]
      exact congrArg Bridge.Argument.state? hdone.receiver
    have huses : (Turn.call heap type name args).uses policy s = told.map (⟨c.state, s.package, ·⟩) := by
      unfold Turn.uses
      simp only [howner, happly, hbooked.numbered_eq, List.length_append, Nat.add_sub_cancel, List.take_left]
      simp
    rw [happly, huses]
    exact hbooked

theorem agrees_play (turns : List (Policy × Turn)) (h : Agrees ledger s) :
    Agrees (uses turns s ++ ledger) (play s turns) := by
  induction turns generalizing s ledger with
  | nil => exact h
  | cons turn rest ih =>
    have hrest := ih ((turn_booked turn.1 turn.2).agrees ledger h)
    rw [← List.append_assoc] at hrest
    exact hrest

/-- The host is told what the ledger says. -/
theorem numbered_play (turns : List (Policy × Turn)) (s : Api.Services) :
    numbered (play s turns).outbox = (uses turns s).map (fun u => (u.package, u.call)) ++ numbered s.outbox := by
  induction turns generalizing s with
  | nil => rfl
  | cons turn rest ih =>
    refine (ih _).trans ?_
    rw [(turn_booked turn.1 turn.2).numbered_eq, uses, List.map_append, List.append_assoc]

theorem package_play (turns : List (Policy × Turn)) (s : Api.Services) : (play s turns).package = s.package := by
  induction turns generalizing s with
  | nil => rfl
  | cons turn rest ih => exact (ih _).trans (turn_booked turn.1 turn.2).package_eq

/-! ## Particles -/

/-- A particle says whether it has a number. -/
theorem isAlive_eq (heap : Heap) {id state : Nat} {p : Api.Particle} (halive : s.alive = true)
    (hobject : s.objects[id]? = some ⟨Api.particleType, state⟩) (hstate : s.states[state]? = some (.particle p)) :
    Bridge.bridgeCall Api.surface policy Api.particleType "isAlive" [.object id] ⟨heap, s, none⟩ =
      (.ok [.bool (handleAt s state).isSome], ⟨heap, s, none⟩) := by
  have hmember : Api.surface.member? Api.particleType "isAlive" =
      some (.method [[]] (Api.onParticle fun _ p => Api.truth p.handle.isSome)) := rfl
  rw [bridgeCall_eq hmember policy ⟨heap, s, none⟩ halive hobject [] rfl]
  simp only [Api.onParticle, Api.on, Api.thing, Bridge.Action.bind_apply, Bridge.Action.look, callOn, handleAt, hstate]
  rfl

/-- A particle that the budget does not allow changes nothing about numbers. -/
theorem spawn_refused (heap : Heap) (args : List Value) (hrefused : (s.gate.tryUse .spawnParticle).1 = false) :
    standing ((Turn.call heap Api.particleType "spawn" args).apply policy s) = standing s := by
  obtain ⟨e, hfailed⟩ | ⟨run, c, vs, w', hran, -, halters⟩ :=
    Api.bridgeCall_cases policy Api.particleType "spawn" args ⟨heap, s, none⟩
  · exact congrArg (standing ·.2.host) hfailed
  · refine (congrArg (standing ·.2.host) hran).trans ?_
    generalize htype : Api.particleType = type, hname : "spawn" = name at halters
    cases halters with
    | nothing _ h => exact h
    | spawned hgranted =>
      rw [hrefused] at hgranted
      cases hgranted
    | removed | requested | registered | cleared => exact absurd hname (by decide)

end Turns

/-! ## Instances -/

/-- At first no number is used. -/
theorem agrees_new (t : Terms) (policy : Policy) (generation : Nat) (source : Source) :
    let s := (Instance.new t policy generation source).services
    Agrees [] s ∧ numbered s.outbox = [] ∧ s.package = source.name := by
  intro s
  have hnew : standing s = (∅, 1, [], fun _ => none, source.name) :=
    Services.new_keeps (f := standing) policy Api.standing_note ..
  simp only [standing, numbers, Prod.mk.injEq] at hnew
  obtain ⟨-, hnext, hnumbered, hhandles, hpackage⟩ := hnew
  refine ⟨?_, hnumbered, hpackage⟩
  rw [Agrees, hhandles]
  exact .empty _ _

/-- **Handles are used linearly.**  Whatever turns the services of a new package go through, under whatever trust, what
the host is told about numbers is what the ledger says, all of it on behalf of the package.  No number is used for two
particles or requests; what is removed is shown at the time, and belongs to the same object; an object has one particle
at most.  While the package lives, a particle says of itself that it is alive exactly if it has one, and if the budget
does not allow another one, what is shown stays as it is.  What the host does with an instance is turns. -/
theorem handles_are_linear (t : Terms) (policy : Policy) (generation : Nat) (source : Source) :
    let i₀ := Instance.new t policy generation source
    (∀ turns : List (Policy × Turn),
      let s := play i₀.services turns
      let ledger := uses turns i₀.services
      numbered s.outbox = ledger.map (fun u => (u.package, u.call)) ∧ (∀ u ∈ ledger, u.package = source.name) ∧
      (newIn ledger).Nodup ∧ RemovesShown ledger ∧
      (∀ owner handle handle', (owner, handle) ∈ shownBy ledger → (owner, handle') ∈ shownBy ledger →
        handle = handle') ∧
      (∀ (policy : Policy) (heap : Heap) (id state : Nat) (p : Api.Particle), s.alive = true →
        s.objects[id]? = some ⟨Api.particleType, state⟩ → s.states[state]? = some (.particle p) →
        ∃ alive, Bridge.bridgeCall Api.surface policy Api.particleType "isAlive" [.object id] ⟨heap, s, none⟩ =
          (.ok [.bool alive], ⟨heap, s, none⟩) ∧ (alive = true ↔ ∃ handle, (state, handle) ∈ shownBy ledger)) ∧
      ∀ (policy : Policy) (heap : Heap) (args : List Value), (s.gate.tryUse .spawnParticle).1 = false →
        (Turn.call heap Api.particleType "spawn" args).uses policy s = [] ∧
        handleAt ((Turn.call heap Api.particleType "spawn" args).apply policy s) = handleAt s) ∧
    ∀ ops : List (Policy × Operation), ∃ parts : List (List Turn), parts.length = ops.length ∧
      (afterAll t i₀ ops).services = play i₀.services (underPolicies ops parts) := by
  intro i₀
  obtain ⟨hnew, hnone, hname⟩ := agrees_new t policy generation source
  refine ⟨fun turns => ?_, run_is_play t i₀⟩
  intro s ledger
  have hagrees : Agrees ledger s := by
    have hplayed := agrees_play turns hnew
    rwa [List.append_nil] at hplayed
  have hpackage : s.package = source.name := (package_play turns _).trans hname
  refine ⟨?_, fun u hu => (hagrees.package_eq u hu).trans hpackage, hagrees.nodup, hagrees.removes, ?_, ?_, ?_⟩
  · have htold := numbered_play turns i₀.services
    rwa [hnone, List.append_nil] at htold
  · intro owner handle handle' h h'
    exact Option.some.inj (((hagrees.shown_iff owner handle).1 h).symm.trans ((hagrees.shown_iff owner handle').1 h'))
  · intro policy heap id state p halive hobject hstate
    refine ⟨_, isAlive_eq policy heap halive hobject hstate, ?_⟩
    simp only [hagrees.shown_iff, Option.isSome_iff_exists]
  · intro policy heap args hrefused
    have hsame := spawn_refused policy heap args hrefused
    exact ⟨uses_of_numbered_eq policy _ (congrArg (·.2.2.1) hsame), Api.handleAt_eq_of_standing hsame⟩

/-- A trust under which a package may show two particles in its first tick. -/
def twoParticles : Policy :=
  { (default : Policy) with tiers := fun _ => { overrides := (∅ : Trust.Overrides).insert .spawnParticle 2 } }

/-- A particle is shown twice and removed; in between it may not be shown again. -/
example :
    let call (name : String) (args : List Value) := (twoParticles, Turn.call default Api.particleType name args)
    let made := (twoParticles, Turn.call default Api.particleMaker "newParticle" [.object 0, .str (Text.bytes "a")])
    let source : Source := { name := "p", principal := "a", modules := ∅, entry := "main" }
    let i := Instance.new { limits := ⟨1, 4, 16⟩, memory := 0 } twoParticles 0 source
    (uses [(twoParticles, .object Api.particleMaker), made, call "spawn" [.object 1], call "spawn" [.object 1],
        call "spawn" [.object 1], call "remove" [.object 1]] i.services).map (·.call) =
      [.remove 2, .spawn 2, .remove 1, .spawn 1] := by
  decide +kernel

end ScriptWarden.Package
