import ScriptWarden.Proofs.Package.Services
import ScriptWarden.Proofs.Package.Turn
set_option autoImplicit false

/-!
# Packages: the life of an instance

An instance moves from stage to stage, and what it holds depends on the stage: memory for scripts exactly while it
runs, a reason once it has failed (`lifecycle`).
-/

namespace ScriptWarden.Package

open Lua (Heap)
open Trust (Policy)

/-! ## How scripts end -/

/-- Scripts can run in an instance. -/
structure Runs (i : Instance) : Prop where
  stage : i.stage = .running
  heap : i.heap.isSome

/-- What comes of letting scripts run in an instance: it goes on, or a script failed.  Until then only its memory and
its services change. -/
inductive Ends (i : Instance) : Outcome → Prop
  | done (heap : Heap) (services : Api.Services) : Ends i (.ok (), { i with heap := some heap, services })
  | failed (services : Api.Services) (e : Script.Error) :
    Ends i (.error (.script i.name e.message (Script.errorLine? e.message)),
      { i with heap := none, services : Instance }.fail e.message)

section Ends

variable (t : Terms) (policy : Policy) {i i' : Instance} {o : Outcome}

/-- The host changes the services. -/
theorem Ends.ofServices (hruns : Runs i) (services : Api.Services) : Ends i (.ok (), { i with services }) := by
  obtain ⟨source, stage, heap, services', lastError⟩ := i
  obtain ⟨heap, rfl⟩ := Option.isSome_iff_exists.1 hruns.heap
  exact .done heap services

/-- The host may change the services before. -/
theorem Ends.after (services : Api.Services) (h : Ends { i with services } o) : Ends i o := by
  cases h with
  | done heap services => exact .done heap services
  | failed services e => exact .failed services e

/-- Once scripts have run without an error, they can run again. -/
theorem Ends.then {r : Except Failure Unit} (h : Ends i (r, i')) (hr : r = .ok ()) (hruns : Runs i)
    (hnext : Runs i' → Ends i' o) : Ends i o := by
  generalize hfirst : (r, i') = first at h
  cases h with
  | done heap services =>
    cases hfirst
    have hrest := hnext ⟨hruns.stage, rfl⟩
    cases hrest with
    | done heap services => exact .done heap services
    | failed services e => exact .failed services e
  | failed services e =>
    cases hfirst
    cases hr

theorem Ends.source (h : Ends i o) : o.2.source = i.source := by
  cases h with
  | done heap services => rfl
  | failed services e => rfl

theorem runScripts_ends {α : Type} (s : Script.Setting Api.Thing) (hruns : Runs i)
    (run : Script.Vm Api.Thing → Script.Result Api.Thing α) : Ends i (i.runScripts s run) := by
  obtain ⟨source, stage, heap, services, lastError⟩ := i
  obtain ⟨heap, rfl⟩ := Option.isSome_iff_exists.1 hruns.heap
  unfold Instance.runScripts
  simp only
  split
  · exact .done _ _
  · obtain ⟨services', heq⟩ := fault_eq s _ _
    rw [heq]
    exact .failed (i := ⟨source, stage, some heap, services, lastError⟩) services' _

/-- An operation that the stage allows. -/
theorem during_ends {action : String} {run : Instance → Outcome} (hruns : Runs i) (hrun : Ends i (run i)) :
    Ends i (i.during .running action run) := by
  unfold Instance.during
  rw [if_pos hruns.stage]
  exact hrun

theorem dispatch_ends (e : Event) (hruns : Runs i) : Ends i (i.dispatch t policy e) := by
  have hconsulted : Runs { i with services := (i.services.trustValue policy e.phase.capability).2 } :=
    ⟨hruns.stage, hruns.heap⟩
  exact during_ends hruns (.after _ (runScripts_ends _ hconsulted _))

theorem dispatchWaiting_ends (n : Nat) (hruns : Runs i) : Ends i (Instance.dispatchWaiting t policy n i) := by
  induction n generalizing i with
  | zero => exact .ofServices hruns i.services
  | succ n ih =>
    unfold Instance.dispatchWaiting
    split
    · exact .ofServices hruns i.services
    · next c mailbox _ =>
      have hdispatch := dispatch_ends t policy (.networkResponse c.request c.status c.body)
        (i := { i with services := { i.services with mailbox } }) ⟨hruns.stage, hruns.heap⟩
      refine .after { i.services with mailbox } ?_
      split
      · next heq => rwa [heq] at hdispatch
      · next heq =>
        rw [heq] at hdispatch
        exact hdispatch.then rfl ⟨hruns.stage, hruns.heap⟩ ih

theorem tick_ends (hruns : Runs i) : Ends i (i.tick t policy) := by
  have hticked : Runs { i with services := i.services.tickQuotas policy } := ⟨hruns.stage, hruns.heap⟩
  have hwaiting := dispatchWaiting_ends t policy
    { i with services := i.services.tickQuotas policy : Instance }.mostAnswers hticked
  refine during_ends hruns (.after (i.services.tickQuotas policy) ?_)
  simp only
  split
  · next heq => rwa [heq] at hwaiting
  · next heq =>
    rw [heq] at hwaiting
    exact hwaiting.then rfl hticked (dispatch_ends t policy .tick)

theorem render_ends (delta : Float) (hruns : Runs i) : Ends i (i.render t policy delta) := by
  have hdispatch := dispatch_ends t policy (.render delta) hruns
  refine during_ends hruns ?_
  split
  · next heq => rwa [heq] at hdispatch
  · next heq =>
    rw [heq] at hdispatch
    exact hdispatch.then rfl hruns fun hruns => .ofServices hruns _

theorem enter_ends (entry : String) (hruns : Runs i) : Ends i (i.enter t policy entry) := by
  unfold Instance.enter
  refine .after _ (runScripts_ends _ ?_ _)
  exact ⟨hruns.stage, hruns.heap⟩

end Ends

/-! ## How an instance starts -/

/-- What comes of starting an instance that was just created. -/
inductive Starts (i : Instance) : Outcome → Prop
  /-- There is no module to start with. -/
  | unresolved (e : Failure) (h : i.source.resolveEntry = .error e) :
    Starts i (.error e, { i.note .error e.message with stage := .faulted, lastError := some e.message })
  /-- The package could not be set up. -/
  | unready (services : Api.Services) (e : Script.Error) (entry : String) (h : i.source.resolveEntry = .ok entry)
    (htextures : services.textures = ∅) (hdead : services.alive = false) :
    Starts i (.error (.setup i.name e.message),
      { i with stage := .faulted, heap := none, services, lastError := some e.message })
  /-- The entry module ran. -/
  | entered (heap : Heap) (services : Api.Services) (entry : String) (h : i.source.resolveEntry = .ok entry)
    {o : Outcome} (hran : Ends { i with stage := .running, heap := some heap, services } o) : Starts i o

/-- What is left of the scripts of a package that has ended neither makes an image nor brings it back to life. -/
theorem release_ended (t : Terms) (policy : Policy) {i : Instance} (hended : i.services.alive = false) :
    (i.release (t.setting policy)).services.textures = i.services.textures ∧
      (i.release (t.setting policy)).services.mailbox = i.services.mailbox := by
  have hkept := turns_keep_ended (f := fun s : Api.Services => (s.textures, s.mailbox)) policy (fun _ _ _ => rfl)
    (fun _ _ => rfl) (fun _ _ => rfl) (fun _ _ => rfl) (release_lasts t policy i) hended
  exact Prod.mk.inj hkept

theorem failSetup_starts (t : Terms) (policy : Policy) {i i' : Instance} (hsource : i'.source = i.source)
    (e : Script.Error) {entry : String} (hentry : i.source.resolveEntry = .ok entry) :
    Starts i (i'.failSetup (t.setting policy) e) := by
  obtain ⟨source, stage, heap, services, lastError⟩ := i'
  cases hsource
  let failed : Instance :=
    ((⟨i.source, stage, heap, services, lastError⟩ : Instance).note .error
      ("setup failed: " ++ e.message)).fail e.message
  obtain ⟨htextures, hmailbox⟩ := release_ended t policy (i := failed) rfl
  obtain ⟨services', heq⟩ := release_eq (t.setting policy) failed
  have hheeded : (Instance.heed (.error e) services').textures = services'.textures ∧
      (Instance.heed (.error e) services').mailbox = services'.mailbox := by
    unfold Instance.heed
    split <;> exact ⟨rfl, rfl⟩
  have hresult : (⟨i.source, stage, heap, services, lastError⟩ : Instance).failSetup (t.setting policy) e =
      (.error (.setup i.name e.message), { failed.release (t.setting policy) with
        services := Instance.heed (.error e) (failed.release (t.setting policy)).services }) := rfl
  rw [heq] at htextures hmailbox
  rw [hresult, heq]
  exact .unready (Instance.heed (.error e) services') e entry hentry (hheeded.1.trans htextures)
    (congrArg Host.Mailbox.live (hheeded.2.trans hmailbox))

theorem start_starts (t : Terms) (policy : Policy) {i : Instance} (hcreated : i.stage = .created) :
    Starts i (i.start t policy) := by
  obtain ⟨source, stage, heap, services, lastError⟩ := i
  unfold Instance.start Instance.during
  rw [if_pos hcreated]
  simp only
  split
  · next e hentry => exact .unresolved e hentry
  · next entry hentry =>
    split
    · refine failSetup_starts t policy ?_ _ hentry
      rfl
    · exact .entered _ _ entry hentry (enter_ends t policy entry ⟨rfl, rfl⟩)

theorem Starts.source {i : Instance} {o : Outcome} (h : Starts i o) : o.2.source = i.source := by
  cases h with
  | unresolved e hentry => rfl
  | unready services e entry hentry htextures hdead => rfl
  | entered heap services entry hentry hran => exact hran.source

/-! ## Stages -/

/-- Another stage that a package may come to. -/
inductive Leads : Stage → Stage → Prop
  | started : Leads .created .running
  | unstarted : Leads .created .faulted
  | failed : Leads .running .faulted
  | unloaded (s : Stage) : Leads s .unloaded

/-- The stage that an operation needs, and what it is called where that is missing. -/
def Operation.needs : Operation → Option (Stage × String)
  | .start => some (.created, "start")
  | .tick => some (.running, "tick")
  | .render _ => some (.running, "render")
  | .dispatch _ => some (.running, "dispatch")
  | .answer _ => none
  | .unload => none

/-- What the caller of an operation gets. -/
def Operation.result (t : Terms) (policy : Policy) (op : Operation) (i : Instance) : Except Failure Unit :=
  match op with
  | .start => (i.start t policy).1
  | .tick => (i.tick t policy).1
  | .render delta => (i.render t policy delta).1
  | .dispatch e => (i.dispatch t policy e).1
  | .answer _ => .ok ()
  | .unload => .ok ()

/-- An operation that the stage does not allow is refused, and changes nothing. -/
theorem refused_of_stage {t : Terms} {policy : Policy} {op : Operation} {i : Instance} {stage : Stage}
    {action : String} (hneeds : op.needs = some (stage, action)) (hstage : i.stage ≠ stage) :
    (op.result t policy i, op.apply t policy i) = (.error (.stage i.name action i.stage), i) := by
  cases op with
  | answer c => cases hneeds
  | unload => cases hneeds
  | _ =>
    cases hneeds
    exact if_neg hstage

/-! ## What an instance holds -/

/-- There is a module to start with. -/
def Instance.Resolved (i : Instance) : Prop := ∃ entry, i.source.resolveEntry = .ok entry

/-- What an instance holds, stage by stage. -/
def Holds (i : Instance) : Prop :=
  match i.stage with
  | .created => i.heap = none ∧ i.services.textures = ∅ ∧ i.services.alive = true
  | .sandboxed => False
  | .running => i.heap.isSome ∧ i.Resolved
  | .faulted => i.heap = none ∧ i.services.textures = ∅ ∧ i.lastError.isSome ∧ (i.services.alive = true ↔ ¬ i.Resolved)
  | .unloaded => i.heap = none ∧ i.services.textures = ∅ ∧ i.services.alive = false

section Holds

variable {t : Terms} {policy : Policy} {i : Instance} {o : Outcome}

theorem Holds.of_stage (h : Holds i) {stage : Stage} (hstage : i.stage = stage) : Holds { i with stage } := by
  subst hstage
  exact h

theorem Holds.runs (h : Holds i) (hstage : i.stage = .running) : Runs i :=
  ⟨hstage, (h.of_stage hstage).1⟩

/-- An instance that does not run has no memory for scripts, and its images have no names. -/
theorem Holds.ended (h : Holds i) (hstage : i.stage ≠ .running) : i.heap = none ∧ i.services.textures = ∅ := by
  unfold Holds at h
  split at h
  · exact ⟨h.1, h.2.1⟩
  · exact h.elim
  · next hrunning => exact absurd hrunning hstage
  · exact ⟨h.1, h.2.1⟩
  · exact ⟨h.1, h.2.1⟩

theorem Holds.heap_iff (h : Holds i) : i.heap.isSome ↔ i.stage = .running := by
  refine ⟨fun hheap => Decidable.byContradiction fun hstage => ?_, fun hstage => (h.runs hstage).heap⟩
  rw [(h.ended hstage).1] at hheap
  cases hheap

/-- The instance after an answer came, whether it was taken or not. -/
def Instance.receive (i : Instance) (c : Host.Completion) : Instance :=
  { i with services := { i.services with mailbox := (i.services.mailbox.deliver c).2 } }

/-- What an operation may come to. -/
inductive Comes (i : Instance) : Operation → Outcome → Prop
  /-- The stage does not allow it. -/
  | refused {op : Operation} (stage : Stage) (action : String) (hneeds : op.needs = some (stage, action))
    (hstage : i.stage ≠ stage) : Comes i op (.error (.stage i.name action i.stage), i)
  | started {o : Outcome} (hstage : i.stage = .created) (hstarts : Starts i o) : Comes i .start o
  /-- Scripts run. -/
  | ran {op : Operation} {o : Outcome} (action : String) (hneeds : op.needs = some (.running, action))
    (hruns : Runs i) (hends : Ends i o) : Comes i op o
  | answered (c : Host.Completion) : Comes i (.answer c) (.ok (), i.receive c)
  | unloaded (t : Terms) (policy : Policy) : Comes i .unload (.ok (), i.unload (t.setting policy))

theorem operation_comes (t : Terms) (policy : Policy) (h : Holds i) (op : Operation) :
    Comes i op (op.result t policy i, op.apply t policy i) := by
  have hrefused {stage : Stage} {action : String} (hneeds : op.needs = some (stage, action))
      (hstage : i.stage ≠ stage) : Comes i op (op.result t policy i, op.apply t policy i) := by
    rw [refused_of_stage hneeds hstage]
    exact .refused stage action hneeds hstage
  cases op with
  | start =>
    by_cases hstage : i.stage = .created
    · exact .started hstage (start_starts t policy hstage)
    · exact hrefused rfl hstage
  | tick =>
    by_cases hstage : i.stage = .running
    · exact .ran _ rfl (h.runs hstage) (tick_ends t policy (h.runs hstage))
    · exact hrefused rfl hstage
  | render delta =>
    by_cases hstage : i.stage = .running
    · exact .ran _ rfl (h.runs hstage) (render_ends t policy delta (h.runs hstage))
    · exact hrefused rfl hstage
  | dispatch e =>
    by_cases hstage : i.stage = .running
    · exact .ran _ rfl (h.runs hstage) (dispatch_ends t policy e (h.runs hstage))
    · exact hrefused rfl hstage
  | answer c => exact .answered c
  | unload => exact .unloaded t policy

theorem holds_fail (hheap : i.heap = none) (hresolved : i.Resolved) (reason : String) : Holds (i.fail reason) :=
  ⟨hheap, rfl, rfl, nofun, fun hnot => absurd hresolved hnot⟩

theorem holds_of_ends (h : Ends i o) (hstage : i.stage = .running) (hresolved : i.Resolved) : Holds o.2 := by
  cases h with
  | done heap services =>
    unfold Holds
    rw [hstage]
    exact ⟨rfl, hresolved⟩
  | failed services e =>
    exact holds_fail (i := { i with heap := none, services }) rfl hresolved e.message

theorem holds_new (generation : Nat) (source : Source) : Holds (.new t policy generation source) := by
  have hservices := Services.new_keeps (f := fun s : Api.Services => (s.textures, s.mailbox)) policy (fun _ _ => rfl)
    source.name source.principal generation t.limits t.reply
  obtain ⟨htextures, hmailbox⟩ := Prod.mk.inj hservices
  exact ⟨rfl, htextures, congrArg Host.Mailbox.live hmailbox⟩

theorem holds_of_starts (h : Holds i) (hcreated : i.stage = .created) (hstarts : Starts i o) : Holds o.2 := by
  obtain ⟨hheap, htextures, halive⟩ := h.of_stage hcreated
  cases hstarts with
  | unresolved e hentry =>
    have hunresolved : ¬ i.Resolved := by
      rintro ⟨entry, hresolved⟩
      rw [hresolved] at hentry
      cases hentry
    exact ⟨hheap, htextures, rfl, fun _ => hunresolved, fun _ => halive⟩
  | unready services e entry hentry htextures hdead =>
    refine ⟨rfl, htextures, rfl, fun hlive => ?_, fun hnot => absurd ⟨entry, hentry⟩ hnot⟩
    rw [show services.alive = true from hlive] at hdead
    cases hdead
  | entered heap services entry hentry hran => exact holds_of_ends hran rfl ⟨entry, hentry⟩

/-- Answering does not bring a mailbox back to life. -/
theorem live_deliver (m : Host.Mailbox) (c : Host.Completion) : (m.deliver c).2.live = m.live := by
  unfold Host.Mailbox.deliver
  split <;> rfl

theorem holds_receive (h : Holds i) (c : Host.Completion) : Holds (i.receive c) := by
  unfold Instance.receive
  unfold Holds at h ⊢
  simp only [Services.alive, Instance.Resolved, live_deliver] at h ⊢
  exact h

theorem holds_unload (h : Holds i) : Holds (i.unload (t.setting policy)) := by
  let shut : Instance := { i with services := i.services.shutdown }
  obtain ⟨htextures, hmailbox⟩ := release_ended t policy (i := shut) rfl
  obtain ⟨services, heq⟩ := release_eq (t.setting policy) shut
  rw [heq] at htextures hmailbox
  unfold Instance.unload
  split
  · exact h
  · simp only [show ({ i with services := i.services.shutdown } : Instance) = shut from rfl, heq]
    exact ⟨rfl, htextures, congrArg (·.drain.2.live) hmailbox⟩

/-- An operation keeps what an instance holds in line with its stage. -/
theorem holds_of_comes (h : Holds i) {op : Operation} (hcomes : Comes i op o) : Holds o.2 := by
  cases hcomes with
  | refused => exact h
  | started hstage hstarts => exact holds_of_starts h hstage hstarts
  | ran action hneeds hruns hends => exact holds_of_ends hends hruns.stage (h.of_stage hruns.stage).2
  | answered c => exact holds_receive h c
  | unloaded t policy => exact holds_unload h

theorem holds_afterAll (generation : Nat) (source : Source) (ops : List (Policy × Operation)) :
    Holds (afterAll t (.new t policy generation source) ops) := by
  have hnew : Holds (.new t policy generation source) := holds_new generation source
  generalize Instance.new t policy generation source = i at hnew
  induction ops generalizing i with
  | nil => exact hnew
  | cons o rest ih => exact ih _ (holds_of_comes hnew (operation_comes t o.1 hnew o.2))

end Holds

/-! ## The life of an instance -/

/-- Either all went well and the package runs, or there is an error and it has failed. -/
inductive RunsOrFails : Outcome → Prop
  | runs {i : Instance} (hstage : i.stage = .running) : RunsOrFails (.ok (), i)
  | failed {i : Instance} (e : Failure) (hstage : i.stage = .faulted) : RunsOrFails (.error e, i)

section RunsOrFails

variable {i : Instance} {o : Outcome}

theorem runsOrFails_of_ends (h : Ends i o) (hstage : i.stage = .running) : RunsOrFails o := by
  cases h with
  | done heap services => exact .runs hstage
  | failed services e => exact .failed _ rfl

theorem runsOrFails_of_starts (h : Starts i o) : RunsOrFails o := by
  cases h with
  | unresolved e hentry => exact .failed e rfl
  | unready services e entry hentry htextures hdead => exact .failed _ rfl
  | entered heap services entry hentry hran => exact runsOrFails_of_ends hran rfl

theorem RunsOrFails.ok_iff (h : RunsOrFails o) : o.1 = .ok () ↔ o.2.stage = .running := by
  cases h with
  | runs hstage => exact ⟨fun _ => hstage, fun _ => rfl⟩
  | failed e hstage =>
    refine ⟨nofun, fun hrunning => ?_⟩
    rw [hstage] at hrunning
    cases hrunning

theorem RunsOrFails.error_iff (h : RunsOrFails o) : (∃ e, o.1 = .error e) ↔ o.2.stage = .faulted := by
  cases h with
  | runs hstage =>
    refine ⟨nofun, fun hfaulted => ?_⟩
    rw [hstage] at hfaulted
    cases hfaulted
  | failed e hstage => exact ⟨fun _ => hstage, fun _ => ⟨e, rfl⟩⟩

theorem RunsOrFails.stage (h : RunsOrFails o) : o.2.stage = .running ∨ o.2.stage = .faulted := by
  cases h with
  | runs hstage => exact .inl hstage
  | failed e hstage => exact .inr hstage

end RunsOrFails

/-- What an operation does that came to an outcome. -/
structure Legal (i : Instance) (op : Operation) (o : Outcome) : Prop where
  /-- The stage stays, or leads to another one. -/
  stage : o.2.stage = i.stage ∨ Leads i.stage o.2.stage
  /-- A start succeeds exactly if the package runs then that was only created before. -/
  start : op = .start → (o.1 = .ok () ↔ i.stage = .created ∧ o.2.stage = .running)
  /-- Ticks, frames and other events of a running package fail exactly if it ends. -/
  event : ∀ action, op.needs = some (.running, action) → i.stage = .running →
    ((∃ e, o.1 = .error e) ↔ o.2.stage = .faulted)
  /-- What the stage does not allow is refused, and changes nothing at all. -/
  refused : ∀ stage action, op.needs = some (stage, action) → i.stage ≠ stage →
    o = (.error (.stage i.name action i.stage), i)
  /-- Nothing happens to a package that was unloaded. -/
  final : i.stage = .unloaded → o.2 = i

section Legal

variable {i : Instance} {op : Operation} {o : Outcome}

theorem legal_refused {stage : Stage} {action : String} (hneeds : op.needs = some (stage, action))
    (hstage : i.stage ≠ stage) : Legal i op (.error (.stage i.name action i.stage), i) where
  stage := .inl rfl
  start hop := by
    subst hop
    cases hneeds
    exact ⟨nofun, fun hcreated => absurd hcreated.1 hstage⟩
  event action' hneeds' hrunning := by
    rw [hneeds] at hneeds'
    cases hneeds'
    exact absurd hrunning hstage
  refused stage' action' hneeds' hstage' := by
    rw [hneeds] at hneeds'
    cases hneeds'
    rfl
  final _ := rfl

theorem legal_started (hcreated : i.stage = .created) (h : RunsOrFails o) : Legal i .start o where
  stage := by
    rw [hcreated]
    obtain hrunning | hfaulted := h.stage
    · exact .inr (hrunning ▸ .started)
    · exact .inr (hfaulted ▸ .unstarted)
  start _ := h.ok_iff.trans ⟨fun hrunning => ⟨hcreated, hrunning⟩, And.right⟩
  event action hneeds := by cases hneeds
  refused stage action hneeds hstage := by
    cases hneeds
    exact absurd hcreated hstage
  final hunloaded := by
    rw [hcreated] at hunloaded
    cases hunloaded

theorem legal_ran {action : String} (hneeds : op.needs = some (.running, action)) (hrunning : i.stage = .running)
    (h : RunsOrFails o) : Legal i op o where
  stage := by
    rw [hrunning]
    obtain hstays | hfaulted := h.stage
    · exact .inl hstays
    · exact .inr (hfaulted ▸ .failed)
  start hop := by
    subst hop
    cases hneeds
  event _ _ _ := h.error_iff
  refused stage action' hneeds' hstage := by
    rw [hneeds] at hneeds'
    cases hneeds'
    exact absurd hrunning hstage
  final hunloaded := by
    rw [hrunning] at hunloaded
    cases hunloaded

theorem legal_answered (h : Holds i) (c : Host.Completion) : Legal i (.answer c) (.ok (), i.receive c) where
  stage := .inl rfl
  start hop := by cases hop
  event action hneeds := by cases hneeds
  refused stage action hneeds := by cases hneeds
  final hunloaded := by
    have hdead : i.services.mailbox.live = false := (h.of_stage hunloaded).2.2
    unfold Instance.receive
    rw [Host.Mailbox.deliver_of_not_live hdead]

theorem legal_unloaded (t : Terms) (policy : Policy) : Legal i .unload (.ok (), i.unload (t.setting policy)) where
  stage := by
    unfold Instance.unload
    split
    · exact .inl rfl
    · exact .inr (.unloaded _)
  start hop := by cases hop
  event action hneeds := by cases hneeds
  refused stage action hneeds := by cases hneeds
  final hunloaded := if_pos hunloaded

theorem legal_of_comes (h : Holds i) (hcomes : Comes i op o) : Legal i op o := by
  cases hcomes with
  | refused stage action hneeds hstage => exact legal_refused hneeds hstage
  | started hstage hstarts => exact legal_started hstage (runsOrFails_of_starts hstarts)
  | ran action hneeds hruns hends => exact legal_ran hneeds hruns.stage (runsOrFails_of_ends hends hruns.stage)
  | answered c => exact legal_answered h c
  | unloaded t policy => exact legal_unloaded t policy

end Legal

/-- **The life of a package.**  Whatever was done with it: it is between no two stages, has memory for its scripts
exactly while it runs, and a reason once it has failed.  And whatever is done with it next is legal: stages only lead
where they may, operations fail exactly if the package does, and what its stage does not allow changes nothing. -/
theorem lifecycle (t : Terms) (policy : Policy) (generation : Nat) (source : Source)
    (ops : List (Policy × Operation)) :
    let i := afterAll t (.new t policy generation source) ops
    i.stage ≠ .sandboxed ∧ (i.heap.isSome ↔ i.stage = .running) ∧ (i.stage = .faulted → i.lastError.isSome) ∧
    ∀ policy op, Legal i op (op.result t policy i, op.apply t policy i) := by
  intro i
  have h : Holds i := holds_afterAll generation source ops
  refine ⟨fun hstage => h.of_stage hstage, h.heap_iff, fun hstage => (h.of_stage hstage).2.2.1, ?_⟩
  intro policy op
  exact legal_of_comes h (operation_comes t policy h op)

end ScriptWarden.Package
