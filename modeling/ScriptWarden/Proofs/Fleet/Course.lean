import ScriptWarden.Fleet
import ScriptWarden.Proofs.Package.Mail
set_option autoImplicit false

/-!
# The courses of a fleet

Packages are loaded and unloaded, ticks pass, scripts fail, and at any time the host answers requests.  A *course* is
any order of such steps, with a log of which answers were accepted and which events scripts were told of, each with the
load that it is about.  The books of every load are balanced along a course (`Orderly.course`), and once a load is over,
nothing more is written there about it (`Ended.course`).
-/

namespace ScriptWarden

open Package (Amid Holds Instance Mark Source Ticks accepted answered tellMarks)
open Trust (Policy)

/-! ## Loads -/

/-- A load of a package. -/
structure Fleet.Origin where
  package : String
  generation : Nat
  deriving DecidableEq

/-- The load that sent a request. -/
def Host.Token.origin (t : Host.Token) : Fleet.Origin := ⟨t.package, t.generation⟩

namespace Package.Instance

/-- The load that an instance is. -/
def origin (i : Instance) : Fleet.Origin := ⟨i.name, i.services.generation⟩

/-- It was unloaded, or has failed though there was a module to start with. -/
def Finished (i : Instance) : Prop := i.stage = .unloaded ∨ i.stage = .faulted ∧ i.Resolved

/-- The instance after what it had for the world outside was taken. -/
def emptied (i : Instance) : Instance := { i with services := i.services.drain.2 }

theorem origin_eq {i : Instance} {source : Source} {generation : Nat} (hsource : i.source = source)
    (hgeneration : i.services.generation = generation) : i.origin = ⟨source.name, generation⟩ := by
  subst hsource hgeneration
  rfl

theorem not_running_of_finished {i : Instance} (h : i.Finished) : i.stage ≠ .running := by
  intro hrunning
  obtain hunloaded | ⟨hfaulted, -⟩ := h
  · rw [hrunning] at hunloaded
    cases hunloaded
  · rw [hrunning] at hfaulted
    cases hfaulted

/-- Nothing is delivered to a finished instance. -/
theorem dead_of_finished {i : Instance} (hholds : Holds i) (h : i.Finished) : i.services.mailbox.live = false := by
  obtain hunloaded | ⟨hfaulted, hresolved⟩ := h
  · exact (hholds.of_stage hunloaded).2.2
  · exact Bool.eq_false_iff.2 fun hlive => (hholds.of_stage hfaulted).2.2.2.1 hlive hresolved

end Package.Instance

namespace Fleet

/-! ## Logs -/

/-- What happened to answers, each with the load that it is about. -/
abbrev Log := List (Origin × Mark)

/-- A part of a log that is about one load. -/
def about (o : Origin) (marks : List Mark) : Log := marks.map (o, ·)

/-- What a log says about a load. -/
def of (o : Origin) (log : Log) : List Mark := log.filterMap fun entry => if entry.1 = o then some entry.2 else none

section Log

variable {o o' : Origin}

@[simp] theorem of_append (log log' : Log) : of o (log ++ log') = of o log ++ of o log' := List.filterMap_append

@[simp] theorem of_about_self (marks : List Mark) : of o (about o marks) = marks := by
  have hall : (fun entry : Origin × Mark => if entry.1 = o then some entry.2 else none) ∘ (o, ·) = some :=
    funext fun m => if_pos rfl
  unfold of about
  rw [List.filterMap_map, hall, List.filterMap_some]

theorem of_about_of_ne (h : o' ≠ o) (marks : List Mark) : of o (about o' marks) = [] := by
  unfold of about
  rw [List.filterMap_map]
  exact List.filterMap_eq_nil_iff.2 fun m _ => if_neg h

end Log

/-! ## Steps and courses -/

/-- A step of a fleet. -/
inductive Step : Fleet → Log → Fleet → Prop
  /-- A package is loaded under a name that is free, and starts. -/
  | loaded {f : Fleet} {source : Source} {came : List Host.Completion} {o : Package.Outcome}
    (hfree : f.packages[source.name]? = none)
    (hstart : Amid (.new f.terms f.policy f.loads source)
      ((Instance.new f.terms f.policy f.loads source).start f.terms f.policy) came o) :
    Step f (about ⟨source.name, f.loads⟩ (came.map .accepted)) ({ f with loads := f.loads + 1 }.put o.2)
  | unloaded (f : Fleet) (name : String) : Step f [] (f.unload name).2
  /-- A tick passes for a package that runs. -/
  | ticked {f : Fleet} {name : String} {i : Instance} {marks : List Mark} {o : Package.Outcome}
    (hfound : f.packages[name]? = some i) (hrunning : i.stage = .running)
    (hticks : Ticks f.terms f.policy i marks o) : Step f (about i.origin marks) (f.put o.2)
  /-- A package that runs draws a frame. -/
  | rendered {f : Fleet} {name : String} {i : Instance} {delta : Float} {came : List Host.Completion}
    {o : Package.Outcome} (hfound : f.packages[name]? = some i) (hrunning : i.stage = .running)
    (hrender : Amid i (i.render f.terms f.policy delta) came o) :
    Step f (about i.origin (tellMarks (.render delta) came)) (f.put o.2)
  /-- The host answers a request, to whichever load its token belongs. -/
  | answered (f : Fleet) (t : Host.Token) (status : Nat) (body : String) :
    Step f (about t.origin (if (f.answer t status body).1 then [.accepted ⟨t.request, status, body⟩] else []))
      (f.answer t status body).2
  /-- The world outside hears what a package has for it. -/
  | heard {f : Fleet} {name : String} {i : Instance} (hfound : f.packages[name]? = some i) : Step f [] (f.put i)
  /-- The operator changes the policy, or takes from the outbox. -/
  | governed (f : Fleet) (policy : Policy) (outbox : List Package.Effect) : Step f [] { f with policy, outbox }

/-- Steps one after another. -/
inductive Course : Fleet → Log → Fleet → Prop
  | done (f : Fleet) : Course f [] f
  | step {f f' f'' : Fleet} {log log' : Log} (hfirst : Step f log f') (hrest : Course f' log' f'') :
    Course f (log ++ log') f''

theorem Course.one {f f' : Fleet} {log : Log} (h : Step f log f') : Course f log f' :=
  List.append_nil log ▸ .step h (.done f')

theorem Course.trans {f f' f'' : Fleet} {log log' : Log} (h : Course f log f') (h' : Course f' log' f'') :
    Course f (log ++ log') f'' := by
  induction h with
  | done f => exact h'
  | step hfirst hrest ih =>
    rw [List.append_assoc]
    exact .step hfirst (ih h')

/-! ## Balanced books -/

/-- The books of every load are balanced. -/
structure Orderly (log : Log) (f : Fleet) : Prop where
  /-- A package is found under its name, is one of the loads so far, and holds what its stage says. -/
  present : ∀ (name : String) (i : Instance), f.packages[name]? = some i →
    i.name = name ∧ i.services.generation < f.loads ∧ Holds i
  /-- The answers that a load accepted are those that its scripts were told of, and those that wait. -/
  account : ∀ (name : String) (i : Instance), f.packages[name]? = some i →
    accepted (of i.origin log) = answered (of i.origin log) ++ i.waiting
  /-- This goes for loads that are gone, too. -/
  inOrder : ∀ o, answered (of o log) <+: accepted (of o log)
  /-- Nothing is known about loads that are to come. -/
  fresh : ∀ o : Origin, f.loads ≤ o.generation → of o log = []

section Orderly

variable {log log' : Log} {f f' : Fleet} {i i' : Instance} {marks : List Mark} {name : String} {o : Origin}

theorem packages_put (f : Fleet) (i : Instance) : (f.put i).packages = f.packages.insert i.name i.emptied := rfl

/-- What is found after an instance was put among the packages. -/
theorem found_put (hfound : (f.put i).packages[name]? = some i') :
    i.name = name ∧ i' = i.emptied ∨ i.name ≠ name ∧ f.packages[name]? = some i' := by
  rw [packages_put, Std.ExtTreeMap.getElem?_insert] at hfound
  split at hfound
  · next heq => exact .inl ⟨Std.LawfulEqCmp.eq_of_compare heq, (Option.some.inj hfound).symm⟩
  · next hne => exact .inr ⟨fun heq => hne (heq ▸ Std.ReflCmp.compare_self), hfound⟩

/-- Packages may go, and loads may be counted. -/
theorem Orderly.fewer (h : Orderly log f) (hloads : f.loads ≤ f'.loads)
    (hfewer : ∀ (name : String) (i : Instance), f'.packages[name]? = some i → f.packages[name]? = some i) :
    Orderly log f' where
  present name i hfound := by
    obtain ⟨hname, hgeneration, hholds⟩ := h.present name i (hfewer name i hfound)
    exact ⟨hname, Nat.lt_of_lt_of_le hgeneration hloads, hholds⟩
  account name i hfound := h.account name i (hfewer name i hfound)
  inOrder := h.inOrder
  fresh o ho := h.fresh o (Nat.le_trans hloads ho)

/-- An instance whose books are balanced is put among the packages. -/
theorem Orderly.put (h : Orderly log f) (hgeneration : i.services.generation < f.loads) (hholds : Holds i)
    (haccount : accepted (of i.origin log) ++ accepted marks =
      answered (of i.origin log) ++ answered marks ++ i.waiting) :
    Orderly (log ++ about i.origin marks) (f.put i) where
  present name i' hfound := by
    obtain ⟨rfl, rfl⟩ | ⟨-, hfound⟩ := found_put hfound
    · exact ⟨rfl, hgeneration, hholds⟩
    · exact h.present name i' hfound
  account name i' hfound := by
    obtain ⟨rfl, rfl⟩ | ⟨hne, hfound⟩ := found_put hfound
    · change accepted (of i.origin _) = answered (of i.origin _) ++ i.waiting
      rw [of_append, of_about_self, Package.accepted_append, Package.answered_append, haccount]
    · have hother : i.origin ≠ i'.origin := by
        intro heq
        exact hne ((congrArg Origin.package heq).trans (h.present name i' hfound).1)
      rw [of_append, of_about_of_ne hother, List.append_nil]
      exact h.account name i' hfound
  inOrder o := by
    rw [of_append, Package.accepted_append, Package.answered_append]
    by_cases heq : i.origin = o
    · subst heq
      rw [of_about_self, haccount]
      exact List.prefix_append _ _
    · rw [of_about_of_ne heq]
      simpa using h.inOrder o
  fresh o ho := by
    have hother : i.origin ≠ o := by
      rintro rfl
      exact Nat.not_lt.2 ho hgeneration
    rw [of_append, h.fresh o ho, of_about_of_ne hother]
    rfl

/-- Something is done with a package that is there. -/
theorem Orderly.update (h : Orderly log f) (hfound : f.packages[name]? = some i) (horigin : i'.origin = i.origin)
    (hholds : Holds i') (haccount : i.waiting ++ accepted marks = answered marks ++ i'.waiting) :
    Orderly (log ++ about i.origin marks) (f.put i') := by
  obtain ⟨-, hgeneration, -⟩ := h.present name i hfound
  rw [← horigin]
  refine h.put ?_ hholds ?_
  · have hsame : i'.services.generation = i.services.generation := congrArg Origin.generation horigin
    rwa [hsame]
  · rw [horigin, h.account name i hfound, List.append_assoc, haccount, List.append_assoc]

/-- A tick of a package that runs is one of the same load, and balanced. -/
theorem Orderly.afterTick (h : Orderly log f) {o : Package.Outcome} (hfound : f.packages[name]? = some i)
    (hrunning : i.stage = .running) (hticks : Ticks f.terms f.policy i marks o) :
    o.2.origin = i.origin ∧ Orderly (log ++ about i.origin marks) (f.put o.2) := by
  obtain ⟨-, -, hholds⟩ := h.present name i hfound
  have hends := Package.ticks_ends hticks (hholds.runs hrunning)
  have horigin : o.2.origin = i.origin := Instance.origin_eq hends.source (Package.ticks_generation hticks)
  refine ⟨horigin, h.update hfound horigin ?_ (Package.ticks_account hticks)⟩
  exact Package.holds_of_ends hends hrunning (hholds.of_stage hrunning).2

/-- And so is a frame. -/
theorem Orderly.afterRender (h : Orderly log f) {delta : Float} {came : List Host.Completion} {o : Package.Outcome}
    (hfound : f.packages[name]? = some i) (hrunning : i.stage = .running)
    (hrender : Amid i (i.render f.terms f.policy delta) came o) : o.2.origin = i.origin ∧
      Orderly (log ++ about i.origin (tellMarks (.render delta) came)) (f.put o.2) := by
  obtain ⟨-, -, hholds⟩ := h.present name i hfound
  have hends := hrender.ends (Package.render_ends f.terms f.policy delta (hholds.runs hrunning))
  have hposted := Package.posted_of_turns (Package.render_turns f.terms f.policy i delta)
  have horigin : o.2.origin = i.origin := Instance.origin_eq hends.source (hrender.generation hposted)
  refine ⟨horigin, h.update hfound horigin ?_ ?_⟩
  · exact Package.holds_of_ends hends hrunning (hholds.of_stage hrunning).2
  · rw [Package.accepted_tellMarks, Package.answered_tellMarks_render, hrender.waiting]
    rfl

/-- A load that starts is the next one, and the first answers are for it. -/
theorem Orderly.afterStart (h : Orderly log f) {source : Source} {came : List Host.Completion} {o : Package.Outcome}
    (hstart : Amid (.new f.terms f.policy f.loads source)
      ((Instance.new f.terms f.policy f.loads source).start f.terms f.policy) came o) :
    o.2.origin = ⟨source.name, f.loads⟩ ∧
      Orderly (log ++ about ⟨source.name, f.loads⟩ (came.map .accepted)) ({ f with loads := f.loads + 1 }.put o.2) := by
  have hnew : Holds (.new f.terms f.policy f.loads source) := Package.holds_new f.loads source
  have hstarts := Package.start_starts f.terms f.policy (i := .new f.terms f.policy f.loads source) rfl
  have hposted := Package.posted_of_turns
    (Package.start_turns f.terms f.policy (.new f.terms f.policy f.loads source))
  have hkept := Package.Services.new_keeps (f := fun s : Api.Services => (s.generation, s.mailbox)) f.policy
    (fun _ _ => rfl) source.name source.principal f.loads f.terms.limits f.terms.reply
  obtain ⟨hgeneration, hmailbox⟩ := Prod.mk.inj hkept
  have hload : o.2.services.generation = f.loads := (hstart.generation hposted).trans hgeneration
  have hwaiting : o.2.waiting = came := hstart.waiting.trans (congrArg (·.waiting ++ came) hmailbox)
  have horigin : o.2.origin = ⟨source.name, f.loads⟩ := Instance.origin_eq (hstart.source.trans hstarts.source) hload
  have hcounted : Orderly log { f with loads := f.loads + 1 } := h.fewer (Nat.le_succ _) fun _ _ hfound => hfound
  refine ⟨horigin, ?_⟩
  rw [← horigin]
  refine hcounted.put (hload ▸ Nat.lt_succ_self _) (hstart.holds (Package.holds_of_starts hnew rfl hstarts)) ?_
  have hfresh : of o.2.origin log = [] := h.fresh _ (Nat.le_of_eq hload.symm)
  rw [hfresh, Package.accepted_map, Package.answered_map, hwaiting]
  rfl

theorem take_of_found (hfound : f.packages[name]? = some i) :
    f.take name = (some i, { f with packages := f.packages.erase name }) := by
  rw [Fleet.take, hfound]

theorem take_of_absent (habsent : f.packages[name]? = none) : f.take name = (none, f) := by
  rw [Fleet.take, habsent]

/-- What is found after a package was unloaded was there before, under another name. -/
theorem found_unload {name' : String} (hfound : (f.unload name).2.packages[name']? = some i) :
    name ≠ name' ∧ f.packages[name']? = some i := by
  rw [Fleet.unload] at hfound
  cases hthere : f.packages[name]? with
  | none =>
    rw [take_of_absent hthere] at hfound
    refine ⟨?_, hfound⟩
    rintro rfl
    cases hthere.symm.trans hfound
  | some i =>
    rw [take_of_found hthere] at hfound
    simp only [bury, Std.ExtTreeMap.getElem?_erase] at hfound
    split at hfound
    · cases hfound
    · next hne => exact ⟨fun heq => hne (heq ▸ Std.ReflCmp.compare_self), hfound⟩

theorem loads_unload (f : Fleet) (name : String) : (f.unload name).2.loads = f.loads := by
  rw [Fleet.unload]
  cases hthere : f.packages[name]? with
  | none => rw [take_of_absent hthere]
  | some i =>
    rw [take_of_found hthere]
    rfl

theorem Orderly.afterUnload (h : Orderly log f) (name : String) : Orderly log (f.unload name).2 :=
  h.fewer (Nat.le_of_eq (loads_unload f name).symm) fun _ _ hfound => (found_unload hfound).2

theorem Orderly.afterHearing (h : Orderly log f) (hfound : f.packages[name]? = some i) :
    Orderly (log ++ []) (f.put i) := by
  have haccount : i.waiting ++ accepted [] = answered [] ++ i.waiting := List.append_nil _
  exact h.update hfound rfl (h.present _ _ hfound).2.2 haccount

/-- An answer goes to the load that its token names, or nowhere. -/
theorem answer_cases (h : Orderly log f) (t : Host.Token) (status : Nat) (body : String) :
    (∃ i, f.packages[t.package]? = some i ∧ i.origin = t.origin ∧
      f.answer t status body =
        ((i.services.mailbox.deliver ⟨t.request, status, body⟩).1, f.put (i.receive ⟨t.request, status, body⟩))) ∨
    f.answer t status body = (false, f) := by
  unfold Fleet.answer Fleet.sender?
  split
  · next i hsender =>
    refine .inl ⟨i, ?_⟩
    split at hsender
    · next i' hfound =>
      split at hsender
      · next hgeneration =>
        cases hsender
        refine ⟨hfound, ?_, rfl⟩
        unfold Instance.origin Host.Token.origin
        rw [(h.present _ _ hfound).1, hgeneration]
      · cases hsender
    · cases hsender
  · exact .inr rfl

theorem Orderly.afterAnswer (h : Orderly log f) (t : Host.Token) (status : Nat) (body : String) :
    Orderly (log ++ about t.origin (if (f.answer t status body).1 then [.accepted ⟨t.request, status, body⟩] else []))
      (f.answer t status body).2 := by
  obtain ⟨i, hfound, horigin, hanswer⟩ | hanswer := answer_cases h t status body
  · obtain ⟨-, -, hholds⟩ := h.present _ _ hfound
    rw [hanswer, ← horigin]
    have hsame : (i.receive ⟨t.request, status, body⟩).origin = i.origin := rfl
    refine h.update hfound hsame (Package.holds_receive hholds _) ?_
    rw [Instance.waiting_receive]
    split
    · rfl
    · rfl
  · rw [hanswer]
    simpa [about] using h

theorem Orderly.step (h : Orderly log f) (hstep : Step f log' f') : Orderly (log ++ log') f' := by
  cases hstep with
  | loaded hfree hstart => exact (h.afterStart hstart).2
  | unloaded name =>
    rw [List.append_nil]
    exact h.afterUnload name
  | ticked hfound hrunning hticks => exact (h.afterTick hfound hrunning hticks).2
  | rendered hfound hrunning hrender => exact (h.afterRender hfound hrunning hrender).2
  | answered t status body => exact h.afterAnswer t status body
  | heard hfound => exact h.afterHearing hfound
  | governed policy outbox =>
    rw [List.append_nil]
    exact h.fewer (Nat.le_refl _) fun _ _ hfound => hfound

theorem Orderly.course (h : Orderly log f) (hcourse : Course f log' f') : Orderly (log ++ log') f' := by
  induction hcourse generalizing log with
  | done f => rwa [List.append_nil]
  | step hfirst hrest ih =>
    rw [← List.append_assoc]
    exact ih (h.step hfirst)

end Orderly

/-! ## Loads that are over -/

/-- A load is over: it is gone, was unloaded, or a script of it failed. -/
structure Ended (f : Fleet) (o : Origin) : Prop where
  past : o.generation < f.loads
  finished : ∀ i : Instance, f.packages[o.package]? = some i → i.origin = o → i.Finished

section Ended

variable {log log' : Log} {f f' : Fleet} {i : Instance} {name : String} {o : Origin}

theorem Ended.put (hended : Ended f o) (hi : i.origin = o → i.Finished) : Ended (f.put i) o where
  past := hended.past
  finished i' hfound horigin := by
    obtain ⟨-, rfl⟩ | ⟨-, hfound⟩ := found_put hfound
    · exact hi horigin
    · exact hended.finished i' hfound horigin

/-- Whatever is still there of a load that is over is finished. -/
theorem Ended.finished_of_found (h : Orderly log f) (hended : Ended f o) (hfound : f.packages[name]? = some i)
    (horigin : i.origin = o) : i.Finished := by
  have hname : name = o.package := (h.present name i hfound).1.symm.trans (congrArg Origin.package horigin)
  exact hended.finished i (hname ▸ hfound) horigin

/-- A load that is over takes no answers. -/
theorem Ended.refuses (h : Orderly log f) (hended : Ended f o) {t : Host.Token} (ht : t.origin = o) (status : Nat)
    (body : String) : (f.answer t status body).1 = false := by
  obtain ⟨i, hfound, horigin, hanswer⟩ | hanswer := answer_cases h t status body
  · have hdead := Instance.dead_of_finished (h.present _ _ hfound).2.2
      (hended.finished_of_found h hfound (horigin.trans ht))
    rw [hanswer, Host.Mailbox.deliver_of_not_live hdead]
  · rw [hanswer]

/-- A load that is over stays so, and nothing more happens to it. -/
theorem Ended.step (h : Orderly log f) (hended : Ended f o) (hstep : Step f log' f') :
    Ended f' o ∧ of o log' = [] := by
  have hother {name : String} {i : Instance} (hfound : f.packages[name]? = some i) (hrunning : i.stage = .running) :
      i.origin ≠ o := fun horigin =>
    Instance.not_running_of_finished (hended.finished_of_found h hfound horigin) hrunning
  cases hstep with
  | @loaded source came out hfree hstart =>
    have hnew : (⟨source.name, f.loads⟩ : Origin) ≠ o := by
      rintro rfl
      exact Nat.lt_irrefl _ hended.past
    have hcounted : Ended { f with loads := f.loads + 1 } o := ⟨Nat.lt_succ_of_lt hended.past, hended.finished⟩
    exact ⟨hcounted.put fun horigin => absurd ((h.afterStart hstart).1.symm.trans horigin) hnew,
      of_about_of_ne hnew _⟩
  | unloaded name =>
    refine ⟨⟨?_, fun i hfound => hended.finished i (found_unload hfound).2⟩, rfl⟩
    rw [loads_unload]
    exact hended.past
  | ticked hfound hrunning hticks =>
    have hne := hother hfound hrunning
    exact ⟨hended.put fun horigin => absurd ((h.afterTick hfound hrunning hticks).1.symm.trans horigin) hne,
      of_about_of_ne hne _⟩
  | rendered hfound hrunning hrender =>
    have hne := hother hfound hrunning
    exact ⟨hended.put fun horigin => absurd ((h.afterRender hfound hrunning hrender).1.symm.trans horigin) hne,
      of_about_of_ne hne _⟩
  | answered t status body =>
    refine ⟨?_, ?_⟩
    · obtain ⟨i, hfound, -, hanswer⟩ | hanswer := answer_cases h t status body
      · have hfinished : i.origin = o → i.Finished := hended.finished_of_found h hfound
        rw [hanswer]
        exact Ended.put (i := i.receive _) hended hfinished
      · rw [hanswer]
        exact hended
    · by_cases ht : t.origin = o
      · rw [hended.refuses h ht]
        rfl
      · exact of_about_of_ne ht _
  | heard hfound => exact ⟨hended.put fun horigin => hended.finished_of_found h hfound horigin, rfl⟩
  | governed policy outbox => exact ⟨⟨hended.past, hended.finished⟩, rfl⟩

theorem Ended.course (h : Orderly log f) (hended : Ended f o) (hcourse : Course f log' f') :
    Ended f' o ∧ of o log' = [] := by
  induction hcourse generalizing log with
  | done f => exact ⟨hended, rfl⟩
  | step hfirst hrest ih =>
    obtain ⟨hnext, hnone⟩ := hended.step h hfirst
    obtain ⟨hlast, hnone'⟩ := ih (h.step hfirst) hnext
    exact ⟨hlast, by rw [of_append, hnone, hnone', List.append_nil]⟩

end Ended

end Fleet

end ScriptWarden
