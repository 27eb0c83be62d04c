import ScriptWarden.Proofs.Fleet.Course
import ScriptWarden.Proofs.Package.Spoken
set_option autoImplicit false

/-!
# The fleet: answers to requests

Whatever a host does with its fleet, one thing after another, is a course (`walks_deeds`).  Along every course, answers
that come in the middle of a tick included, the scripts of a load are told of the answers to its own requests, in order
and once (`delivery`).
-/

namespace ScriptWarden

open Package (Holds Instance Mark Source Terms Ticks accepted answered trusting)
open Trust (Policy)

namespace Fleet

/-! ## Courses of a host -/

/-- What a host does with its fleet. -/
inductive Deed where
  | load (source : Source)
  | unload (name : String)
  | unloadAll
  | tick
  | render (delta : Float)
  | round
  | answer (t : Host.Token) (status : Nat) (body : String)
  | govern (policy : Policy)
  | drain

/-- The fleet after a deed. -/
def Deed.apply (f : Fleet) : Deed → Fleet
  | .load source => (f.load source).2
  | .unload name => (f.unload name).2
  | .unloadAll => f.unloadAll
  | .tick => f.tick.2
  | .render delta => (f.render delta).2
  | .round => f.round
  | .answer t status body => (f.answer t status body).2
  | .govern policy => { f with policy }
  | .drain => f.drain.2

/-- There is a course from one fleet to another. -/
def Walks (f f' : Fleet) : Prop := ∃ log, Course f log f'

/-- There are balanced books of a fleet. -/
def Settled (f : Fleet) : Prop := ∃ log, Orderly log f

section Walks

variable {f f' f'' : Fleet} {i : Instance} {name : String}

theorem Walks.refl (f : Fleet) : Walks f f := ⟨[], .done f⟩

theorem Walks.one {log : Log} (h : Step f log f') : Walks f f' := ⟨log, .one h⟩

theorem Walks.trans (h : Walks f f') (h' : Walks f' f'') : Walks f f'' := by
  obtain ⟨log, hcourse⟩ := h
  obtain ⟨log', hcourse'⟩ := h'
  exact ⟨log ++ log', hcourse.trans hcourse'⟩

theorem Settled.walks (hsettled : Settled f) (h : Walks f f') : Settled f' := by
  obtain ⟨log, horderly⟩ := hsettled
  obtain ⟨log', hcourse⟩ := h
  exact ⟨log ++ log', horderly.course hcourse⟩

/-- Steps that are only about the outbox. -/
theorem walks_outbox (f : Fleet) (outbox : List Package.Effect) : Walks f { f with outbox } :=
  .one (.governed f f.policy outbox)

theorem walks_start {source : Source} (hfree : f.packages[source.name]? = none) : Walks f
    ({ f with loads := f.loads + 1 }.put
      ((Instance.new f.terms f.policy f.loads source).start f.terms f.policy).2) :=
  .one (.loaded hfree (Package.amid_alone rfl
    (Package.posted_of_turns (Package.start_turns f.terms f.policy (.new f.terms f.policy f.loads source)))))

/-- A package that is loaded under the name of another starts once that is unloaded. -/
theorem walks_replace {source : Source} (hthere : f.packages.contains source.name = true) :
    Walks ((f.note (.info ("[engine] reloading '" ++ source.name ++ "'"))).unload source.name).2 (f.load source).2 := by
  rw [Fleet.load, if_pos hthere]
  refine walks_start (Option.eq_none_iff_forall_ne_some.2 fun i hfound => ?_)
  exact (found_unload hfound).1 rfl

theorem walks_load (f : Fleet) (source : Source) : Walks f (f.load source).2 := by
  by_cases hthere : f.packages.contains source.name = true
  · exact (walks_outbox f _).trans (.trans (.one (.unloaded _ source.name)) (walks_replace hthere))
  · rw [Fleet.load, if_neg hthere]
    exact walks_start (Std.ExtTreeMap.getElem?_eq_none hthere)

theorem walks_unloadAll (f : Fleet) : Walks f f.unloadAll := by
  unfold Fleet.unloadAll
  generalize f.packages.keys = names
  induction names generalizing f with
  | nil => exact .refl f
  | cons name rest ih => exact .trans (.one (.unloaded f name)) (ih _)

/-- Taking a package out and putting it back is putting it among the packages. -/
theorem put_erase (hname : i.name = name) : { f with packages := f.packages.erase name }.put i = f.put i := by
  subst hname
  have hpackages : (f.packages.erase i.name).insert i.name i.emptied = f.packages.insert i.name i.emptied := by
    refine Std.ExtTreeMap.ext_getElem? fun k => ?_
    rw [Std.ExtTreeMap.getElem?_insert, Std.ExtTreeMap.getElem?_insert, Std.ExtTreeMap.getElem?_erase]
    split
    · rfl
    · rfl
  exact congrArg (fun packages => { f.put i with packages }) hpackages

/-- Something that a host does with each package that runs. -/
structure Walking (run : Terms → Policy → Instance → Package.Outcome) : Prop where
  walks : ∀ {f : Fleet}, Settled f → ∀ {name : String} {i : Instance}, f.packages[name]? = some i →
    i.stage = .running → Walks f (f.put (run f.terms f.policy i).2) ∧ (run f.terms f.policy i).2.name = name

/-- The same terms and the same policy. -/
def SameRules (f f' : Fleet) : Prop := f'.terms = f.terms ∧ f'.policy = f.policy

theorem walks_onRunning {run : Terms → Policy → Instance → Package.Outcome} (hrun : Walking run) (hsettled : Settled f)
    (name : String) (failures : List Failure) :
    Walks f (onRunning (run f.terms f.policy) name (failures, f)).2 ∧
      SameRules f (onRunning (run f.terms f.policy) name (failures, f)).2 := by
  unfold onRunning
  simp only
  cases hfound : f.packages[name]? with
  | none =>
    rw [take_of_absent hfound]
    exact ⟨.refl f, rfl, rfl⟩
  | some i =>
    obtain ⟨log, horderly⟩ := hsettled
    have hname : i.name = name := (horderly.present name i hfound).1
    rw [take_of_found hfound]
    simp only
    split
    · next hrunning =>
      obtain ⟨hwalks, hkept⟩ := hrun.walks ⟨log, horderly⟩ hfound hrunning
      split
      · next i' heq =>
        rw [heq] at hwalks hkept
        exact ⟨(put_erase hkept).symm ▸ hwalks, rfl, rfl⟩
      · next e i' heq =>
        rw [heq] at hwalks hkept
        exact ⟨(put_erase hkept).symm ▸ hwalks, rfl, rfl⟩
    · exact ⟨(put_erase hname).symm ▸ .one (.heard hfound), rfl, rfl⟩

theorem walks_onEach {run : Terms → Policy → Instance → Package.Outcome} (hrun : Walking run) (hsettled : Settled f) :
    Walks f (f.onEach run).2 := by
  unfold Fleet.onEach
  simp only
  generalize f.packages.keys = names
  generalize ([] : List Failure) = failures
  -- the terms and the policy are those of the first fleet all along
  obtain ⟨terms, hterms⟩ : ∃ terms, terms = f.terms := ⟨_, rfl⟩
  obtain ⟨policy, hpolicy⟩ : ∃ policy, policy = f.policy := ⟨_, rfl⟩
  rw [← hterms, ← hpolicy]
  induction names generalizing f failures with
  | nil => exact .refl f
  | cons name rest ih =>
    obtain ⟨hfirst, hsame⟩ := walks_onRunning hrun hsettled name failures
    rw [← hterms, ← hpolicy] at hfirst hsame
    exact hfirst.trans (ih (hsettled.walks hfirst) _ (hterms.trans hsame.1.symm) (hpolicy.trans hsame.2.symm))

theorem walking_tick : Walking Instance.tick where
  walks := by
    intro f hsettled name i hfound hrunning
    obtain ⟨log, horderly⟩ := hsettled
    obtain ⟨marks, hticks⟩ := Package.tick_ticks f.terms f.policy hrunning
    refine ⟨.one (.ticked hfound hrunning hticks), ?_⟩
    rw [← (horderly.present name i hfound).1]
    exact congrArg Origin.package (horderly.afterTick hfound hrunning hticks).1

theorem walking_render (delta : Float) : Walking fun terms policy i => i.render terms policy delta where
  walks := by
    intro f hsettled name i hfound hrunning
    obtain ⟨log, horderly⟩ := hsettled
    have hrender := Package.amid_alone rfl
      (Package.posted_of_turns (Package.render_turns f.terms f.policy i delta))
    refine ⟨.one (.rendered hfound hrunning hrender), ?_⟩
    rw [← (horderly.present name i hfound).1]
    exact congrArg Origin.package (horderly.afterRender hfound hrunning hrender).1

theorem walks_round (hsettled : Settled f) : Walks f f.round := by
  have hticked : Walks f f.tick.2 := walks_onEach walking_tick hsettled
  have hrendered : Walks f.tick.2 (f.tick.2.render 0).2 :=
    walks_onEach (walking_render 0) (hsettled.walks hticked)
  refine (hticked.trans hrendered).trans ?_
  change Walks (f.tick.2.render 0).2 (List.foldl _ (f.tick.2.render 0).2 (f.tick.1 ++ (f.tick.2.render 0).1))
  generalize f.tick.1 ++ (f.tick.2.render 0).1 = failures
  generalize (f.tick.2.render 0).2 = f
  induction failures generalizing f with
  | nil => exact .refl f
  | cons e rest ih => exact (walks_outbox f _).trans (ih _)

/-- Whatever a host does is a course. -/
theorem walks_deed (hsettled : Settled f) (deed : Deed) : Walks f (deed.apply f) := by
  cases deed with
  | load source => exact walks_load f source
  | unload name => exact .one (.unloaded f name)
  | unloadAll => exact walks_unloadAll f
  | tick => exact walks_onEach walking_tick hsettled
  | render delta => exact walks_onEach (walking_render delta) hsettled
  | round => exact walks_round hsettled
  | answer t status body => exact .one (.answered f t status body)
  | govern policy => exact .one (.governed f policy f.outbox)
  | drain => exact walks_outbox f []

theorem walks_deeds (hsettled : Settled f) (deeds : List Deed) : Walks f (deeds.foldl Deed.apply f) := by
  induction deeds generalizing f with
  | nil => exact .refl f
  | cons deed rest ih =>
    have hfirst : Walks f (deed.apply f) := walks_deed hsettled deed
    exact hfirst.trans (ih (hsettled.walks hfirst))

end Walks

/-- The books of a fleet without packages are balanced. -/
theorem orderly_new (t : Terms) (policy : Policy) : Orderly [] (.new t policy) := by
  have hnone (name : String) : (new t policy).packages[name]? = none := Std.ExtTreeMap.getElem?_empty
  exact {
    present := fun name i hfound => by cases (hnone name).symm.trans hfound
    account := fun name i hfound => by cases (hnone name).symm.trans hfound
    inOrder := fun o => List.prefix_refl _
    fresh := fun o _ => rfl }

/-! ## Delivery -/

/-- What holds of answers at any moment of a course, with the log up to that moment. -/
structure Delivers (log : Log) (f : Fleet) : Prop where
  /-- The scripts of a load were told of the answers that were accepted for it, in their order and each once. -/
  inOrder : ∀ o, answered (of o log) <+: accepted (of o log)
  /-- Only the load that a token names accepts the answer. -/
  own : ∀ (t : Host.Token) (status : Nat) (body : String), (f.answer t status body).1 = true →
    ∃ i, f.packages[t.package]? = some i ∧ i.origin = t.origin
  /-- A tick that comes to its end has told of every answer that was accepted before it began, and then of itself. -/
  tick : ∀ (name : String) (i : Instance) (marks : List Mark) (out : Package.Outcome), f.packages[name]? = some i →
    i.stage = .running → Ticks f.terms f.policy i marks out → out.1 = .ok () →
    ∃ before after, marks = before ++ .told .tick :: after ∧ answered after = [] ∧
      accepted (of i.origin log) <+: answered (of i.origin log) ++ answered before
  /-- Once a load is over, whatever comes then, nothing more is accepted for it, and its scripts are told of nothing. -/
  ended : ∀ o, Ended f o → ∀ log' f', Course f log' f' → of o log' = [] ∧
    ∀ t : Host.Token, t.origin = o → ∀ status body, (f'.answer t status body).1 = false
  /-- A load is over when a script of it failed, -/
  failed : ∀ (name : String) (i : Instance), f.packages[name]? = some i → i.stage = .faulted → i.Resolved →
    Ended f i.origin
  /-- when its package is unloaded, -/
  unloaded : ∀ (name : String) (i : Instance), f.packages[name]? = some i → Ended (f.unload name).2 i.origin
  /-- and when another package is loaded under its name. -/
  replaced : ∀ (source : Source) (i : Instance), f.packages[source.name]? = some i →
    Ended (f.load source).2 i.origin
  /-- Nothing has been accepted for the next load, and its scripts were told of nothing, though it counts its requests
  from one again. -/
  next : ∀ source : Source, of ⟨source.name, f.loads⟩ log = [] ∧
    (Instance.new f.terms f.policy f.loads source).services.nextHandle = 1

section Delivery

variable {log : Log} {f : Fleet} {i : Instance} {name : String}

theorem Orderly.ended_of_finished (h : Orderly log f) (hfound : f.packages[name]? = some i) (hi : i.Finished) :
    Ended f i.origin where
  past := (h.present name i hfound).2.1
  finished i' hfound' _ := by
    have hname : i.origin.package = name := (h.present name i hfound).1
    rw [hname, hfound] at hfound'
    cases hfound'
    exact hi

theorem Orderly.ended_of_unloaded (h : Orderly log f) (hfound : f.packages[name]? = some i) :
    Ended (f.unload name).2 i.origin where
  past := by
    rw [loads_unload]
    exact (h.present name i hfound).2.1
  finished i' hfound' _ := absurd (h.present name i hfound).1.symm (found_unload hfound').1

theorem Orderly.ended_of_replaced (h : Orderly log f) {source : Source} (hfound : f.packages[source.name]? = some i) :
    Ended (f.load source).2 i.origin := by
  have hthere : f.packages.contains source.name = true := by
    rw [Std.ExtTreeMap.contains_eq_isSome_getElem?, hfound]
    rfl
  have hnoted : Orderly log (f.note (.info ("[engine] reloading '" ++ source.name ++ "'"))) :=
    h.fewer (Nat.le_refl _) fun _ _ hfound => hfound
  obtain ⟨log', hcourse⟩ := walks_replace hthere
  exact ((hnoted.ended_of_unloaded hfound).course (hnoted.afterUnload source.name) hcourse).1

theorem Orderly.tells (h : Orderly log f) {marks : List Mark} {out : Package.Outcome}
    (hfound : f.packages[name]? = some i) (hticks : Ticks f.terms f.policy i marks out) (hok : out.1 = .ok ()) :
    ∃ before after, marks = before ++ .told .tick :: after ∧ answered after = [] ∧
      accepted (of i.origin log) <+: answered (of i.origin log) ++ answered before := by
  obtain ⟨before, after, hmarks, hwaiting, hafter⟩ := Package.ticks_complete hticks hok
  refine ⟨before, after, hmarks, hafter, ?_⟩
  rw [h.account name i hfound]
  exact (List.prefix_append_right_inj _).2 hwaiting

end Delivery

/-- **Answers are delivered once, in order, to the load that asked.** -/
theorem delivery (t : Terms) (policy : Policy) {log : Log} {f : Fleet} (h : Course (.new t policy) log f) :
    Delivers log f := by
  have horderly : Orderly log f := (orderly_new t policy).course h
  exact {
    inOrder := horderly.inOrder
    own := by
      intro t status body htaken
      obtain ⟨i, hfound, horigin, -⟩ | hanswer := answer_cases horderly t status body
      · exact ⟨i, hfound, horigin⟩
      · rw [hanswer] at htaken
        cases htaken
    tick := fun name i marks out hfound _ hticks hok => horderly.tells hfound hticks hok
    ended := by
      intro o hended log' f' hcourse
      obtain ⟨hended', hnone⟩ := hended.course horderly hcourse
      exact ⟨hnone, fun t ht status body => hended'.refuses (horderly.course hcourse) ht status body⟩
    failed := fun name i hfound hfaulted hresolved => horderly.ended_of_finished hfound (.inr ⟨hfaulted, hresolved⟩)
    unloaded := fun name i hfound => horderly.ended_of_unloaded hfound
    replaced := fun source i hfound => horderly.ended_of_replaced hfound
    next := fun source => ⟨horderly.fresh _ (Nat.le_refl _), Package.Services.new_keeps
      (f := fun s : Api.Services => s.nextHandle) f.policy (fun _ _ => rfl) source.name source.principal f.loads
      f.terms.limits f.terms.reply⟩ }

/-! ## A package that asks -/

/-- A script that sends a request and prints the answer. -/
def asking : String := "events:register('network_response', function(id, status, body) print(body) end)
net:request('/news')
"

/-- The host once the script has run. -/
def heardFrom (cs : List Char) : Fleet :=
  let f : Fleet := .new Package.roomy trusting
  { f with loads := f.loads + 1 }.put (Package.running asking cs Package.trusted)

/-- The script runs to its end, and writes down the answer to its request with the next tick. -/
theorem asking_chars : ∃ cs, asking = String.ofList cs ∧ Package.Speaks cs Package.trusted ∧
    ((heardFrom cs).answer ⟨"", 0, 1⟩ 200 "hello").1 = true ∧
    (((heardFrom cs).answer ⟨"", 0, 1⟩ 200 "hello").2.tick.2.packages[""]?.map
      fun i => (i.name, i.services.generation, i.services.log)) = some ("", 0, [⟨"info", "hello"⟩]) := by
  refine ⟨_, rfl, ?_, ?_, ?_⟩ <;> decide +kernel

/-- A package whose start succeeds is put among the others. -/
theorem load_of_start {f : Fleet} {source : Source} (hfree : f.packages.contains source.name = false) {i : Instance}
    (hstart : (Instance.new f.terms f.policy f.loads source).start f.terms f.policy = (.ok (), i)) :
    f.load source = (.ok (), { f with loads := f.loads + 1 }.put i) := by
  rw [Fleet.load, if_neg (Bool.eq_false_iff.1 hfree)]
  simp only [hstart]

theorem load_asking {cs : List Char} (htext : asking = String.ofList cs)
    (hspeaks : Package.Speaks cs Package.trusted) :
    (Fleet.new Package.roomy trusting).load (Package.spoken asking) = (.ok (), heardFrom cs) := by
  have hstart := Package.start_of_speaks Package.spokenReady_trusted htext hspeaks
  exact load_of_start (f := .new Package.roomy trusting) Std.ExtTreeMap.contains_empty hstart

/-- The script of a package is told of the answer to its request with the next tick.  Once the package is unloaded, the
same answer is refused. -/
theorem asking_delivery : ∃ f log i, let told := [Deed.answer ⟨"", 0, 1⟩ 200 "hello", .tick].foldl Deed.apply f
    (Fleet.new Package.roomy trusting).load (Package.spoken asking) = (.ok (), f) ∧
      Course (.new Package.roomy trusting) log told ∧ (f.answer ⟨"", 0, 1⟩ 200 "hello").1 = true ∧
      told.packages[""]? = some i ∧ i.services.log = [⟨"info", "hello"⟩] ∧
      ((told.unload "").2.answer ⟨"", 0, 1⟩ 200 "hello").1 = false := by
  obtain ⟨cs, htext, hspeaks, haccepted, htold⟩ := asking_chars
  have hload := load_asking htext hspeaks
  generalize heardFrom cs = f at haccepted htold hload
  have hsettled : Settled (.new Package.roomy trusting) := ⟨[], orderly_new Package.roomy trusting⟩
  have hwalks := walks_load (.new Package.roomy trusting) (Package.spoken asking)
  rw [hload] at hwalks
  obtain ⟨i, hfound, hi⟩ := Option.map_eq_some_iff.1 htold
  obtain ⟨hname, hgeneration, hlog⟩ :
      i.name = "" ∧ i.services.generation = 0 ∧ i.services.log = [⟨"info", "hello"⟩] := by
    simpa using hi
  have horigin : (⟨"", 0, 1⟩ : Host.Token).origin = i.origin := by
    rw [Instance.origin, hname, hgeneration]
    rfl
  obtain ⟨log, hcourse⟩ := hwalks.trans (walks_deeds (hsettled.walks hwalks) [.answer ⟨"", 0, 1⟩ 200 "hello", .tick])
  have hover := (delivery Package.roomy trusting hcourse).unloaded "" i hfound
  have hrefused := (delivery Package.roomy trusting (hcourse.trans (.one (.unloaded _ "")))).ended i.origin hover [] _
    (.done _)
  exact ⟨f, log, i, hload, hcourse, haccepted, hfound, hlog, hrefused.2 _ horigin 200 "hello"⟩

end Fleet

end ScriptWarden
