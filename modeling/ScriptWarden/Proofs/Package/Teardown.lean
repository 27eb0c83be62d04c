import ScriptWarden.Proofs.Package.Lifecycle
import ScriptWarden.Proofs.Package.Spoken
set_option autoImplicit false

/-!
# Packages: cut off from the world

An instance that no longer runs is cut off from the world, unless it failed because there was no module to start with:
then it was never started, and nothing was shut down either (`cut_off_unless_unresolved`).
-/

namespace ScriptWarden.Package

open Trust (Policy)

/-- **A package that no longer runs is cut off**, unless there was no module to start with.  Whatever was done with
it: once it has failed or was unloaded, its scripts have no memory and its images no names; and it still counts as
alive exactly if it has failed for want of a module to start with, and else refuses the answer to every request. -/
theorem cut_off_unless_unresolved (t : Terms) (policy : Policy) (generation : Nat) (source : Source)
    (ops : List (Policy × Operation)) :
    let i := afterAll t (.new t policy generation source) ops
    i.stage = .faulted ∨ i.stage = .unloaded → i.heap = none ∧ i.services.textures = ∅ ∧
      (i.services.alive = true ↔ i.stage = .faulted ∧ ¬ i.Resolved) ∧
      (i.services.alive = false → ∀ c, i.services.mailbox.deliver c = (false, i.services.mailbox)) := by
  intro i hended
  have h : Holds i := holds_afterAll generation source ops
  have hstage : i.stage ≠ .running := by
    intro hrunning
    rw [hrunning] at hended
    obtain hfaulted | hunloaded := hended
    · cases hfaulted
    · cases hunloaded
  obtain ⟨hheap, htextures⟩ := h.ended hstage
  refine ⟨hheap, htextures, ?_, fun hdead c => Host.Mailbox.deliver_of_not_live hdead c⟩
  obtain hfaulted | hunloaded := hended
  · exact (h.of_stage hfaulted).2.2.2.trans ⟨fun hnot => ⟨hfaulted, hnot⟩, And.right⟩
  · have hdead : i.services.alive = false := (h.of_stage hunloaded).2.2
    rw [hdead, hunloaded]
    exact ⟨nofun, fun hnot => nomatch hnot.1⟩

/-- A package whose script has registered a function runs; once it is unloaded, its scripts have no memory any more, and
it takes no answers. -/
theorem hearing_cut_off : ∃ i j, (Instance.new roomy default 0 (spoken hearing)).start roomy granting = (.ok (), i) ∧
    i.stage = .running ∧ i.heap.isSome ∧
    afterAll roomy (.new roomy default 0 (spoken hearing)) [(granting, .start), (granting, .unload)] = j ∧
    j.stage = .unloaded ∧ j.heap = none ∧ j.services.textures = ∅ ∧
    ∀ c, j.services.mailbox.deliver c = (false, j.services.mailbox) := by
  obtain ⟨cs, -, htext, hspeaks, -⟩ := hearing_chars
  have hstart := start_spoken htext hspeaks
  obtain ⟨hrunning, hheld⟩ : (running hearing cs).stage = .running ∧ (running hearing cs).heap.isSome := ⟨rfl, rfl⟩
  generalize running hearing cs = i at hstart hrunning hheld
  have hended : afterAll roomy (.new roomy default 0 (spoken hearing)) [(granting, .start), (granting, .unload)] =
      i.unload (roomy.setting granting) := by
    rw [afterAll_start, hstart]
    rfl
  have hunloaded : (i.unload (roomy.setting granting)).stage = .unloaded := by
    rw [Instance.unload, if_neg (by rw [hrunning]; decide)]
    rfl
  have hcut := cut_off_unless_unresolved roomy default 0 (spoken hearing) [(granting, .start), (granting, .unload)]
  rw [hended] at hcut
  obtain ⟨hheap, htextures, halive, hrefuses⟩ := hcut (.inr hunloaded)
  have hdead : (i.unload (roomy.setting granting)).services.alive = false := by
    refine Bool.eq_false_iff.2 fun hlive => ?_
    have hfaulted := (halive.1 hlive).1
    rw [hunloaded] at hfaulted
    cases hfaulted
  exact ⟨i, _, hstart, hrunning, hheld, hended, hunloaded, hheap, htextures, hrefuses hdead⟩

/-- A package without modules. -/
def hollow : Source := { name := "pkg", principal := "owner", modules := ∅, entry := "main" }

/-- Terms of a host without limits. -/
def boundless : Terms := { limits := default, memory := 0 }

/-- A package without modules, after some operations. -/
def hollowAfter (ops : List (Policy × Operation)) : Instance := afterAll boundless (.new boundless default 0 hollow) ops

/-- A package without modules has failed once it was started, and takes answers all the same. -/
theorem hollow_takes_answers :
    let i := hollowAfter [(default, .start)]
    i.stage = .faulted ∧ i.services.alive = true ∧ ∀ c, (i.services.mailbox.deliver c).1 = true :=
  ⟨rfl, rfl, fun _ => rfl⟩

end ScriptWarden.Package
