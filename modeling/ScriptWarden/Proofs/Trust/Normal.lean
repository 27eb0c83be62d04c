import ScriptWarden.Proofs.Trust.Operator
set_option autoImplicit false

/-!
# A file that was loaded and saved once stays as it is

Loading repairs a file and saving leaves out what need not be kept, so a file that people have written
changes on its first way through a policy.  It does so only once: loading what was saved gives a
policy that is saved as the same text, with or without an operator who takes the seat in between.

The text of a policy depends on the records of its groups and principals only (`toArchive_congr`), so
the two policies are compared record by record.  `kept` is what a file leaves of an entry, and
`record_kept` that this leaves the same record.
-/

namespace ScriptWarden.Trust

open Std (ExtTreeMap TransCmp LawfulEqCmp)

namespace Policy

/-! ## Records decide the text -/

/-- The record of a principal, if the policy leaves any. -/
def recordOf? (m : Policy) (p : String) : Option Record :=
  m.principals[p]?.bind fun e => principalRecord? (p, e)

/-- The records of the principals, in the order of their names. -/
theorem principals_toArchive (m : Policy) :
    m.toArchive.principals =
      (m.principals.filterMap fun p e => principalRecord? (p, e)).toList.map Prod.snd := by
  rw [ExtTreeMap.toList_filterMap, List.map_filterMap]
  refine congrArg (fun f => m.principals.toList.filterMap f) (funext fun x => ?_)
  change principalRecord? x = _
  cases principalRecord? x <;> rfl

/-- Policies that leave the same records are saved alike. -/
theorem toArchive_congr {m m' : Policy} (groups : ∀ g, m'.tierRecord? g = m.tierRecord? g)
    (principals : ∀ p, m'.recordOf? p = m.recordOf? p) : m'.toArchive = m.toArchive := by
  have first : m'.toArchive.groups = m.toArchive.groups := by
    rw [toArchive_eq, toArchive_eq, funext groups]
  have second : m'.toArchive.principals = m.toArchive.principals := by
    rw [principals_toArchive, principals_toArchive]
    refine congrArg (fun t : ExtTreeMap String Record => t.toList.map Prod.snd) ?_
    refine ExtTreeMap.ext_getElem? fun p => ?_
    rw [ExtTreeMap.getElem?_filterMap', ExtTreeMap.getElem?_filterMap']
    exact principals p
  rcases h : m.toArchive with ⟨gs, ps⟩
  rcases h' : m'.toArchive with ⟨gs', ps'⟩
  rw [h, h'] at first second
  rw [show gs' = gs from first, show ps' = ps from second]

/-! ## What is kept leaves the same record -/

/-- What a file leaves of an entry is written as the entry was. -/
theorem record_kept {e : Principal} (h : e.group ≠ .operator) (p : String) :
    (e.kept.bind fun e' => principalRecord? (p, e')) = principalRecord? (p, e) := by
  by_cases blocked : e.group = .blocked
  · rw [Principal.kept_blocked blocked]
    simp [principalRecord?, Record.ofPrincipal, blocked, Group.initial]
  · by_cases written : (e.hasChanges || decide (e.group ≠ .initial)) = true
    · rw [Principal.kept, if_pos written, if_neg blocked, unseat, if_neg h]
      rfl
    · rw [Principal.kept, if_neg written, principalRecord?, if_neg written]
      rfl

/-- Nobody has the operator's seat, as after loading. -/
structure Vacant (m : Policy) : Prop where
  operator : m.operator = none
  entries : ∀ (p : String) (e : Principal), m.principals[p]? = some e → e.group ≠ .operator

theorem vacant_ofArchive (d : Defaults) (a : Archive) : (ofArchive d a).Vacant :=
  ⟨operator_ofArchive d a, unseated_ofArchive d a⟩

/-- The policy with the operator in its seat, if there is one. -/
def seat (m : Policy) : Option String → Policy
  | some p => m.withOperator p
  | none => m

/-- In a vacant policy the operator's seat is taken without touching anybody else. -/
theorem getElem?_seat {m : Policy} (h : m.Vacant) (operator : Option String) (q : String) :
    (m.seat operator).principals[q]? =
      if operator = some q then some { m.entry q with group := .operator }
      else m.principals[q]? := by
  cases operator with
  | none => simp [seat]
  | some p =>
    rw [seat, getElem?_withOperator, h.operator]
    by_cases hq : p = q
    · simp [hq]
    · simp [hq]

theorem tiers_seat (m : Policy) (operator : Option String) : (m.seat operator).tiers = m.tiers := by
  cases operator <;> rfl

/-- Once it was saved and loaded and the operator sits again, a policy leaves the record of a
principal that it left before. -/
theorem recordOf?_reseated {m : Policy} (h : m.Vacant) (operator : Option String) (d : Defaults)
    (q : String) :
    ((ofArchive d (m.seat operator).toArchive).seat operator).recordOf? q =
      (m.seat operator).recordOf? q := by
  have found := getElem?_seat h operator q
  have back := getElem?_ofArchive d (m.seat operator) q
  rw [recordOf?, recordOf?, getElem?_seat (vacant_ofArchive d _)]
  split
  · next seated =>
    -- the operator came back in the initial group and is seated again
    rw [if_pos seated] at found
    rw [found, Option.bind_some, Principal.kept_operator rfl] at back
    rw [found, entry_of_some back]
  · next other =>
    rw [if_neg other] at found
    rw [found] at back ⊢
    rw [back]
    cases he : m.principals[q]? with
    | none => rfl
    | some e => exact record_kept (h.entries q e he) q

theorem fits_seat {m : Policy} (h : m.Fits) (operator : Option String) :
    (m.seat operator).Fits := by
  cases operator with
  | none => exact h
  | some p => exact h.apply (.withOperator p)

end Policy

/-- What is left of the text of a file when it was loaded, the operator took its seat, if there is
one, and the policy was saved; `none` if the text cannot be loaded. -/
def Policy.resaved? (d : Defaults) (operator : Option String) (bytes : List UInt8) : Option String :=
  (load? d bytes).map fun m => (m.seat operator).save

/-- Whatever text a file holds that can be loaded, the text that is left of it can be loaded as well,
and nothing but the same text is left of it. -/
theorem resaved_once_stays {d : Defaults} {operator : Option String} {bytes : List UInt8}
    {text : String} (h : Policy.resaved? d operator bytes = some text) :
    (∃ m, Policy.load? d text.toUTF8.toList = some m) ∧
      Policy.resaved? d operator text.toUTF8.toList = some text := by
  obtain ⟨m, hload, rfl⟩ := Option.map_eq_some_iff.mp h
  have fits := Policy.fits_seat (Policy.fits_of_load? hload) operator
  have loaded := Policy.load?_save fits d
  obtain ⟨a, -, rfl⟩ := Option.map_eq_some_iff.mp hload
  have vacant := Policy.vacant_ofArchive d a
  refine ⟨⟨_, loaded⟩, ?_⟩
  rw [Policy.resaved?, loaded, Option.map_some, Policy.save, Policy.save]
  rw [Policy.toArchive_congr (fun g => ?_) (Policy.recordOf?_reseated vacant operator d)]
  rw [Policy.tierRecord?, Policy.tierRecord?, Policy.tiers_seat, Policy.tiers_ofArchive]

/-- A file as people may write it: two records of one principal, a capability that there is not, and
a principal that claims the operator's group. -/
def handwritten : List UInt8 := Text.utf8 <| String.toList <|
  "\x7b\"principals\": [\x7b\"name\": \"ada\", \"parent\": \"FRIEND\"\x7d, "
    ++ "\x7b\"name\": \"ada\", \"parent\": \"LOCAL\", \"trust\": "
    ++ "\x7b\"PLAY_SOUND\": 3, \"FLY\": 1\x7d\x7d]\x7d"

theorem handwritten_stays : ∃ text, Policy.resaved? .builtin (some "bob") handwritten = some text ∧
    Policy.resaved? .builtin (some "bob") text.toUTF8.toList = some text := by
  have accepted : (Policy.resaved? .builtin (some "bob") handwritten).isSome = true := by
    rw [Policy.resaved?, Option.isSome_map]
    decide +kernel
  obtain ⟨text, h⟩ := Option.isSome_iff_exists.mp accepted
  exact ⟨text, h, (resaved_once_stays h).2⟩

end ScriptWarden.Trust
