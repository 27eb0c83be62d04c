import ScriptWarden.Json.Decode
import ScriptWarden.Proofs.Json.RoundTrip
set_option autoImplicit false

/-!
# Records read back

A record is written with its members in declared order, those that hold nothing left out.  `present`
is what is written of a list of names with their values, if they have one, and `ofValue?_record` says
that reading finds of every name the value it was written with.

The other lemmas are about maps and lists: pairs with a key each, and items of one kind, are read back
if every single value is.
-/

namespace ScriptWarden.Json

/-! ## Members -/

/-- The members that hold something. -/
def present (members : List (String × Option Value)) : List (String × Value) :=
  members.filterMap fun m => m.2.map fun v => (m.1, v)

/-- Every name with the value it has. -/
def Members.ofOptions (members : List (String × Option Value)) : Members where
  get? name := (members.find? fun m => m.1 == name).bind Prod.snd
  positional := false

theorem mem_present {members : List (String × Option Value)} {name : String} {v : Value}
    (h : (name, v) ∈ present members) : name ∈ members.map Prod.fst := by
  obtain ⟨m, hm, hv⟩ := List.mem_filterMap.mp h
  obtain ⟨v', -, e⟩ := Option.map_eq_some_iff.mp hv
  cases e
  exact List.mem_map_of_mem hm

/-- The written members of one name: none, or the one value it has. -/
theorem filter_present {members : List (String × Option Value)}
    (distinct : (members.map Prod.fst).Nodup) (name : String) :
    (present members).filter (fun f => f.1 == name) =
      (((members.find? fun m => m.1 == name).bind Prod.snd).map fun v => (name, v)).toList := by
  induction members with
  | nil => rfl
  | cons m members ih =>
    obtain ⟨key, value⟩ := m
    obtain ⟨new, rest⟩ := List.nodup_cons.mp distinct
    have tail := ih rest
    by_cases hkey : key = name
    · -- the name does not come again
      have nothing : (present members).filter (fun f => f.1 == name) = [] := by
        refine List.filter_eq_nil_iff.mpr fun f hf e => new ?_
        have hname : f.1 = name := by simpa using e
        have hmem : f.1 ∈ members.map Prod.fst := mem_present hf
        rwa [hname, ← hkey] at hmem
      cases value with
      | none => simpa [present, hkey] using nothing
      | some v => simpa [present, hkey] using nothing
    · have skipped : (present ((key, value) :: members)).filter (fun f => f.1 == name) =
          (present members).filter (fun f => f.1 == name) := by
        cases value with
        | none => rfl
        | some v => simp [present, hkey]
      rw [skipped, tail, List.find?_cons_of_neg (by simpa using hkey)]

/-- What is written of some names is read back: of each name the value it has. -/
theorem ofValue?_record {members : List (String × Option Value)}
    (distinct : (members.map Prod.fst).Nodup) (names : List String) :
    Members.ofValue? names (.record (present members)) = some (Members.ofOptions members) := by
  have written : ∀ name, ((present members).map fun f => (some f.1, f.2)).filter
      (fun f => f.1 == some name) =
        (((present members).filter fun f => f.1 == name).map fun f => (some f.1, f.2)) := by
    intro name
    rw [List.filter_map]
    congr 1
  have keyed : ((present members).map fun f => (some f.1, f.2)).all (fun f => f.1.isSome) = true := by
    simp
  have once : names.all (fun n =>
      keyCount n ((present members).map fun f => (some f.1, f.2)) ≤ 1) = true := by
    refine List.all_eq_true.mpr fun n _ => ?_
    rw [decide_eq_true_eq, keyCount, written, List.length_map, filter_present distinct]
    exact Option.length_toList_le
  have found : (fun n => (((present members).map fun f => (some f.1, f.2)).find?
      fun f => f.1 == some n).map Prod.snd) = (Members.ofOptions members).get? := by
    funext n
    rw [← List.head?_filter, written, filter_present distinct]
    cases h : (members.find? fun m => m.1 == n).bind Prod.snd <;> simp [Members.ofOptions, h]
  have accepted := Bool.and_eq_true_iff.mpr ⟨keyed, once⟩
  exact (if_pos accepted).trans (congrArg some (congrArg (Members.mk · false) found))

/-! ## Pairs and lists -/

theorem mapM_of_forall {α β : Type} {f : α → Option β} {g : α → β} {l : List α}
    (h : ∀ x ∈ l, f x = some (g x)) : l.mapM f = some (l.map g) := by
  induction l with
  | nil => rfl
  | cons x l ih =>
    have head := h x List.mem_cons_self
    have tail := ih fun y hy => h y (List.mem_cons_of_mem _ hy)
    simp [head, tail]

theorem pairs?_record {α : Type} {read : Value → Option α} (write : α → Value)
    {entries : List (String × α)} (h : ∀ x ∈ entries, read (write x.2) = some x.2) :
    (Value.record (entries.map fun x => (x.1, write x.2))).pairs? read = some entries := by
  have each : ∀ x ∈ entries, (do return (← some x.1, ← read (write x.2)) : Option (String × α)) =
      some (id x) := by
    intro x hx
    simp [h x hx]
  have all := mapM_of_forall each
  rw [List.map_id] at all
  rw [← all, Value.record, Value.pairs?, List.mapM_map, List.mapM_map]
  rfl

theorem list?_array {α : Type} {read : Value → Option α} {write : α → Value} {items : List α}
    (h : ∀ x ∈ items, read (write x) = some x) :
    (Value.array (items.map write)).list? read = some items := by
  have all := mapM_of_forall (g := id) h
  rw [List.map_id] at all
  rw [← all, Value.list?, List.mapM_map]
  rfl

theorem of_mem_mapM {α β : Type} {f : α → Option β} {l : List α} {l' : List β}
    (h : l.mapM f = some l') {y : β} (hy : y ∈ l') : ∃ x ∈ l, f x = some y := by
  induction l generalizing l' with
  | nil =>
    cases h
    cases hy
  | cons x l ih =>
    rw [List.mapM_cons] at h
    obtain ⟨z, hz, h⟩ := Option.bind_eq_some_iff.mp h
    obtain ⟨zs, hzs, h⟩ := Option.bind_eq_some_iff.mp h
    cases h
    rcases List.mem_cons.mp hy with rfl | hy
    · exact ⟨x, List.mem_cons_self, hz⟩
    · obtain ⟨x', hx', e⟩ := ih hzs hy
      exact ⟨x', List.mem_cons_of_mem _ hx', e⟩

theorem of_mem_pairs? {α : Type} {read : Value → Option α} {v : Value} {pairs : List (String × α)}
    (h : v.pairs? read = some pairs) {k : String} {x : α} (hx : (k, x) ∈ pairs) :
    ∃ w, read w = some x := by
  unfold Value.pairs? at h
  split at h
  · obtain ⟨f, -, e⟩ := of_mem_mapM h hx
    obtain ⟨k', -, e⟩ := Option.bind_eq_some_iff.mp e
    obtain ⟨x', hx', e⟩ := Option.bind_eq_some_iff.mp e
    cases e
    exact ⟨f.2, hx'⟩
  · cases h

theorem of_mem_list? {α : Type} {read : Value → Option α} {v : Value} {items : List α}
    (h : v.list? read = some items) {x : α} (hx : x ∈ items) : ∃ w, read w = some x := by
  unfold Value.list? at h
  split at h
  · obtain ⟨w, -, e⟩ := of_mem_mapM h hx
    exact ⟨w, e⟩
  · cases h

/-- A member that may be left out has the default or a value that was read. -/
theorem getOr_eq_some {α : Type} {m : Members} {name : String} {default : α}
    {read : Value → Option α} {x : α} (h : m.getOr name default read = some x) :
    x = default ∨ ∃ v, read v = some x := by
  unfold Members.getOr at h
  split at h
  · next v _ => exact .inr ⟨v, h⟩
  · exact .inl (Option.some.inj h).symm

theorem isPlain_array {items : List Value} (h : ∀ v ∈ items, v.isPlain = true) :
    (Value.array items).isPlain = true := by
  induction items with
  | nil => rfl
  | cons v items ih =>
    have head := h v List.mem_cons_self
    have tail := ih fun w hw => h w (List.mem_cons_of_mem _ hw)
    exact Bool.and_eq_true_iff.mpr ⟨head, tail⟩

theorem isPlain_record {fields : List (String × Value)} (h : ∀ f ∈ fields, f.2.isPlain = true) :
    (Value.record fields).isPlain = true := by
  induction fields with
  | nil => rfl
  | cons f fields ih =>
    have head := h f List.mem_cons_self
    have tail := ih fun g hg => h g (List.mem_cons_of_mem _ hg)
    exact Bool.and_eq_true_iff.mpr ⟨Bool.and_eq_true_iff.mpr ⟨rfl, head⟩, tail⟩

end ScriptWarden.Json
