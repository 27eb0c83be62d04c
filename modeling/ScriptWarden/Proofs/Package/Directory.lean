import Mathlib.Data.List.Lex
import Mathlib.Data.String.Basic
import ScriptWarden.Package.Source
set_option autoImplicit false

/-!
# The modules of a directory

Every file whose name is a stem and the ending `.lua` is a module, at any depth, and it is named by its path without
that ending.  One stem is the exception: a path that ends in one dot is not written, so the file `..lua` is named as the
file `...lua` beside it would be, whose text it replaces (`directory_modules`).  Where no file has that name, modules
and files correspond one to one.
-/

namespace ScriptWarden.Package

/-! ## Trees -/

/-- The file at the end of a chain of names. -/
inductive Entry.Reaches : Entry → List String → ByteArray → Prop
  | file (bytes : ByteArray) : Reaches (.file bytes) [] bytes
  | child {entries : List (String × Entry)} {name : String} {e : Entry} {path : List String} {bytes : ByteArray} :
      (name, e) ∈ entries → e.Reaches path bytes → Reaches (.directory entries) (name :: path) bytes

/-- What a file or a directory can be called. -/
structure ValidName (name : String) : Prop where
  nonempty : name ≠ ""
  not_dots : name ≠ "." ∧ name ≠ ".."
  no_slash : '/' ∉ name.toList

instance (name : String) : Decidable (ValidName name) :=
  decidable_of_iff (name ≠ "" ∧ (name ≠ "." ∧ name ≠ "..") ∧ '/' ∉ name.toList)
    ⟨fun ⟨h, h', h''⟩ => ⟨h, h', h''⟩, fun ⟨h, h', h''⟩ => ⟨h, h', h''⟩⟩

/-- A tree as it is read: the names in each directory are valid, different and in their order. -/
inductive Entry.Listed : Entry → Prop
  | file (bytes : ByteArray) : Listed (.file bytes)
  | directory {entries : List (String × Entry)} : entries.Pairwise (fun x y => x.1 < y.1) →
      (∀ x ∈ entries, ValidName x.1) → (∀ x ∈ entries, x.2.Listed) → Listed (.directory entries)

theorem Entry.Listed.validName {e : Entry} {path : List String} {bytes : ByteArray} (hlisted : e.Listed)
    (hreaches : e.Reaches path bytes) : ∀ name ∈ path, ValidName name := by
  induction hreaches with
  | file bytes => exact nofun
  | child hmem _ ih =>
    obtain ⟨⟩ | ⟨-, hvalid, hchildren⟩ := hlisted
    exact List.forall_mem_cons.2 ⟨hvalid _ hmem, ih (hchildren _ hmem)⟩

/-- A file as it is found: the directories above it, its name, and what it holds. -/
structure Placed where
  above : List String
  name : String
  bytes : ByteArray

/-- All the names on the way to a file. -/
def Placed.path (p : Placed) : List String := p.above ++ [p.name]

mutual

/-- The files of one entry, in the order in which they are found. -/
def filesOf (above : List String) (name : String) : Entry → List Placed
  | .file bytes => [⟨above, name, bytes⟩]
  | .directory entries => filesIn (above ++ [name]) entries

/-- The files of some entries. -/
def filesIn (above : List String) : List (String × Entry) → List Placed
  | [] => []
  | (name, e) :: rest => filesOf above name e ++ filesIn above rest

end

mutual

theorem mem_filesOf (above : List String) (name : String) (p : Placed) :
    ∀ e : Entry, p ∈ filesOf above name e ↔ ∃ path, e.Reaches path p.bytes ∧ p.path = above ++ name :: path
  | .file bytes => by
    obtain ⟨above', name', bytes'⟩ := p
    simp only [filesOf, List.mem_singleton, Placed.mk.injEq, Placed.path]
    constructor
    · rintro ⟨rfl, rfl, rfl⟩
      exact ⟨[], .file _, rfl⟩
    · rintro ⟨_, ⟨⟩, hpath⟩
      obtain ⟨rfl, rfl⟩ := List.append_singleton_inj.1 hpath
      exact ⟨rfl, rfl, rfl⟩
  | .directory entries => by
    rw [filesOf, mem_filesIn (above ++ [name]) p entries]
    constructor
    · rintro ⟨name', e, path, hmem, hreaches, hpath⟩
      exact ⟨_, .child hmem hreaches, by rw [hpath, List.append_assoc]; rfl⟩
    · rintro ⟨_, ⟨⟩ | ⟨hmem, hreaches⟩, hpath⟩
      exact ⟨_, _, _, hmem, hreaches, by rw [hpath, List.append_assoc]; rfl⟩

/-- Exactly the files that some names lead to are found. -/
theorem mem_filesIn (above : List String) (p : Placed) :
    ∀ entries : List (String × Entry), p ∈ filesIn above entries ↔
      ∃ name e path, (name, e) ∈ entries ∧ e.Reaches path p.bytes ∧ p.path = above ++ name :: path
  | [] => by simp [filesIn]
  | (name, e) :: rest => by
    rw [filesIn, List.mem_append, mem_filesOf above name p e, mem_filesIn above p rest]
    constructor
    · rintro (⟨path, hreaches, hpath⟩ | ⟨name', e', path, hmem, hreaches, hpath⟩)
      · exact ⟨name, e, path, .head _, hreaches, hpath⟩
      · exact ⟨name', e', path, .tail _ hmem, hreaches, hpath⟩
    · rintro ⟨name', e', path, hmem, hreaches, hpath⟩
      obtain hhead | hmem := List.mem_cons.1 hmem
      · cases hhead
        exact .inl ⟨path, hreaches, hpath⟩
      · exact .inr ⟨name', e', path, hmem, hreaches, hpath⟩

end

theorem mem_files {p : Placed} {entries : List (String × Entry)} :
    p ∈ filesIn [] entries ↔ (Entry.directory entries).Reaches p.path p.bytes := by
  rw [mem_filesIn]
  constructor
  · rintro ⟨name, e, path, hmem, hreaches, hpath⟩
    exact hpath ▸ .child hmem hreaches
  · intro hreaches
    generalize hpath : p.path = path at hreaches
    obtain ⟨⟩ | ⟨hmem, hreaches⟩ := hreaches
    exact ⟨_, _, _, hmem, hreaches, rfl⟩

/-- Names that differ decide the order of paths. -/
theorem path_lt {above path path' : List String} {name name' : String} (h : name < name') :
    above ++ name :: path < above ++ name' :: path' :=
  List.append_left_lt (List.cons_lt_cons_iff.2 (.inl h))

mutual

theorem filesOf_sorted (above : List String) (name : String) :
    ∀ {e : Entry}, e.Listed → (filesOf above name e).Pairwise fun p q => p.path < q.path
  | .file _, _ => List.pairwise_singleton _ _
  | .directory entries, .directory hsorted _ hlisted => by
    rw [filesOf]
    exact filesIn_sorted (above ++ [name]) hsorted hlisted

/-- Files are found in the order of their paths. -/
theorem filesIn_sorted (above : List String) :
    ∀ {entries : List (String × Entry)}, entries.Pairwise (fun x y => x.1 < y.1) → (∀ x ∈ entries, x.2.Listed) →
      (filesIn above entries).Pairwise fun p q => p.path < q.path
  | [], _, _ => .nil
  | (name, e) :: rest, hsorted, hlisted => by
    obtain ⟨hfirst, hrest⟩ := List.pairwise_cons.1 hsorted
    rw [filesIn, List.pairwise_append]
    refine ⟨filesOf_sorted above name (hlisted _ (.head _)),
      filesIn_sorted above hrest fun x hx => hlisted x (.tail _ hx), fun p hp q hq => ?_⟩
    obtain ⟨path, -, hpath⟩ := (mem_filesOf above name p e).1 hp
    obtain ⟨name', e', path', hmem, -, hpath'⟩ := (mem_filesIn above q rest).1 hq
    rw [hpath, hpath']
    exact path_lt (hfirst _ hmem)

end

/-! ## Names -/

theorem moduleStem?_eq_some {name stem : String} :
    moduleStem? name = some stem ↔ stem ≠ "" ∧ name = stem ++ ".lua" := by
  simp only [moduleStem?, Bool.and_eq_true, List.isSuffixOf_iff_suffix, decide_eq_true_eq]
  constructor
  · intro hstem
    split at hstem
    · next hends =>
      obtain ⟨⟨front, hfront⟩, hlonger⟩ := hends
      rw [← hfront, List.length_append, Nat.add_sub_cancel, List.take_left] at hstem
      obtain rfl := Option.some.inj hstem
      refine ⟨?_, String.toList_injective (by rw [String.toList_append, String.toList_ofList, hfront])⟩
      rintro hempty
      obtain rfl : front = [] := by simpa using congrArg String.toList hempty
      exact absurd hlonger (by rw [← hfront]; simp)
    · exact nomatch hstem
  · rintro ⟨hstem, rfl⟩
    have hlonger : ".lua".toList.length < (stem ++ ".lua").toList.length := by
      have hpos : 0 < stem.toList.length :=
        List.length_pos_iff.2 fun h => hstem (String.toList_injective h)
      rw [String.toList_append, List.length_append]
      omega
    rw [if_pos ⟨⟨stem.toList, String.toList_append.symm⟩, hlonger⟩, String.toList_append, List.length_append,
      Nat.add_sub_cancel, List.take_left, String.ofList_toList]

/-- A module's file in a tree: a stem that is not empty, and the ending. -/
def Entry.HasModule (tree : Entry) (above : List String) (stem : String) (bytes : ByteArray) : Prop :=
  stem ≠ "" ∧ tree.Reaches (above ++ [stem ++ ".lua"]) bytes

/-- Lists of names without slashes are written apart. -/
theorem joined_injective {names names' : List String} (hne : names ≠ []) (hne' : names' ≠ [])
    (hslash : ∀ name ∈ names, '/' ∉ name.toList) (hslash' : ∀ name ∈ names', '/' ∉ name.toList)
    (h : "/".intercalate names = "/".intercalate names') : names = names' := by
  have hsplit : ∀ {names : List String}, names ≠ [] → (∀ name ∈ names, '/' ∉ name.toList) →
      ("/".intercalate names).toList.splitOn '/' = names.map String.toList := by
    intro names hne hslash
    rw [String.toList_intercalate]
    exact List.splitOn_intercalate '/' (List.forall_mem_map.2 hslash) (mt List.map_eq_nil_iff.1 hne)
  have hlists : names.map String.toList = names'.map String.toList := by
    rw [← hsplit hne hslash, h, hsplit hne' hslash']
  exact List.map_injective_iff.2 (fun _ _ => String.toList_injective) hlists

theorem slash_notMem_moduleLabel {stem : String} (h : '/' ∉ stem.toList) : '/' ∉ (moduleLabel stem).toList := by
  unfold moduleLabel
  split
  · decide
  · exact h

/-- Labels tell stems apart but for the exception. -/
theorem moduleLabel_eq {stem stem' : String} (h : moduleLabel stem = moduleLabel stem') :
    stem = stem' ∨ stem = "." ∧ stem' = ".." ∨ stem = ".." ∧ stem' = "." := by
  unfold moduleLabel at h
  split at h <;> split at h <;> simp_all

/-- Only the stems `.` and `..` below the same directories share a name. -/
theorem moduleName_eq {tree : Entry} {above above' : List String} {stem stem' : String} {bytes bytes' : ByteArray}
    (hlisted : tree.Listed) (hmodule : tree.HasModule above stem bytes) (hmodule' : tree.HasModule above' stem' bytes')
    (h : moduleName above stem = moduleName above' stem') :
    above = above' ∧ (stem = stem' ∨ stem = "." ∧ stem' = ".." ∨ stem = ".." ∧ stem' = ".") := by
  have hslash : ∀ {above : List String} {stem : String} {bytes : ByteArray}, tree.HasModule above stem bytes →
      ∀ name ∈ above ++ [moduleLabel stem], '/' ∉ name.toList := by
    intro above stem bytes hmodule name hname
    have hvalid := hlisted.validName hmodule.2
    obtain habove | hlabel := List.mem_append.1 hname
    · exact (hvalid name (List.mem_append_left _ habove)).no_slash
    · have hfile := (hvalid (stem ++ ".lua") (List.mem_append_right _ (.head _))).no_slash
      rw [String.toList_append, List.mem_append, not_or] at hfile
      rw [List.mem_singleton.1 hlabel]
      exact slash_notMem_moduleLabel hfile.1
  have hnames := joined_injective (by simp) (by simp) (hslash hmodule) (hslash hmodule') h
  obtain ⟨habove, hlabel⟩ := List.append_singleton_inj.1 hnames
  exact ⟨habove, moduleLabel_eq hlabel⟩

/-! ## Collection -/

/-- Collect the module of one file. -/
def collectFile (found : Modules) (p : Placed) : Option Modules :=
  match moduleStem? p.name with
  | none => some found
  | some stem => (String.fromUTF8? p.bytes).map fun text => found.insert (moduleName p.above stem) text

mutual

theorem collectEntry_eq (above : List String) (name : String) (found : Modules) :
    ∀ e : Entry, collectEntry above name found e = (filesOf above name e).foldlM collectFile found
  | .file bytes => by
    rw [collectEntry, filesOf, List.foldlM_cons]
    unfold collectFile
    cases moduleStem? name <;> simp
  | .directory entries => by rw [collectEntry, filesOf, collectEntries_eq]

/-- Collecting goes through the files one by one. -/
theorem collectEntries_eq (above : List String) (found : Modules) :
    ∀ entries : List (String × Entry),
      collectEntries above found entries = (filesIn above entries).foldlM collectFile found
  | [] => rfl
  | (name, e) :: rest => by
    rw [collectEntries, filesIn, List.foldlM_append, collectEntry_eq above name found e]
    cases (filesOf above name e).foldlM collectFile found with
    | none => rfl
    | some found => exact collectEntries_eq above found rest

end

/-- The name of a file's module, if it is one. -/
def named? (p : Placed) : Option String := (moduleStem? p.name).map (moduleName p.above)

/-- A file in front of all the others counts if none of them has its name. -/
theorem exists_last_cons {p : Placed} {files : List Placed} (hfirst : ∀ q ∈ files, p.path < q.path)
    (P N : Placed → Prop) :
    (∃ p' ∈ p :: files, P p' ∧ ∀ q ∈ p :: files, N q → ¬ p'.path < q.path) ↔
      (∃ p' ∈ files, P p' ∧ ∀ q ∈ files, N q → ¬ p'.path < q.path) ∨ P p ∧ ∀ q ∈ files, ¬ N q := by
  constructor
  · rintro ⟨p', hmem, hp', hlast⟩
    have hrest := (List.forall_mem_cons.1 hlast).2
    obtain rfl | hmem := List.mem_cons.1 hmem
    · exact .inr ⟨hp', fun q hq hnamed => hrest q hq hnamed (hfirst q hq)⟩
    · exact .inl ⟨p', hmem, hp', hrest⟩
  · rintro (⟨p', hmem, hp', hlast⟩ | ⟨hp, hnone⟩)
    · exact ⟨p', .tail _ hmem, hp', List.forall_mem_cons.2 ⟨fun _ => (hfirst p' hmem).asymm, hlast⟩⟩
    · refine ⟨p, .head _, hp, List.forall_mem_cons.2 ⟨fun _ => lt_irrefl _, ?_⟩⟩
      exact fun q hq hnamed => absurd hnamed (hnone q hq)

/-- A name stands for the text of the last file that has it. -/
theorem collectFiles_getElem? {files : List Placed} (hsorted : files.Pairwise fun p q => p.path < q.path)
    (htexts : ∀ p ∈ files, (named? p).isSome → (String.fromUTF8? p.bytes).isSome) (found : Modules) :
    ∃ modules, files.foldlM collectFile found = some modules ∧ ∀ name text, modules[name]? = some text ↔
      (∃ p ∈ files, (named? p = some name ∧ String.fromUTF8? p.bytes = some text) ∧
        ∀ q ∈ files, named? q = some name → ¬ p.path < q.path) ∨
      found[name]? = some text ∧ ∀ q ∈ files, named? q ≠ some name := by
  induction files generalizing found with
  | nil => exact ⟨found, rfl, fun name text => by simp⟩
  | cons p rest ih =>
    obtain ⟨hfirst, hrest⟩ := List.pairwise_cons.1 hsorted
    obtain ⟨htext, htexts⟩ := List.forall_mem_cons.1 htexts
    obtain ⟨found', hfound', hlookup⟩ : ∃ found', collectFile found p = some found' ∧
        ∀ name text, found'[name]? = some text ↔ (named? p = some name ∧ String.fromUTF8? p.bytes = some text) ∨
          found[name]? = some text ∧ named? p ≠ some name := by
      unfold collectFile
      cases hstem : moduleStem? p.name with
      | none => exact ⟨found, rfl, fun name text => by simp [named?, hstem]⟩
      | some stem =>
        have hnamed : named? p = some (moduleName p.above stem) := by rw [named?, hstem]; rfl
        obtain ⟨text, hread⟩ := Option.isSome_iff_exists.1 (htext (by rw [hnamed]; rfl))
        refine ⟨found.insert (moduleName p.above stem) text, ?_, fun name text' => ?_⟩
        · simp only [hread, Option.map_some]
        · rw [Std.ExtTreeMap.getElem?_insert, hnamed, hread]
          by_cases hname : moduleName p.above stem = name <;> simp [hname]
    obtain ⟨modules, hmodules, hiff⟩ := ih hrest htexts found'
    refine ⟨modules, by rw [List.foldlM_cons, hfound']; exact hmodules, fun name text => ?_⟩
    rw [hiff, hlookup, exists_last_cons hfirst, List.forall_mem_cons, or_and_right, or_assoc]
    exact or_congr_right (or_congr_right and_assoc)

/-! ## Directories -/

section

variable {entries : List (String × Entry)}

/-- The module's name and its file are found together. -/
theorem named?_eq_some {p : Placed} {name : String} :
    p ∈ filesIn [] entries ∧ named? p = some name ↔ ∃ stem, p.name = stem ++ ".lua" ∧
      (Entry.directory entries).HasModule p.above stem p.bytes ∧ moduleName p.above stem = name := by
  rw [mem_files, named?, Option.map_eq_some_iff]
  constructor
  · rintro ⟨hreaches, stem, hstem, hname⟩
    obtain ⟨hne, hfile⟩ := moduleStem?_eq_some.1 hstem
    exact ⟨stem, hfile, ⟨hne, by rw [← hfile]; exact hreaches⟩, hname⟩
  · rintro ⟨stem, hfile, ⟨hne, hreaches⟩, hname⟩
    exact ⟨by rw [Placed.path, hfile]; exact hreaches, stem, moduleStem?_eq_some.2 ⟨hne, hfile⟩, hname⟩

/-- The files of a directory that are modules, with their stems. -/
def moduleFiles (entries : List (String × Entry)) : List (List String × String × ByteArray) :=
  (filesIn [] entries).filterMap fun p => (moduleStem? p.name).map fun stem => (p.above, stem, p.bytes)

theorem mem_moduleFiles {above : List String} {stem : String} {bytes : ByteArray} :
    (above, stem, bytes) ∈ moduleFiles entries ↔ (Entry.directory entries).HasModule above stem bytes := by
  unfold moduleFiles Entry.HasModule
  rw [List.mem_filterMap]
  constructor
  · rintro ⟨p, hp, hmodule⟩
    obtain ⟨stem, hstem, ⟨⟩⟩ := Option.map_eq_some_iff.1 hmodule
    obtain ⟨hne, hfile⟩ := moduleStem?_eq_some.1 hstem
    exact ⟨hne, hfile ▸ mem_files.1 hp⟩
  · rintro ⟨hne, hreaches⟩
    refine ⟨⟨above, stem ++ ".lua", bytes⟩, mem_files.2 hreaches, ?_⟩
    rw [moduleStem?_eq_some.2 ⟨hne, rfl⟩]
    rfl

/-- Of the files with one name, the later one has the stem of one dot. -/
theorem later_iff {above above' : List String} {stem stem' : String} {bytes bytes' : ByteArray}
    (hlisted : (Entry.directory entries).Listed) (hmodule : (Entry.directory entries).HasModule above stem bytes)
    (hmodule' : (Entry.directory entries).HasModule above' stem' bytes')
    (h : moduleName above stem = moduleName above' stem') :
    above ++ [stem ++ ".lua"] < above' ++ [stem' ++ ".lua"] ↔ stem = ".." ∧ stem' = "." := by
  have hdots : above ++ [".." ++ ".lua"] < above ++ ["." ++ ".lua"] := path_lt (by decide)
  obtain ⟨rfl, rfl | ⟨rfl, rfl⟩ | ⟨rfl, rfl⟩⟩ := moduleName_eq hlisted hmodule hmodule' h
  · exact iff_of_false (lt_irrefl _) fun hstems => absurd (hstems.1.symm.trans hstems.2) (by decide)
  · exact iff_of_false hdots.asymm fun hstems => absurd hstems.1 (by decide)
  · exact iff_of_true hdots ⟨rfl, rfl⟩

variable {manifest : Option Entry} {m : Manifest}

/-- The package of a directory whose modules are text: a name stands for a file that has it, and the file with the stem
of one dot comes before the one beside it. -/
theorem ofDirectory_modules (path principal : String) (hmanifest : readManifest manifest = .ok m)
    (hlisted : (Entry.directory entries).Listed)
    (htexts : ∀ above stem bytes, (Entry.directory entries).HasModule above stem bytes →
      (String.fromUTF8? bytes).isSome) :
    ∃ s, Source.ofDirectory path (some (.directory entries)) manifest principal = .ok s ∧
      ∀ name text, s.modules[name]? = some text ↔ ∃ above stem bytes,
        (Entry.directory entries).HasModule above stem bytes ∧ String.fromUTF8? bytes = some text ∧
        moduleName above stem = name ∧
        ¬ (stem = ".." ∧ ∃ other, (Entry.directory entries).HasModule above "." other) := by
  obtain ⟨⟩ | ⟨hnames, -, hchildren⟩ := id hlisted
  have hread : ∀ p ∈ filesIn [] entries, (named? p).isSome → (String.fromUTF8? p.bytes).isSome := by
    intro p hp hnamed
    obtain ⟨name, hname⟩ := Option.isSome_iff_exists.1 hnamed
    obtain ⟨stem, -, hmodule, -⟩ := named?_eq_some.1 ⟨hp, hname⟩
    exact htexts p.above stem p.bytes hmodule
  obtain ⟨modules, hcollected, hlookup⟩ := collectFiles_getElem? (filesIn_sorted [] hnames hchildren) hread ∅
  rw [← collectEntries_eq] at hcollected
  refine ⟨_, by simp only [Source.ofDirectory, hmanifest, bind, Except.bind, hcollected]; rfl, fun name text => ?_⟩
  rw [hlookup, or_iff_left (by simp)]
  constructor
  · rintro ⟨p, hp, ⟨hname, htext⟩, hlast⟩
    obtain ⟨stem, hfile, hmodule, hname⟩ := named?_eq_some.1 ⟨hp, hname⟩
    refine ⟨p.above, stem, p.bytes, hmodule, htext, hname, ?_⟩
    rintro ⟨rfl, other, hother⟩
    obtain ⟨hq, hqname⟩ := (named?_eq_some (p := ⟨p.above, "." ++ ".lua", other⟩)).2 ⟨".", rfl, hother, hname⟩
    refine hlast _ hq hqname ?_
    rw [Placed.path, hfile]
    exact (later_iff hlisted hmodule hother rfl).2 ⟨rfl, rfl⟩
  · rintro ⟨above, stem, bytes, hmodule, htext, hname, hfirst⟩
    obtain ⟨hp, hpname⟩ := (named?_eq_some (p := ⟨above, stem ++ ".lua", bytes⟩)).2 ⟨stem, rfl, hmodule, hname⟩
    refine ⟨_, hp, ⟨hpname, htext⟩, fun q hq hqname hlater => ?_⟩
    obtain ⟨stem', hfile, hother, hname'⟩ := named?_eq_some.1 ⟨hq, hqname⟩
    rw [Placed.path, Placed.path, hfile] at hlater
    have hsame := hname.trans hname'.symm
    obtain ⟨rfl, rfl⟩ := (later_iff hlisted hmodule hother hsame).1 hlater
    obtain ⟨rfl, -⟩ := moduleName_eq hlisted hmodule hother hsame
    exact hfirst ⟨rfl, _, hother⟩

/-- **Modules are the files with the ending, but for two stems of dots.**  In a directory whose names are valid and
whose modules are text, with a manifest that can be read or none, a package is found.  Its modules are, by name and
text, the files whose names are a stem that is not empty and the ending; two of them share a name only if they stand in
the same directory with the stems `.` and `..`, and the text is that of the former.  If no file has the stem `.`, each
has a module of its own, which is named by the file's path without the ending. -/
theorem directory_modules (path principal : String) (hmanifest : readManifest manifest = .ok m)
    (hlisted : (Entry.directory entries).Listed)
    (htexts : ∀ above stem bytes, (Entry.directory entries).HasModule above stem bytes →
      (String.fromUTF8? bytes).isSome) :
    let tree := Entry.directory entries
    ∃ s, Source.ofDirectory path (some tree) manifest principal = .ok s ∧
      (∀ name text, s.modules[name]? = some text ↔ ∃ above stem bytes, tree.HasModule above stem bytes ∧
        String.fromUTF8? bytes = some text ∧ moduleName above stem = name ∧
        ¬ (stem = ".." ∧ ∃ other, tree.HasModule above "." other)) ∧
      (∀ above stem bytes above' stem' bytes', tree.HasModule above stem bytes → tree.HasModule above' stem' bytes' →
        moduleName above stem = moduleName above' stem' →
        above = above' ∧ (stem = stem' ∨ stem = "." ∧ stem' = ".." ∨ stem = ".." ∧ stem' = ".")) ∧
      ((∀ above bytes, ¬ tree.HasModule above "." bytes) →
        (∀ name text, s.modules[name]? = some text ↔ ∃ above stem bytes, tree.HasModule above stem bytes ∧
          String.fromUTF8? bytes = some text ∧ "/".intercalate (above ++ [stem]) = name) ∧
        ∀ above stem bytes above' stem' bytes', tree.HasModule above stem bytes → tree.HasModule above' stem' bytes' →
          "/".intercalate (above ++ [stem]) = "/".intercalate (above' ++ [stem']) → above = above' ∧ stem = stem') := by
  intro tree
  obtain ⟨s, hs, hmodules⟩ := ofDirectory_modules path principal hmanifest hlisted htexts
  have hinjective : ∀ above stem bytes above' stem' bytes', tree.HasModule above stem bytes →
      tree.HasModule above' stem' bytes' → moduleName above stem = moduleName above' stem' →
      above = above' ∧ (stem = stem' ∨ stem = "." ∧ stem' = ".." ∨ stem = ".." ∧ stem' = ".") :=
    fun _ _ _ _ _ _ hmodule hmodule' h => moduleName_eq hlisted hmodule hmodule' h
  refine ⟨s, hs, hmodules, hinjective, fun hdotless => ?_⟩
  have hplain : ∀ {above stem bytes}, tree.HasModule above stem bytes →
      moduleName above stem = "/".intercalate (above ++ [stem]) := by
    intro above stem bytes hmodule
    have hstem : stem ≠ "." := by
      rintro rfl
      exact hdotless above bytes hmodule
    rw [moduleName, moduleLabel, if_neg hstem]
  constructor
  · intro name text
    rw [hmodules]
    constructor
    · rintro ⟨above, stem, bytes, hmodule, htext, hname, -⟩
      exact ⟨above, stem, bytes, hmodule, htext, hplain hmodule ▸ hname⟩
    · rintro ⟨above, stem, bytes, hmodule, htext, hname⟩
      exact ⟨above, stem, bytes, hmodule, htext, (hplain hmodule).trans hname, fun h => h.2.elim (hdotless above)⟩
  · intro above stem bytes above' stem' bytes' hmodule hmodule' h
    rw [← hplain hmodule, ← hplain hmodule'] at h
    obtain ⟨rfl, rfl | ⟨rfl, -⟩ | ⟨-, rfl⟩⟩ := moduleName_eq hlisted hmodule hmodule' h
    · exact ⟨rfl, rfl⟩
    · exact absurd hmodule (hdotless above bytes)
    · exact absurd hmodule' (hdotless above bytes')

end

/-- A directory with a module in another directory and a file that is none. -/
def nested : List (String × Entry) :=
  [("lib", .directory [("util.lua", .file "return 1".toUTF8)]), ("main.lua", .file "print(1)".toUTF8),
    ("notes.txt", .file ⟨#[0xFF]⟩)]

theorem nested_listed : (Entry.directory nested).Listed := by
  refine .directory (by decide) (by decide) ?_
  simp only [nested, List.forall_mem_cons]
  exact ⟨.directory (List.pairwise_singleton _ _) (by decide) (List.forall_mem_singleton.2 (.file _)), .file _, .file _,
    nofun⟩

/-- The package of that directory, whose modules are its two files with the ending. -/
theorem nested_modules :
    ∃ s, Source.ofDirectory "p" (some (.directory nested)) none "local" = .ok s ∧
      s.modules["lib/util"]? = some "return 1" ∧ s.modules["main"]? = some "print(1)" ∧
      ∀ name text, s.modules[name]? = some text ↔ ∃ above stem bytes,
        (Entry.directory nested).HasModule above stem bytes ∧ String.fromUTF8? bytes = some text ∧
        "/".intercalate (above ++ [stem]) = name := by
  have hmodules : moduleFiles nested = [(["lib"], "util", "return 1".toUTF8), ([], "main", "print(1)".toUTF8)] := rfl
  have htexts : ∀ x ∈ moduleFiles nested, (String.fromUTF8? x.2.2).isSome := by decide +kernel
  have hdotless : ∀ x ∈ moduleFiles nested, x.2.1 ≠ "." := by decide +kernel
  obtain ⟨s, hs, -, -, hone⟩ := directory_modules "p" "local" (rfl : readManifest none = .ok _) nested_listed
    fun above stem bytes h => htexts (above, stem, bytes) (mem_moduleFiles.2 h)
  obtain ⟨hiff, -⟩ := hone fun above bytes h => hdotless (above, ".", bytes) (mem_moduleFiles.2 h) rfl
  have hutil : (Entry.directory nested).HasModule ["lib"] "util" "return 1".toUTF8 :=
    mem_moduleFiles.1 (hmodules ▸ .head _)
  have hmain : (Entry.directory nested).HasModule [] "main" "print(1)".toUTF8 :=
    mem_moduleFiles.1 (hmodules ▸ .tail _ (.head _))
  exact ⟨s, hs, (hiff _ _).2 ⟨_, _, _, hutil, by decide +kernel, by decide⟩,
    (hiff _ _).2 ⟨_, _, _, hmain, by decide +kernel, by decide⟩, hiff⟩

/-- Two files whose stems are dots, beside each other. -/
def dotted : List (String × Entry) :=
  [("lib", .directory [("...lua", .file "return 2".toUTF8), ("..lua", .file "return 1".toUTF8)]),
    ("main.lua", .file "print(1)".toUTF8)]

/-- Three files are modules, each of them text, and one of them is lost. -/
theorem dotted_share_name :
    (Entry.directory dotted).Listed ∧
    (Entry.directory dotted).HasModule ["lib"] "." "return 1".toUTF8 ∧
    (Entry.directory dotted).HasModule ["lib"] ".." "return 2".toUTF8 ∧
    (Entry.directory dotted).HasModule [] "main" "print(1)".toUTF8 ∧
    (Source.ofDirectory "p" (some (.directory dotted)) none "local").map (fun s => s.modules.toList) =
      .ok [("lib/..", "return 1"), ("main", "print(1)")] := by
  have hmodules : moduleFiles dotted =
      [(["lib"], "..", "return 2".toUTF8), (["lib"], ".", "return 1".toUTF8), ([], "main", "print(1)".toUTF8)] := rfl
  refine ⟨.directory (by decide) (by decide) ?_, mem_moduleFiles.1 (hmodules ▸ .tail _ (.head _)),
    mem_moduleFiles.1 (hmodules ▸ .head _), mem_moduleFiles.1 (hmodules ▸ .tail _ (.tail _ (.head _))), rfl⟩
  simp only [dotted, List.forall_mem_cons]
  refine ⟨.directory (by decide) (by decide) ?_, .file _, nofun⟩
  simp only [List.forall_mem_cons]
  exact ⟨.file _, .file _, nofun⟩

end ScriptWarden.Package
