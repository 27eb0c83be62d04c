set_option autoImplicit false

/-!
# Package: directories

Files and directories by name, listed in the order of their names.  A path is a list of names between
slashes; a single dot stays where it is and two dots lead one level up.
-/

namespace ScriptWarden.Package

/-- A file or a directory. -/
inductive Entry where
  | file (bytes : ByteArray)
  | directory (entries : List (String × Entry))
  deriving Inhabited

/-- The named member of a directory. -/
def Entry.child? (name : String) : Entry → Option Entry
  | .file _ => none
  | .directory entries => (entries.find? fun (n, _) => n == name).map (·.2)

/-- The names in a path: empty ones do not count, nor do dots behind the start. -/
def pathNames (path : String) : List String :=
  match (path.splitOn "/").filter (· ≠ "") with
  | [] => []
  | first :: rest =>
    let rest := rest.filter (· ≠ ".")
    if path.startsWith "/" then ((first :: rest).filter (· ≠ ".")) else first :: rest

/-- The last name of a path, unless it leads upwards or stays. -/
def fileName? (path : String) : Option String :=
  match (pathNames path).getLast? with
  | none => none
  | some name => if name = "." ∨ name = ".." then none else some name

/-- Follow names from an entry; `above` are the directories that were passed, nearest first. -/
def Entry.follow? (e : Entry) (above : List Entry) : List String → Option Entry
  | [] => some e
  | name :: rest =>
    match e with
    | .file _ => none
    | .directory _ =>
      if name = "." then e.follow? above rest
      else if name = ".." then
        match above with
        | [] => none
        | parent :: above => parent.follow? above rest
      else
        match e.child? name with
        | some child => child.follow? (e :: above) rest
        | none => none

/-- What a path below a directory leads to.  The empty path leads nowhere, and a slash at the end
only to a directory. -/
def Entry.lookup? (root : Entry) (path : String) : Option Entry :=
  if path.isEmpty || path.startsWith "/" then none
  else
    match root.follow? [] (pathNames path) with
    | some (.file bytes) => if path.endsWith "/" then none else some (.file bytes)
    | found => found

/-- Put an entry among others under its name, in the place of one that had it. -/
def placeEntry (name : String) (new : Entry) : List (String × Entry) → List (String × Entry)
  | [] => [(name, new)]
  | (other, e) :: rest =>
    if name = other then (name, new) :: rest
    else if name < other then (name, new) :: (other, e) :: rest
    else (other, e) :: placeEntry name new rest

/-- Put a file at the end of a chain of names, making directories on the way.  `none` if a file is
in the way. -/
def Entry.put? (e : Entry) (new : Entry) : List String → Option Entry
  | [] => none
  | [name] =>
    match e with
    | .file _ => none
    | .directory entries =>
      some (.directory (placeEntry name new entries))
  | name :: next :: rest =>
    match e with
    | .file _ => none
    | .directory entries =>
      let child := (e.child? name).getD (.directory [])
      match child.put? new (next :: rest) with
      | some child =>
        some (.directory (placeEntry name child entries))
      | none => none

/-- A directory with some files at their paths; without contents a path is that of a directory. -/
def Entry.ofFiles (files : List (String × Option ByteArray)) : Entry :=
  files.foldl (fun root (path, contents) =>
    let new := (contents.map Entry.file).getD (.directory [])
    (root.put? new (pathNames path)).getD root) (.directory [])

end ScriptWarden.Package
