import ScriptWarden.Diagnostic
import ScriptWarden.Failure
import ScriptWarden.Json.Decode
import ScriptWarden.Package.Tree
import Std.Data.ExtTreeMap
set_option autoImplicit false

/-!
# Package: sources

The modules of a package under their names.  In a directory every file whose name ends in `.lua` is a
module, named by its path without that ending; a manifest may say what the package is called, whose
it is, and where it starts.
-/

namespace ScriptWarden.Package

open Json (Value Members)

/-- Modules of a package, and the name of the one to start with. -/
structure Source where
  name : String
  principal : String
  modules : Std.ExtTreeMap String String
  entry : String

namespace Source

/-- The module to start with: the only one, whatever it is called, or the one named as entry. -/
def resolveEntry (s : Source) : Except Failure String :=
  match s.modules.keys with
  | [] => .error (.emptyPackage s.name)
  | [only] => .ok only
  | _ => if s.modules.contains s.entry then .ok s.entry else .error (.missingEntry s.name s.entry)

end Source

/-! ## Directories -/

/-- What a manifest says. -/
structure Manifest where
  name : Option String := none
  entry : Option String := none
  principal : Option String := none

/-- Read a manifest. -/
def Manifest.ofJson? (v : Value) : Option Manifest := do
  let m ← Members.ofValue? ["name", "entry", "principal"] v
  return {
    name := ← m.optional "name" Value.string?
    entry := ← m.optional "entry" Value.string?
    principal := ← m.optional "principal" Value.string? }

/-- The file a manifest stands in. -/
def manifestFile : String := "package.json"

/-- The path of the manifest of a directory. -/
def manifestPath (directory : String) : String :=
  if directory.isEmpty then manifestFile else directory ++ "/" ++ manifestFile

/-- The entry module of a package whose manifest names none. -/
def defaultEntry : String := "main"

/-- The part of a file name in front of the ending `.lua`; `none` without that ending, or with
nothing in front of it. -/
def moduleStem? (fileName : String) : Option String :=
  let cs := fileName.toList
  let ending := ".lua".toList
  if ending.isSuffixOf cs && ending.length < cs.length then
    some (String.ofList (cs.take (cs.length - ending.length)))
  else none

/-- What is left of a file name without its ending.  A stem of one dot keeps the dot of the ending,
since a path cannot end in a name of one dot. -/
def moduleLabel (stem : String) : String := if stem = "." then ".." else stem

/-- The name of a module from the directories above its file and its stem. -/
def moduleName (above : List String) (stem : String) : String :=
  "/".intercalate (above ++ [moduleLabel stem])

/-- Modules found so far. -/
abbrev Modules := Std.ExtTreeMap String String

mutual

/-- Collect the modules of one entry; fails on a module that is no UTF-8. -/
def collectEntry (above : List String) (name : String) (found : Modules) : Entry → Option Modules
  | .directory entries => collectEntries (above ++ [name]) found entries
  | .file bytes =>
    match moduleStem? name with
    | none => some found
    | some stem => (String.fromUTF8? bytes).map fun text => found.insert (moduleName above stem) text

/-- Collect the modules of some entries, in order. -/
def collectEntries (above : List String) (found : Modules) :
    List (String × Entry) → Option Modules
  | [] => some found
  | (name, e) :: rest =>
    match collectEntry above name found e with
    | none => none
    | some found => collectEntries above found rest

end

/-- The manifest of a directory; a directory without one has an empty manifest. -/
def readManifest (e : Option Entry) : Except Failure Manifest :=
  match e with
  | some (.file bytes) =>
    match Value.ofBytes? bytes.toList >>= Manifest.ofJson? with
    | some m => .ok m
    | none => .error .json
  | _ => .ok {}

/-- The package in a directory: its path as given, what stands there, and its manifest. -/
def Source.ofDirectory (path : String) (directory manifest : Option Entry)
    (defaultPrincipal : String) : Except Failure Source := do
  let m ← readManifest manifest
  match directory with
  | some (.directory entries) =>
    match collectEntries [] ∅ entries with
    | some modules =>
      return {
        name := m.name.getD ((fileName? path).getD "package")
        principal := m.principal.getD defaultPrincipal
        modules
        entry := m.entry.getD defaultEntry }
    | none => .error .files
  | _ => .error .files

/-- What the operator hears about a package that was read. -/
def Source.readNotice (s : Source) (path : String) : Diagnostic :=
  .info ("[package] read '" ++ s.name ++ "' from " ++ path ++ " (" ++ toString s.modules.size
    ++ " module(s))")

end ScriptWarden.Package
