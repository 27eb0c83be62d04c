import ScriptWarden.Command
set_option autoImplicit false

/-!
# The command: files in memory

A run of the command on a directory that is a value.  Nothing outside of the value is reached, so what a
run does can be looked at afterwards.
-/

namespace ScriptWarden.Command

open Package (Entry)

/-- A directory, and what was said and printed so far. -/
structure Memory where
  root : Entry
  /-- The latest line comes first. -/
  said : List Line := []
  printed : ByteArray := ByteArray.empty

namespace Memory

/-- The contents of a file. -/
def file? (m : Memory) (path : String) : Option ByteArray :=
  match m.root.lookup? path with
  | some (.file bytes) => some bytes
  | _ => none

/-- The directory a path leads to. -/
def directory? (m : Memory) (path : String) : Option Entry :=
  match m.root.lookup? path with
  | some (.directory entries) => some (.directory entries)
  | _ => none

/-- Write a file.  A directory stays what it is, and a slash at the end names one. -/
def write (m : Memory) (path text : String) : Bool × Memory :=
  if (m.directory? path).isSome || path.endsWith "/" then (false, m)
  else
    match m.root.put? (.file text.toUTF8) ((Package.pathNames path).filter (· ≠ ".")) with
    | some root => (true, { m with root })
    | none => (false, m)

/-- What a run reaches. -/
def surroundings : Surroundings (StateM Memory) :=
  { say := fun l => modify fun m => { m with said := l :: m.said }
    print := fun bytes => modify fun m => { m with printed := m.printed ++ bytes }
    present := fun path => return ((← get).root.lookup? path).isSome
    file := fun path => return (← get).file? path
    directory := fun path => return (← get).directory? path
    write := fun path text => modifyGet fun m => m.write path text }

/-- Every round is due at once. -/
def atOnce : Wait (StateM Memory) := fun _ _ => return .due

/-- Make the rounds that are asked for, or a single one. -/
def drive : Option Nat → Run → StateM Memory (Nat × Run) :=
  Command.drive surroundings atOnce (driveTo surroundings atOnce 1 0)

/-- Run the command with a limited number of rounds; gives the code it exits with. -/
def run (m : Memory) (config : Option String) (args : List String) : UInt32 × Memory :=
  StateT.run (Command.run surroundings drive config args) m

end Memory

end ScriptWarden.Command
