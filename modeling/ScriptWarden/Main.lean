import ScriptWarden.Command
set_option autoImplicit false

/-!
# The program

Runs the command on the files of the machine.
-/

namespace ScriptWarden.Program

open Command (Line Run Surroundings)

/-- The variable that names the configuration. -/
def configVariable : String := "PACKAGE_SANDBOX_CONFIG"

/-- Do something; `none` if it fails. -/
def attempt? {α : Type} (act : IO α) : IO (Option α) := do
  match ← act.toBaseIO with
  | .ok a => return some a
  | .error _ => return none

/-- Write a line to the error stream. -/
def writeLine : Line → IO Unit
  | .log d => IO.eprintln ("[" ++ d.level.word ++ "] " ++ d.text)
  | .plain text => IO.eprintln text

/-- Write to the output at once. -/
def print (bytes : ByteArray) : IO Unit := do
  let output ← IO.getStdout
  output.write bytes
  output.flush

/-- Does a path lead anywhere? -/
def present (path : String) : IO Bool := do
  if path.isEmpty then return false
  ((← IO.currentDir).join path).pathExists

/-- Is a path that of a directory? -/
def isDirectory (path : String) : IO Bool := do
  if path.isEmpty then return false
  ((← IO.currentDir).join path).isDir

/-- The contents of a file. -/
def file (path : String) : IO (Option ByteArray) := do
  if ← isDirectory path then return none
  attempt? (IO.FS.readBinFile path)

/-- Read a directory with everything below it; of files only modules are read. -/
partial def readDirectory (path : String) : IO Package.Entry := do
  let found ← ((← IO.currentDir).join path).readDir
  let entries ← found.toList.filterMapM fun e => do
    let below := path ++ "/" ++ e.fileName
    if ← isDirectory below then return some (e.fileName, ← readDirectory below)
    else if (Package.moduleStem? e.fileName).isSome then
      return some (e.fileName, Package.Entry.file (← IO.FS.readBinFile below))
    else return none
  return .directory (entries.mergeSort fun a b => a.1 ≤ b.1)

/-- A directory with everything below it. -/
def directory (path : String) : IO (Option Package.Entry) := do
  if path.isEmpty then return none
  attempt? (readDirectory path)

/-- The directory above a path. -/
def above (path : String) : String := "/".intercalate (path.splitOn "/").dropLast

/-- Write a file, and make the directories above it. -/
def write (path text : String) : IO Bool := do
  let made ← attempt? do
    if above path ≠ "" then IO.FS.createDirAll (above path)
    IO.FS.writeFile path text
  return made.isSome

/-- The machine. -/
def machine : Surroundings IO := { say := writeLine, print, present, file, directory, write }

/-- Wait for the next round; the first is due at once. -/
def wait (perSecond ran : Nat) : IO Command.Wake := do
  if ran ≠ 0 then IO.sleep (1000 / perSecond).toUInt32
  return .due

/-- Go on with a run that made some rounds, without an end. -/
partial def driveOn (ran : Nat) (r : Run) : IO (Nat × Run) := do
  match ← Command.lap machine wait ran r with
  | none => return (ran, r)
  | some r => driveOn (ran + 1) r

/-- Make rounds at their rate, without an end if there is no limit. -/
def drive : Option Nat → Run → IO (Nat × Run) := Command.drive machine wait (driveOn 0)

end ScriptWarden.Program

/-- Run the packages in the given directories. -/
def main (args : List String) : IO UInt32 := do
  let config ← IO.getEnv ScriptWarden.Program.configVariable
  ScriptWarden.Command.run ScriptWarden.Program.machine ScriptWarden.Program.drive config args
