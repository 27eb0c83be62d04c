import ScriptWarden.Api.Surface
import ScriptWarden.Script.Run
set_option autoImplicit false

/-!
# Script: the sandbox

Before any code of a package, a script takes away what packages must not reach.  Then the host puts in
what they may use.
-/

namespace ScriptWarden.Script

open Bridge (Action)
open Lua (Heap Value)
open Package (Services)

/-- The script that every package starts after, unless the operator has another one. -/
def builtinSandbox : String := "-- Runs in every package state before any package code.
-- Removes globals the approved libraries expose but packages must not reach.

dofile = nil
loadfile = nil
load = nil
loadstring = nil
collectgarbage = nil
debug = nil

-- Bytecode can bypass every check below.
string.dump = nil

-- The string metatable is shared by every string in the state.
local stringMeta = getmetatable(\"\")
if stringMeta then
  stringMeta.__metatable = false
end

-- Chunks always see the sandboxed globals.
local rawSetmetatable = setmetatable
setmetatable = function(t, mt)
  if t == _G then
    error(\"cannot replace the metatable of the global table\", 2)
  end
  return rawSetmetatable(t, mt)
end
"

/-- The name of that script in positions. -/
def sandboxChunk : Lua.Bytes := Text.bytes "sandboxer"

variable {κ : Type}

/-- A heap with nothing but the library; no bytes at all mean that there is no limit. -/
def emptyHeap (memory : Nat) : Heap :=
  { Lua.Library.freshHeap with limit := if memory = 0 then none else some memory }

/-- Change a global variable. -/
def setGlobal (name : String) (v : Value) (h : Heap) : Heap := h.rawSet h.globals (.text name) v

/-- The world of a package after the sandbox script. -/
def boot (s : Setting κ) (script : String) (memory : Nat) (services : Services κ) :
    Result κ Unit :=
  let (r, w) := chunk s sandboxChunk (Text.bytes script) ⟨emptyHeap memory, services, none⟩
  (r.map fun _ => (), w)

/-- Functions that write to the log of the package. -/
def installOutput (stringifier : Value) (h : Heap) : Heap :=
  let h := setGlobal "print" (.host (.output "info")) { h with stringifier }
  let log : Lua.Table := {}
  let log := log.setText "info" (.host (.output "info"))
  let log := log.setText "warn" (.host (.output "warn"))
  let log := log.setText "error" (.host (.output "error"))
  let (metatable, h) := h.newTable (({} : Lua.Table).setText "__call" (.host .outputCall))
  let (id, h) := h.newTable { log with metatable := some metatable }
  setGlobal "log" (.table id) h

/-- Global objects. -/
def installObjects (w : Vm Api.Thing) : Vm Api.Thing :=
  Api.globalObjects.foldl (fun w (name, type) =>
    match Api.create type .service w with
    | (.ok v, w) => { w with heap := setGlobal name v w.heap }
    | (.error _, w) => w) w

/-- Output and global objects.  Output shows values as the global function `tostring` does, so there
must be one. -/
def install (w : Vm Api.Thing) : Result Api.Thing Unit :=
  let ⟨h, host, meter⟩ := w
  let stringifier := h.rawGet h.globals (.text "tostring")
  if stringifier.isFunction then (.ok (), installObjects ⟨installOutput stringifier h, host, meter⟩)
  else
    let name := Bridge.conversionName stringifier
    (.error (.host ("error converting Lua " ++ name ++ " to function")), ⟨h, host, meter⟩)

/-- The function that starts modules. -/
def installRequire (w : Vm κ) : Vm κ :=
  { w with heap := setGlobal "require" (.host .require) w.heap }

end ScriptWarden.Script
