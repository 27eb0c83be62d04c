import ScriptWarden.Json.Decode
import ScriptWarden.Trust.Capability
set_option autoImplicit false

/-!
# Configuration

What the host decides for every package.  A file may leave out whatever should stay as it is.
-/

namespace ScriptWarden

open Json (Value Members)
open Trust (Capability Group Defaults Overrides)

/-- How the backend is reached. -/
structure BackendConfig where
  baseUrl : String := "https://localhost/api"
  userAgent : String := "package-sandbox/0.1.0"
  token : String := ""
  timeoutSeconds : Nat := 10
  deriving DecidableEq, Repr, Inhabited

/-- Limits of packages, and the files that the command line uses. -/
structure Config where
  /-- Memory of one package's scripts. -/
  memoryMegabytes : Nat := 16
  /-- Log entries kept for one package. -/
  logEntries : Nat := 200
  /-- Largest width or height of a texture made by a script. -/
  textureSize : Nat := 1024
  /-- Pixels that one package may hold. -/
  texturePixels : Nat := 2097152
  ticksPerSecond : Nat := 20
  sandboxScript : Option String := none
  trustFile : Option String := none
  /-- Replaces the built-in table. -/
  trustDefaults : Option Defaults := none
  localPrincipal : Option String := none
  backend : BackendConfig := {}

/-- The declared values in force. -/
def Config.defaults (c : Config) : Defaults := c.trustDefaults.getD .builtin

/-- Memory of one package's scripts in bytes, as far as a word of 64 bits reaches. -/
def Config.memoryBytes (c : Config) : Nat := min (c.memoryMegabytes * 1048576) 0xFFFFFFFFFFFFFFFF

/-! ## Reading -/

/-- Values of one group; every name must be a capability. -/
def Trust.Overrides.ofJson? (v : Value) : Option Overrides := do
  let pairs ← v.pairs? Value.int32?
  let pairs ← pairs.mapM fun (k, n) => do return (← Capability.ofName? k, n)
  return .ofList pairs

/-- Declared values; every name must be a group or a capability. -/
def Trust.Defaults.ofJson? (v : Value) : Option Defaults := do
  let m ← Members.ofValue? ["table"] v
  m.need "table" fun v => do
    let pairs ← v.pairs? Trust.Overrides.ofJson?
    let pairs ← pairs.mapM fun (k, o) => do return (← Group.ofName? k, o)
    return .ofList pairs

/-- Read the backend's part. -/
def BackendConfig.ofJson? (v : Value) : Option BackendConfig := do
  let usual : BackendConfig := {}
  let m ← Members.ofValue? ["base_url", "user_agent", "token", "timeout_secs"] v
  return {
    baseUrl := ← m.getOr "base_url" usual.baseUrl Value.string?
    userAgent := ← m.getOr "user_agent" usual.userAgent Value.string?
    token := ← m.getOr "token" usual.token Value.string?
    timeoutSeconds := ← m.getOr "timeout_secs" usual.timeoutSeconds (Value.word? 64) }

/-- Read a configuration. -/
def Config.ofJson? (v : Value) : Option Config := do
  let usual : Config := {}
  let m ← Members.ofValue?
    ["memory_limit_mb", "max_log_entries", "max_texture_size", "max_texture_pixels",
      "ticks_per_second", "sandbox_script", "trust_file", "trust_defaults", "local_principal",
      "backend"] v
  return {
    memoryMegabytes := ← m.getOr "memory_limit_mb" usual.memoryMegabytes (Value.word? 64)
    logEntries := ← m.getOr "max_log_entries" usual.logEntries (Value.word? 64)
    textureSize := ← m.getOr "max_texture_size" usual.textureSize (Value.word? 32)
    texturePixels := ← m.getOr "max_texture_pixels" usual.texturePixels (Value.word? 64)
    ticksPerSecond := ← m.getOr "ticks_per_second" usual.ticksPerSecond (Value.word? 32)
    sandboxScript := ← m.getOr "sandbox_script" none (Value.nullable Value.string?)
    trustFile := ← m.getOr "trust_file" none (Value.nullable Value.string?)
    trustDefaults := ← m.getOr "trust_defaults" none (Value.nullable Trust.Defaults.ofJson?)
    localPrincipal := ← m.getOr "local_principal" none (Value.nullable Value.string?)
    backend := ← m.getOr "backend" usual.backend BackendConfig.ofJson? }

/-- The configuration of a file's text. -/
def Config.parse? (text : String) : Option Config := Value.parse? text >>= Config.ofJson?

/-! ## Writing -/

/-- Declared values under their names. -/
def Trust.Defaults.toJson (d : Defaults) : Value :=
  .record [("table", .record (d.toList.map fun (g, o) =>
    (g.name, .record (o.toList.map fun (c, n) => (c.name, .int n)))))]

/-- Every field under its name in files. -/
def Config.toJson (c : Config) : Value :=
  .record [
    ("memory_limit_mb", .nat c.memoryMegabytes),
    ("max_log_entries", .nat c.logEntries),
    ("max_texture_size", .nat c.textureSize),
    ("max_texture_pixels", .nat c.texturePixels),
    ("ticks_per_second", .nat c.ticksPerSecond),
    ("sandbox_script", .ofOption .text c.sandboxScript),
    ("trust_file", .ofOption .text c.trustFile),
    ("trust_defaults", .ofOption Trust.Defaults.toJson c.trustDefaults),
    ("local_principal", .ofOption .text c.localPrincipal),
    ("backend", .record [
      ("base_url", .text c.backend.baseUrl),
      ("user_agent", .text c.backend.userAgent),
      ("token", .text c.backend.token),
      ("timeout_secs", .nat c.backend.timeoutSeconds)])]

end ScriptWarden
