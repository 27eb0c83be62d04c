import ScriptWarden.Command.Memory
import ScriptWarden.Main
import ScriptWarden.Texture.Shelf
import ScriptWarden.Proofs.Api.Path
import ScriptWarden.Proofs.Package.Decisions
import ScriptWarden.Proofs.Trust.Creation
import ScriptWarden.Proofs.Package.Uploads
import ScriptWarden.Proofs.Package.Nesting
import ScriptWarden.Proofs.Package.Decoding
import ScriptWarden.Proofs.Fleet.Isolation
import ScriptWarden.Proofs.Api.Bodies
import ScriptWarden.Proofs.Bridge.Choice
import ScriptWarden.Proofs.Package.Draining
import ScriptWarden.Proofs.Texture.Regions
import ScriptWarden.Proofs.Backend.Credential
import ScriptWarden.Proofs.Package.Directory
import ScriptWarden.Proofs.Package.Events
import ScriptWarden.Proofs.Package.Handles
import ScriptWarden.Proofs.Command.Rounds
import ScriptWarden.Proofs.Script.Position
import ScriptWarden.Proofs.Package.Spent
import ScriptWarden.Proofs.Package.Surface
import ScriptWarden.Proofs.Package.Teardown
