import ScriptWarden.Config
import ScriptWarden.Diagnostic
import ScriptWarden.Failure
import ScriptWarden.Host.Completion
set_option autoImplicit false

/-!
# The backend

Requests to the backend carry a credential.  If the backend refuses it, a fresh one is fetched, once,
and the request is sent once more; whoever asked sees only the last answer.
-/

namespace ScriptWarden.Backend

/-- The base address without the slashes at its end. -/
def root (baseUrl : String) : String :=
  String.ofList (baseUrl.toList.reverse.dropWhile (· = '/')).reverse

/-- The address of a path: one slash between the base and the path, however many were written. -/
def url (baseUrl path : String) : String :=
  root baseUrl ++ "/" ++ String.ofList (path.toList.dropWhile (· = '/'))

/-- An answer of the backend. -/
structure Response where
  status : Nat
  body : String
  deriving DecidableEq, Repr, Inhabited

/-- The status of an answer that refuses the credential. -/
def unauthorized : Nat := 401

/-- A source of fresh credentials, which may remember how often it was asked. -/
abbrev Authenticator (σ : Type) := σ → Except Failure String × σ

/-- Always the same credential; an empty one is none. -/
def fixedToken (token : String) : Authenticator Unit := fun s =>
  (if token.isEmpty then .error (.auth "no backend token configured") else .ok token, s)

/-- The stored credential, and the state of the source of fresh ones. -/
structure Session (σ : Type) where
  token : String
  source : σ

/-- One request: what came of it, and the credentials its attempts were made with. -/
structure Exchange where
  result : Except Failure Response
  tokens : List String

/-- Attempt a request with the stored credential.  If that is refused, store a fresh one and attempt
the request again; the answer to that is final. -/
def exchange {σ : Type} (auth : Authenticator σ) (attempt : Nat → String → Except Failure Response)
    (s : Session σ) : Exchange × Session σ :=
  match attempt 0 s.token with
  | .error e => (⟨.error e, [s.token]⟩, s)
  | .ok first =>
    if first.status ≠ unauthorized then (⟨.ok first, [s.token]⟩, s)
    else
      match auth s.source with
      | (.error e, source) => (⟨.error e, [s.token]⟩, { s with source })
      | (.ok fresh, source) => (⟨attempt 1 fresh, [s.token, fresh]⟩, ⟨fresh, source⟩)

/-! ## Requests of packages -/

/-- Characters of a request method. -/
def isMethodChar (c : Char) : Bool :=
  c.isAlphanum || c.toNat = 0x60 || "!#$%&'*+-.^_|~".toList.contains c

/-- Can a request be sent with this method at all? -/
def isMethod (method : String) : Bool := !method.isEmpty && method.toList.all isMethodChar

/-- The answer to a request whose method is none, which is given without asking the backend. -/
def refusal? (request : Nat) (method : String) : Option Host.Completion :=
  if isMethod method then none
  else some ⟨request, 400, "unsupported method '" ++ method ++ "'"⟩

end ScriptWarden.Backend
