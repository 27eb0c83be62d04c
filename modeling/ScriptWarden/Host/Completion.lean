import ScriptWarden.Json.Value
set_option autoImplicit false

/-!
# Host: answers to requests

A request leaves the library with a *token* that names the package, which of its loads sent it, and
the number of the request.  The answer comes back through the mailbox of that load and of no other.
-/

namespace ScriptWarden.Host

/-- An answer to a request. -/
structure Completion where
  request : Nat
  status : Nat
  body : String
  deriving DecidableEq, Repr, Inhabited

/-- An answer as the record of its event. -/
def Completion.toJson (c : Completion) : Json.Value :=
  .record [("type", .text "network_response"), ("id", .nat c.request), ("status", .nat c.status),
    ("body", .text c.body)]

/-- The right to answer one request. -/
structure Token where
  package : String
  /-- Counts the loads of the host, so that a later load of the same package is another one. -/
  generation : Nat
  request : Nat
  deriving DecidableEq, Repr, Inhabited

/-- Where answers wait for their package. -/
structure Mailbox where
  /-- The package still runs. -/
  live : Bool := true
  /-- The box takes answers. -/
  isOpen : Bool := true
  /-- Answers in the order of their arrival. -/
  waiting : List Completion := []
  deriving DecidableEq, Repr, Inhabited

namespace Mailbox

/-- Deliver an answer; an answer that comes too late is dropped. -/
def deliver (m : Mailbox) (c : Completion) : Bool × Mailbox :=
  if m.live && m.isOpen then (true, { m with waiting := m.waiting ++ [c] }) else (false, m)

/-- Take everything that waits. -/
def drain (m : Mailbox) : List Completion × Mailbox := (m.waiting, { m with waiting := [] })

/-- Take the answer that waits longest. -/
def next? (m : Mailbox) : Option (Completion × Mailbox) :=
  match m.waiting with
  | [] => none
  | c :: rest => some (c, { m with waiting := rest })

/-- The package ends: nothing is delivered any more. -/
def retire (m : Mailbox) : Mailbox := { m with live := false }

/-- The box takes no more answers; those inside can still be taken out. -/
def close (m : Mailbox) : Mailbox := { m with isOpen := false }

/-- A retired mailbox refuses every answer. -/
theorem deliver_of_not_live {m : Mailbox} (h : m.live = false) (c : Completion) :
    m.deliver c = (false, m) := by
  simp [deliver, h]

end Mailbox

end ScriptWarden.Host
