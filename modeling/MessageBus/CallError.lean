/-
# Errors at the caller's side

A connection fails in one of five ways (`TransportError`).  A call may also be refused before
anything is sent, or its reply may not be what was declared (`CallError`).
-/
import MessageBus.PackError
import MessageBus.WireError

namespace MessageBus

/-- How a connection fails. -/
inductive TransportError where
  /-- The connection is closed. -/
  | disconnected
  /-- No reply came in time. -/
  | timeout
  /-- The call's token fired first. -/
  | cancelled
  /-- The other side replied with an error. -/
  | remote (error : WireError)
  /-- Any other failure. -/
  | io (text : String)
  deriving DecidableEq, Repr

namespace TransportError

/-- The text of the error. -/
def message : TransportError → String
  | .disconnected => "Connection closed"
  | .timeout => "Request timed out"
  | .cancelled => "Operation was cancelled"
  | .remote e => s!"Remote error: {e.text}"
  | .io text => s!"I/O error: {text}"

/-- A failure to pack, as a failure of the connection that had to do it. -/
def ofPack (e : PackError) : TransportError := .io e.message

end TransportError

/-- What is asked of a property. -/
inductive Need where
  | read
  | write
  deriving DecidableEq, Repr

/-- The word for a property that allows it. -/
def Need.word : Need → String
  | .read => "readable"
  | .write => "writable"

/-- Why a call, a property operation or an export failed. -/
inductive CallError where
  /-- Too few or too many arguments: `expected` is the bound that was missed. -/
  | argumentCount (method : String) (expected actual : Nat)
  /-- An argument of a wrong kind at a position. -/
  | argumentType (method : String) (position : Nat) (found : String)
  /-- The connection failed, or the other side replied with an error. -/
  | transport (error : TransportError)
  /-- A value did not match its tag. -/
  | codec (error : PackError)
  /-- The interface declares no such member. -/
  | unknownMember (name : String)
  /-- The property does not allow this kind of access. -/
  | propertyAccess (property : String) (need : Need)
  /-- The object is not bound to a connection. -/
  | notExported
  /-- The object is already bound to a connection. -/
  | alreadyExported
  /-- A reply has other tags than its method declares. -/
  | replyMismatch (method : String) (error : PackError)
  deriving DecidableEq, Repr

namespace CallError

/-- The text of the error. -/
def message : CallError → String
  | .argumentCount method expected actual =>
    s!"Wrong number of arguments passed for method: {method}. Expected {expected}, got {actual}"
  | .argumentType method position found =>
    s!"Argument {position} of method {method} is {found}. " ++
      "It should be a callback, flags or a cancellable"
  | .transport e => s!"Transport error: {e.message}"
  | .codec e => s!"Codec error: {e.message}"
  | .unknownMember name => s!"No member named '{name}'"
  | .propertyAccess property need => s!"Property '{property}' is not {need.word}"
  | .notExported => "Object is not exported"
  | .alreadyExported => "Object is already exported"
  | .replyMismatch method e =>
    s!"Reply to '{method}' does not match its out-signature: {e.message}"

/-- The error that the other side replied with, if it is that. -/
def remote? : CallError → Option WireError
  | .transport (.remote e) => some e
  | _ => none

end CallError

end MessageBus
