/-
# Errors that travel as replies

A handler may fail in one of three ways: with an error of a domain that has codes, with a named
error, or with a plain text.  `WireError.ofHandler` says what the caller sees of it: a domain error
unchanged, any other under a name that has a namespace.
-/
import MessageBus.Names

namespace MessageBus

/-- An error with a domain and a code. -/
structure DomainError where
  domain : String
  code : Int
  message : String
  deriving DecidableEq, Repr

/-- The text of the error. -/
def DomainError.text (e : DomainError) : String := s!"{e.domain} ({e.code}): {e.message}"

/-- An error with a name and a message. -/
structure NamedError where
  name : String
  message : String
  deriving DecidableEq, Repr

/-- The text of the error. -/
def NamedError.text (e : NamedError) : String := s!"{e.name}: {e.message}"

/-! ## 1. Failures of a handler -/

/-- What went wrong in a handler. -/
inductive HandlerCause where
  | domain (error : DomainError)
  | named (error : NamedError)
  | other (text : String)
  deriving DecidableEq, Repr

/-- The text of the cause. -/
def HandlerCause.text : HandlerCause → String
  | .domain e => e.text
  | .named e => e.text
  | .other text => text

/-- The failure of a handler: its cause, and a text that may be put in front of it. -/
structure HandlerError where
  cause : HandlerCause
  context : Option String
  deriving DecidableEq, Repr

/-- The text of the failure: the context's if there is one. -/
def HandlerError.text (e : HandlerError) : String := e.context.getD e.cause.text

/-! ## 2. The error as a reply carries it -/

/-- An error as a reply carries it. -/
inductive WireError where
  | domain (error : DomainError)
  | named (name message : String)
  deriving DecidableEq, Repr

namespace WireError

/-- The error name.  That of a domain error is its domain and its code. -/
def name : WireError → String
  | .domain e => s!"{e.domain}.Code{e.code}"
  | .named name _ => name

/-- The message. -/
def message : WireError → String
  | .domain e => e.message
  | .named _ message => message

/-- The text of the error. -/
def text (e : WireError) : String := s!"{e.name}: {e.message}"

/-- A name that has a dot is taken as it is, any other is put under the bus's own namespace. -/
def qualify (name : String) : String :=
  if name.toList.contains '.' then name else s!"{ErrorName.ownNamespace}.{name}"

/-- What the caller sees of a handler's failure. -/
def ofHandler (e : HandlerError) : WireError :=
  match e.cause with
  | .domain error => .domain error
  | .named error => .named (qualify error.name) error.message
  | .other _ => .named (qualify "Error") e.text

/-- The reply when a method is not declared or has no handler. -/
def unknownMethod (method : String) : WireError :=
  .named ErrorName.unknownMethod s!"Method {method} is not implemented"

/-- The reply when arguments do not fit. -/
def invalidArgs (message : String) : WireError := .named ErrorName.invalidArgs message

/-- The reply of an invocation that was given up without one. -/
def noReply (method : String) : WireError :=
  .named ErrorName.noReply s!"Method {method} did not send a reply"

/-- The reply when a handler returned something that does not fit. -/
def valueError : WireError :=
  .named ErrorName.valueError "Service implementation returned an incorrect value type"

end WireError

/-- What an invocation is answered with. -/
abbrev Reply (α : Type) := Except WireError α

end MessageBus
