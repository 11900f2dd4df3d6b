/-
# Warnings

What is logged as a warning because nobody is told of it otherwise.  A warning has a message and
named fields.  Which of the logged events are shown is up to a filter.
-/
import MessageBus.CallError

namespace MessageBus

/-- Something worth a warning. -/
inductive Warning where
  /-- A call came for a method that has no handler. -/
  | missingHandler (method : String)
  /-- A handler returned something that does not fit its method's output. -/
  | unfitReturn (method : String) (error : PackError)
  /-- A property holds a value that does not fit its tag. -/
  | unfitProperty (property : String) (error : PackError)
  /-- An asynchronous call without a handler failed. -/
  | ignoredError (method : String) (error : CallError)
  /-- A property could not be written at the other side. -/
  | failedWrite (property : String) (error : TransportError)
  /-- A notification of changed properties has not the expected form. -/
  | malformedChange
  /-- An invocation was given up without a reply. -/
  | droppedInvocation (member path : String)
  deriving DecidableEq, Repr

namespace Warning

/-- The message. -/
def message : Warning → String
  | .missingHandler _ => "Missing handler for method"
  | .unfitReturn _ e => s!"handler returned a value that does not pack: {e.message}"
  | .unfitProperty _ e => s!"property value does not pack: {e.message}"
  | .ignoredError _ e => s!"Ignored error from remote method: {e.message}"
  | .failedWrite _ e => s!"Failed to set property: {e.message}"
  | .malformedChange => "malformed PropertiesChanged notification"
  | .droppedInvocation _ _ => "invocation dropped without a reply"

/-- The fields that go with the message. -/
def fields : Warning → List (String × String)
  | .missingHandler method | .unfitReturn method _ | .ignoredError method _ => [("method", method)]
  | .unfitProperty property _ | .failedWrite property _ => [("property", property)]
  | .malformedChange => []
  | .droppedInvocation member path => [("member", member), ("path", path)]

end Warning

/-- A result together with the warnings that came with it. -/
structure Logged (α : Type) where
  result : α
  warnings : List Warning

/-- A result without warnings. -/
def Logged.quiet {α : Type} (a : α) : Logged α := ⟨a, []⟩

/-- The filter of a log for which none is asked. -/
def defaultLogFilter : String := "busbind=info"

/-- The filter of a log: the one that is asked for, if there is one and it can be read as a filter
(`reads`), and the default if not. -/
def logFilter (reads : String → Bool) (asked : Option String) : String :=
  (asked.filter reads).getD defaultLogFilter

end MessageBus
