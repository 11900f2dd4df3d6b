/-
# Stock handlers

Handlers of common behaviour: they return something fixed, fail, or give back their arguments.
-/
import MessageBus.Service

namespace MessageBus

/-! ## 1. Synchronous handlers -/

/-- The forms in which arguments are given back. -/
inductive EchoForm where
  | tuple
  | array
  | struct
  /-- The first argument alone, nothing if there is none. -/
  | first
  deriving DecidableEq, Repr

/-- The arguments in a form. -/
def EchoForm.apply (args : List Value) : EchoForm → Return
  | .tuple => .tuple args
  | .array => .value (.array args)
  | .struct => .value (.struct args)
  | .first => match args with
    | [] => .empty
    | v :: _ => .value v

namespace SyncHandler

/-- Returns the same whatever the arguments. -/
def constant (r : Return) : SyncHandler := fun _ => .ok r

/-- Fails. -/
def failing (e : HandlerError) : SyncHandler := fun _ => .error e

/-- Gives back the arguments. -/
def echo (form : EchoForm) : SyncHandler := fun args => .ok (form.apply args)

/-- Returns a container that is packed when the handler is called; a failure to pack is its own. -/
def packing (signature : String) (values : List Value) : SyncHandler := fun _ =>
  match Container.packText signature values with
  | .ok c => .ok (.packed c)
  | .error e => .error { cause := .other e.message, context := none }

end SyncHandler

/-! ## 2. Answers -/

/-- What an invocation with these arguments is answered with. -/
abbrev Answerer := List Value → Answer

namespace Answerer

/-- Answers the same whatever the arguments. -/
def constant (r : Reply Container) : Answerer := fun _ => .reply r

/-- Gives the invocation up. -/
def dropping : Answerer := fun _ => .drop

/-- Sends the arguments back, packed against a signature; a failure to pack is sent as an error of
the name `failure`. -/
def echo (signature failure : String) : Answerer := fun args =>
  match Container.packText signature args with
  | .ok c => .reply (.ok c)
  | .error e => .reply (.error (.named failure e.message))

end Answerer

namespace AsyncHandler

/-- Leaves the invocation to somebody else. -/
def keeping : AsyncHandler := fun _ => .keep

/-- Answers at once, or after some milliseconds. -/
def answering (delay : Option Nat) (answerer : Answerer) : AsyncHandler := fun args =>
  match delay with
  | some ms => .answerAfter ms (answerer args)
  | none => .answer (answerer args)

end AsyncHandler

end MessageBus
