/-
# Services

A service is what stands behind an exported object: handlers for its methods and values for its
properties.

A synchronous handler computes what it returns from the arguments.  An asynchronous handler gets the
invocation, too, and decides when and how to answer it (`Disposal`).  A property is a plain field, or
is read and written through accessors, each of which has a cell of its own outside the service.
-/
import MessageBus.Container
import MessageBus.Table
import MessageBus.WireError

namespace MessageBus

/-! ## 1. Handlers -/

/-- What a synchronous handler returns. -/
inductive Return where
  /-- Nothing; the reply is the empty tuple. -/
  | empty
  /-- One value. -/
  | value (v : Value)
  /-- One value for each result. -/
  | tuple (vs : List Value)
  /-- A container, which is sent as it is. -/
  | packed (c : Container)

/-- A handler that returns when it is called. -/
abbrev SyncHandler := List Value → Except HandlerError Return

/-- How an invocation ends. -/
inductive Answer where
  | reply (reply : Reply Container)
  /-- It is given up. -/
  | drop

/-- What an asynchronous handler does with its invocation. -/
inductive Disposal where
  /-- It keeps it, to be answered by somebody else. -/
  | keep
  | answer (answer : Answer)
  /-- It answers after some milliseconds. -/
  | answerAfter (ms : Nat) (answer : Answer)

/-- A handler that answers in its own time. -/
abbrev AsyncHandler := List Value → Disposal

/-! ## 2. Services -/

/-- The external values that accessors read and write, by name. -/
abbrev Cells := Table String Value

/-- Handlers by method, fields by property, and accessors by property, which name their cells. -/
structure Service where
  sync : Table String SyncHandler
  async : Table String AsyncHandler
  fields : Table String Value
  getters : Table String String
  setters : Table String String

namespace Service

/-- A service that has nothing. -/
def empty : Service := ⟨.empty, .empty, .empty, .empty, .empty⟩

instance : Inhabited Service := ⟨empty⟩

/-- The present value of a property: its getter's if it has one, and else its field's. -/
def get (s : Service) (cells : Cells) (name : String) : Option Value :=
  match s.getters.get? name with
  | some cell => cells.get? cell
  | none => s.fields.get? name

/-- Gives a property a value, through its setter if it has one, and else in its field. -/
def set (s : Service) (cells : Cells) (name : String) (v : Value) : Service × Cells :=
  match s.setters.get? name with
  | some cell => (s, cells.insert cell v)
  | none => ({ s with fields := s.fields.insert name v }, cells)

end Service

/-- One entry of a service, as it is registered. -/
inductive ServicePart where
  | method (name : String) (handler : SyncHandler)
  | methodAsync (name : String) (handler : AsyncHandler)
  | field (name : String) (value : Value)
  | getter (name cell : String)
  | setter (name cell : String)

namespace Service

/-- Adds an entry; it replaces an earlier one of its sort and name. -/
def add (s : Service) : ServicePart → Service
  | .method name handler => { s with sync := s.sync.insert name handler }
  | .methodAsync name handler => { s with async := s.async.insert name handler }
  | .field name value => { s with fields := s.fields.insert name value }
  | .getter name cell => { s with getters := s.getters.insert name cell }
  | .setter name cell => { s with setters := s.setters.insert name cell }

/-- The service that has the entries. -/
def ofParts (parts : List ServicePart) : Service := parts.foldl add empty

end Service

end MessageBus
