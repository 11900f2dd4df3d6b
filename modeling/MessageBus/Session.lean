/-
# Sessions

A session is a world whose connections, objects and proxies are known by labels, and which is driven
by steps.  This module has the steps, their outcomes, and the labels; `Session.Connection`,
`Session.Object` and `Session.Proxy` say what the steps do, and `Session.Run` takes them one after
the other.

A label that is given anew stands for the new thing from then on, and the old thing is given up.
-/
import MessageBus.Inspect
import MessageBus.World.Client
import MessageBus.World.Host

namespace MessageBus

namespace Session

/-! ## 1. Steps -/

/-- What is done with a connection. -/
inductive ConnectionStep where
  | ownName (name : String)
  | releaseName (name : String)
  | close
  | isClosed
  /-- Gives the connection up. -/
  | drop
  | call (call : MethodCall) (flags : CallFlags) (timeout : Option Nat) (cancel : Option Token)
  | emit (message : SignalMessage)
  | subscribe (label : String) (rule : SignalRule)
  | unsubscribe (id : Nat)
  | unregister (id : Nat)
  /-- Gives a scripted connection further reactions. -/
  | script (replies : List ScriptedReply)
  /-- Hands a signal to all sinks of a scripted connection. -/
  | handOut (message : SignalMessage)
  | inspect

/-- What is done with an object. -/
inductive ObjectStep where
  | exportAt (connection path : String)
  | unexport
  | isExported
  /-- Gives the object up. -/
  | drop
  | emit (signal : String) (args : List Value)
  | emitChanged (property : String) (value : Option Value)
  | get (property : String)
  | set (property : String) (value : Value)
  /-- Hands a call to the object's handlers without a connection. -/
  | call (sender path member : String) (body : Container)
  /-- Reads a property as a request for it would. -/
  | propertyGet (property : String)
  | propertyGetAll
  | propertySet (property : String) (value : Value)
  | inspect
  | inspectService

/-- What is done with a proxy. -/
inductive ProxyStep where
  /-- Gives the proxy up. -/
  | drop
  | members
  | callSync (method : String) (args : List Argument)
  | callRemote (method : String) (args : List Argument)
  | invoke (member : String) (args : List Argument)
  | pending
  | cancelPending
  | get (property : String)
  | cached (property : String)
  | set (property : String) (value : Value)
  | init
  | listen (label signal : String) (drops : List String)
  | unlisten (label : String)
  | listeners (signal : String)
  | inspect
  | inspectRelay

/-- One step of a session. -/
inductive Step where
  | connect (label : String)
  /-- Adds a scripted connection. -/
  | script (label name : String) (fault : Option TransportError)
  | addObject (label : String) (interface : Interface) (parts : List ServicePart)
  | addProxy (label connection : String) (interface : Interface) (name path : String)
      (timeout : Option Nat) (flags : CallFlags) (convention : Convention)
  | connection (label : String) (step : ConnectionStep)
  | object (label : String) (step : ObjectStep)
  | proxy (label : String) (step : ProxyStep)
  | getCell (cell : String)
  | setCell (cell : String) (value : Value)
  /-- Answers an invocation that a handler has kept. -/
  | answer (slot : Nat) (answerer : List Value → Answer)
  | fire (token : Token)
  | fireAfter (token : Token) (ms : Nat)
  /-- Reads the result that a finish handler has kept, through a member of a proxy if one is
  given. -/
  | finish (handler : String) (through : Option (String × String))
  | advance (ms : Nat)
  | describeBus
  | inspectBus
  | inspectKept (slot : Nat)

/-! ## 2. Outcomes -/

/-- What comes of a step. -/
inductive Outcome where
  | done
  | flag (b : Bool)
  | number (n : Nat)
  | text (s : String)
  /-- A value, if there is one. -/
  | value (v : Option Value)
  /-- The values of a reply. -/
  | values (vs : List Value)
  /-- The number of a call that is under way. -/
  | pending (number : Nat)
  | body (c : Container)
  | properties (entries : List (String × Variant))
  /-- Where an object is exported, and its interface. -/
  | exported (path : Option String) (interface : String)
  | members (names : List String) (convention : Convention) (interface : String)
  | bus (callTimeout : Nat)
  | packError (e : PackError)
  | transportError (e : TransportError)
  | callError (e : CallError)
  | wireError (e : WireError)
  /-- The step names something that is not there. -/
  | missing (field : String)
  /-- Nothing that happens by itself will bring what the step waits for. -/
  | stuck

namespace Outcome

/-- The outcome of something that may fail, with `f` for its result. -/
def ofCall {α : Type} (f : α → Outcome) : Except CallError α → Outcome
  | .ok a => f a
  | .error e => .callError e

/-- The outcome of something that may fail or wait for ever, with `f` for its result. -/
def ofWaited {α : Type} (f : α → Outcome) : World.Waited α → Outcome
  | some r => ofCall f r
  | none => .stuck

/-- The outcome of something that a connection does, with `f` for its result. -/
def ofTransport {α : Type} (f : α → Outcome) : Except TransportError α → Outcome
  | .ok a => f a
  | .error e => .transportError e

/-- The outcome of invoking a member. -/
def ofInvoked : World.Invoked → Outcome
  | .done vs => .values vs
  | .pending call => .pending call

end Outcome

end Session

/-! ## 3. Labels -/

/-- A world with labels, and the bus on which the session takes place. -/
structure Session where
  world : World
  bus : Nat
  links : Table String Link
  objects : Table String Nat
  proxies : Table String Nat

namespace Session

/-- A session on a bus with nothing connected. -/
def start (callTimeout : Nat) : Session :=
  let (world, bus) := World.empty.addBus callTimeout
  { world, bus, links := .empty, objects := .empty, proxies := .empty }

/-- The object with a label. -/
def object? (s : Session) (label : String) : Option (Nat × Object) := do
  let id ← s.objects.get? label
  return (id, ← s.world.objects.get? id)

/-- The proxy with a label. -/
def proxy? (s : Session) (label : String) : Option (Nat × Proxy) := do
  let id ← s.proxies.get? label
  return (id, ← s.world.proxies.get? id)

/-- What an operation on the world leads to. -/
def wrap (s : Session) (r : World × Outcome) : Session × Outcome := ({ s with world := r.1 }, r.2)

end Session

end MessageBus
