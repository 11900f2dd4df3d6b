/-
# The world: one event loop and all that runs on it

A world holds buses, scripted connections, the objects and proxies, the invocations that
handlers have to answer, and the tasks.  A task runs until it has to wait; tasks that can run stand
in a queue, first come first served.  Time is a number of milliseconds that moves only while nothing
can run.

A world also keeps two records: the journal of what handlers, listeners and connections were given,
in order, and the warnings.

This module has the types and the primitive changes: notes in the records, new tasks, and waking
those that wait.
-/
import MessageBus.Bus
import MessageBus.Object

namespace MessageBus

/-- What takes the signals of a subscription. -/
inductive Sink where
  /-- The proxy of this number. -/
  | proxy (id : Nat)
  /-- A recorder with a label. -/
  | recorder (label : String)
  deriving DecidableEq, Repr

/-! ## 1. Requests -/

/-- What becomes of the outcome of a request. -/
inductive Purpose where
  /-- It completes a pending call of a proxy. -/
  | complete (proxy number : Nat)
  /-- It tells whether a property was written in the background. -/
  | write (property : String)
  /-- Somebody waits for it. -/
  | answer
  deriving DecidableEq, Repr

/-- A method call that is handed to a connection. -/
structure Request where
  link : Link
  call : MethodCall
  flags : CallFlags
  /-- The reply timeout; none stands for the connection's. -/
  timeout : Option Nat
  cancel : Option Token
  purpose : Purpose

/-- What a scripted connection does with a call that has waited out its delay. -/
inductive ScriptedOutcome where
  /-- It waits for the call's token. -/
  | awaitCancel
  | answer (result : Except TransportError Container)

/-- The reaction to one call, which begins with a delay if there is one. -/
structure ScriptedReply where
  delay : Option Nat
  outcome : ScriptedOutcome

/-- How far a request has come. -/
inductive Progress where
  /-- It has not been handed over. -/
  | unsent
  /-- It waits for the reply to an invocation, until a deadline. -/
  | awaitReply (invocation deadline : Nat)
  /-- A scripted reaction waits for its time. -/
  | delayed (due : Nat) (outcome : ScriptedOutcome)
  /-- A scripted reaction waits for the call's token. -/
  | awaitCancel

/-! ## 2. Connections with a script -/

/-- What a scripted connection was asked for. -/
inductive ScriptedEvent where
  | call (call : MethodCall) (flags : CallFlags) (timeout : Option Nat) (cancellable : Bool)
  | subscribe (rule : SignalRule) (id : Nat)
  | unsubscribe (id : Nat)
  | exported (path interface : String) (id : Nat)
  | unexport (id : Nat)
  | emit (message : SignalMessage)

/-- A connection that reacts to calls from a list, one reaction for each call, and records what it is
asked for. -/
structure Scripted where
  label : String
  name : String
  /-- The error with which exports and emissions fail. -/
  fault : Option TransportError
  replies : List ScriptedReply
  nextId : Nat
  sinks : List (Nat × Sink)

/-! ## 3. Invocations and tasks -/

/-- One inbound call that is owed one reply. -/
structure Invocation where
  sender : String
  path : String
  interface : String
  member : String
  reply : Option (Reply Container)

/-- An invocation that a handler has kept, with the arguments it came with, until somebody answers
it. -/
structure Kept where
  invocation : Nat
  args : List Value
  answered : Bool

/-- A piece of work that runs until it has to wait. -/
inductive Task where
  /-- Hands the queue of a connection of a bus to its sinks. -/
  | deliver (bus : Nat) (connection : String)
  /-- Calls a handler of an object. -/
  | handle (object invocation : Nat) (member : String) (body : Container)
  | request (request : Request) (progress : Progress)
  /-- Answers an invocation when it is time. -/
  | answer (invocation : Nat) (answer : Answer) (due : Nat)
  /-- Fires a token when it is time. -/
  | fire (token : Token) (due : Nat)
  /-- Records the reply to an invocation. -/
  | watch (invocation : Nat)

namespace Task

/-- Whether the task waits for the reply to an invocation. -/
def awaitsReply (invocation : Nat) : Task → Bool
  | .request _ (.awaitReply i _) => i = invocation
  | .watch i => i = invocation
  | _ => false

/-- Whether the task waits for a token to fire. -/
def awaitsToken (token : Token) : Task → Bool
  | .request r (.awaitReply _ _) | .request r .awaitCancel => r.cancel = some token
  | _ => false

/-- Whether the task hands out the queue of a connection of a bus. -/
def delivers (bus : Nat) (connection : String) : Task → Bool
  | .deliver b c => b = bus && c = connection
  | _ => false

/-- The time at which the task can run if nothing wakes it before. -/
def deadline? : Task → Option Nat
  | .request _ (.awaitReply _ deadline) => some deadline
  | .request _ (.delayed due _) => some due
  | .answer _ _ due => some due
  | .fire _ due => some due
  | _ => none

/-- Whether the task's time has come at `now`. -/
def isDue (now : Nat) (t : Task) : Bool := t.deadline?.any (· ≤ now)

/-- The connection that the task keeps open: that of its request. -/
def link? : Task → Option Link
  | .request r _ => some r.link
  | _ => none

end Task

/-! ## 4. Worlds -/

/-- What handlers, listeners and connections were given. -/
inductive Event where
  /-- A handler of an object ran, for an invocation, on these arguments. -/
  | handled (object invocation : Nat) (method : String) (args : List Value)
  /-- A handler kept an invocation in a slot. -/
  | kept (slot : Nat) (invocation : Invocation) (args : List Value)
  /-- A reply handler was given a result. -/
  | replied (handler : String) (result : Except CallError (List Value))
  /-- A finish handler was given a result. -/
  | finished (handler : String) (result : AsyncResult)
  /-- A listener of a proxy heard a signal. -/
  | heard (proxy listener : String) (event : SignalEvent)
  /-- A recorder was given a signal. -/
  | received (recorder : String) (message : SignalMessage)
  /-- A scripted connection was asked for something. -/
  | asked (connection : String) (event : ScriptedEvent)
  /-- A watched invocation was answered. -/
  | answered (invocation : Nat) (reply : Reply Container)

/-- The state of everything. -/
structure World where
  now : Nat
  buses : Table Nat (Bus Nat Sink)
  scripted : Table Nat Scripted
  objects : Table Nat Object
  proxies : Table Nat Proxy
  invocations : Table Nat Invocation
  /-- The invocations that handlers have kept, by slot. -/
  kept : Table Nat Kept
  /-- The tasks that have not ended. -/
  tasks : Table Nat Task
  /-- The tasks that can run, the next one first. -/
  ready : List Nat
  nextTask : Nat
  /-- The tokens that have fired. -/
  fired : List Token
  cells : Cells
  /-- The connections of buses that are held by whoever opened them. -/
  held : List Link
  /-- The last listener handle under each label. -/
  handles : Table String Nat
  /-- The outcomes of requests that somebody waits for, by task. -/
  outcomes : Table Nat (Except TransportError Container)
  /-- The results that finish handlers keep until somebody reads them, by handler. -/
  results : Table String AsyncResult
  journal : List Event
  warnings : List Warning

namespace World

/-- A world in which there is nothing. -/
def empty : World :=
  { now := 0, buses := .empty, scripted := .empty, objects := .empty, proxies := .empty,
    invocations := .empty, kept := .empty, tasks := .empty, ready := [], nextTask := 0, fired := [],
    cells := .empty, held := [], handles := .empty, outcomes := .empty,
    results := .empty, journal := [], warnings := [] }

/-- The bus of a number.  One that was never opened has nothing on it. -/
def bus (w : World) (b : Nat) : Bus Nat Sink := (w.buses.get? b).getD (.empty defaultCallTimeout)

/-- Changes a bus. -/
def setBus (w : World) (b : Nat) (bus : Bus Nat Sink) : World :=
  { w with buses := w.buses.insert b bus }

/-- Opens a bus on which nothing is connected. -/
def addBus (w : World) (callTimeout : Nat) : World × Nat :=
  (w.setBus w.buses.size (.empty callTimeout), w.buses.size)

/-! ### Records -/

/-- Adds to the journal. -/
def note (w : World) (e : Event) : World := { w with journal := w.journal ++ [e] }

/-- Adds warnings. -/
def warn (w : World) (ws : List Warning) : World := { w with warnings := w.warnings ++ ws }

/-! ### Waking -/

/-- Whether a token has fired. -/
def hasFired (w : World) (t : Token) : Bool := w.fired.contains t

/-- Puts a task at the end of the queue unless it is in it. -/
def enqueue (w : World) (id : Nat) : World :=
  if w.ready.contains id then w else { w with ready := w.ready ++ [id] }

/-- Wakes the tasks that satisfy `p`. -/
def wake (w : World) (p : Task → Bool) : World :=
  w.tasks.entries.foldl (fun w e => if p e.2 then w.enqueue e.1 else w) w

/-- Adds a task that cannot run yet. -/
def addTask (w : World) (t : Task) : World × Nat :=
  ({ w with tasks := w.tasks.insert w.nextTask t, nextTask := w.nextTask + 1 }, w.nextTask)

/-- Adds a task that can run. -/
def spawn (w : World) (t : Task) : World :=
  let (w, id) := w.addTask t
  w.enqueue id

end World

end MessageBus
