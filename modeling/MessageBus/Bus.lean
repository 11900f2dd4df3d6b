/-
# The bus

A bus joins connections.  A connection has a unique name, may own well-known names, exports objects
under a path and an interface, subscribes to signals, and has a queue of the signals that are on
their way to it.  All of that is one value, and each operation on the bus is a function on it.

What handles calls and what takes signals is left open: `η` and `σ` stand for handlers and for
sinks.

A destination is a unique name, which begins with a colon and stands for itself as long as its
connection is open, or a well-known name, which stands for its owner.  Objects and subscriptions are
numbered from one counter.

A counter is a natural number and gives no number out twice.  A counter of 64 bits does the same in
a run that takes fewer than `2 ^ 64` numbers from it, and such runs are meant where runs are spoken
of.
-/
import MessageBus.CallError
import MessageBus.Message
import MessageBus.Table

namespace MessageBus

/-- Where an object is: the unique name of its connection, its path and its interface. -/
structure ObjectKey where
  owner : String
  path : String
  interface : String
  deriving DecidableEq, Repr

/-- An exported object. -/
structure Registration (η : Type) where
  id : Nat
  handler : η

/-- A wish for signals. -/
structure Subscription (σ : Type) where
  id : Nat
  owner : String
  rule : SignalRule
  sink : σ

/-- A connection.  What is in the queue when it closes is still delivered. -/
structure Connection (σ : Type) where
  name : String
  isOpen : Bool
  queue : List (σ × SignalMessage)

/-- A bus with all that its connections have put on it.  Its counters stand for counters of 64 bits:
runs are meant that open fewer than `2 ^ 64` connections, and that make fewer than `2 ^ 64`
registrations and subscriptions together. -/
structure Bus (η σ : Type) where
  /-- The reply timeout of calls that set none, in milliseconds. -/
  callTimeout : Nat
  /-- The number of the connection that is opened next. -/
  nextConnection : Nat
  /-- The number of the registration or subscription that is made next. -/
  nextId : Nat
  connections : List (Connection σ)
  /-- The owners of the well-known names. -/
  names : Table String String
  objects : Table ObjectKey (Registration η)
  subscriptions : List (Subscription σ)

/-- How many digits the identifier of a bus has. -/
def identifierLength : Nat := 32

namespace Bus

/-- The identifier of a bus for which the number `n` has been drawn: its digits in lower-case
hexadecimal, the highest first.  A digit has four bits. -/
def identifier (n : BitVec 128) : String :=
  String.ofList <| (List.range identifierLength).reverse.map fun i =>
    Nat.digitChar ((n.toNat >>> (4 * i)) % 16)

@[simp] theorem length_identifier (n : BitVec 128) : (identifier n).length = identifierLength := by
  simp [identifier]

variable {η σ : Type}

/-- A bus without connections. -/
def empty (callTimeout : Nat) : Bus η σ :=
  { callTimeout, nextConnection := 1, nextId := 1, connections := [], names := .empty,
    objects := .empty, subscriptions := [] }

/-! ## 1. Connections -/

/-- The unique name of the `n`th connection. -/
def uniqueName (n : Nat) : String := s!":1.{n}"

/-- Whether a name is of the form of unique names. -/
def isUniqueName (name : String) : Bool := name.toList.head? = some ':'

/-- Whether there is an open connection with this unique name. -/
def isOpen (b : Bus η σ) (name : String) : Bool :=
  b.connections.any fun c => c.isOpen && c.name = name

/-- The unique names of the open connections. -/
def openNames (b : Bus η σ) : List String := (b.connections.filter (·.isOpen)).map (·.name)

/-- Opens a connection, under a name that was never used. -/
def connect (b : Bus η σ) : Bus η σ × String :=
  let name := uniqueName b.nextConnection
  ({ b with
      nextConnection := b.nextConnection + 1
      connections := b.connections ++ [{ name, isOpen := true, queue := [] }] }, name)

/-- Closes a connection: its names, objects and subscriptions go, its queue takes no more. -/
def close (b : Bus η σ) (me : String) : Bus η σ :=
  if b.isOpen me then
    { b with
      connections := b.connections.map fun c =>
        if c.name = me then { c with isOpen := false } else c
      names := b.names.filter fun _ owner => owner ≠ me
      objects := b.objects.filter fun key _ => key.owner ≠ me
      subscriptions := b.subscriptions.filter (·.owner ≠ me) }
  else b

/-- Refuses whatever a closed connection asks for. -/
def checkOpen (b : Bus η σ) (me : String) : Except TransportError Unit :=
  if b.isOpen me then .ok () else .error .disconnected

/-! ## 2. Names -/

/-- Takes a well-known name that is free or one's own. -/
def ownName (b : Bus η σ) (me name : String) : Except TransportError (Bus η σ) := do
  b.checkOpen me
  match b.names.get? name with
  | none => return { b with names := b.names.insert name me }
  | some owner =>
    if owner = me then return b
    else .error (.io s!"name '{name}' is already owned by {owner}")

/-- Gives a well-known name up, and tells whether it was one's own. -/
def releaseName (b : Bus η σ) (me name : String) : Bus η σ × Bool :=
  if b.names.get? name = some me then ({ b with names := b.names.erase name }, true) else (b, false)

/-- The unique name that a destination stands for. -/
def resolve (b : Bus η σ) (name : String) : Option String :=
  if isUniqueName name then if b.isOpen name then some name else none else b.names.get? name

/-! ## 3. Objects -/

/-- Exports a handler under a path and an interface. -/
def register (b : Bus η σ) (me path interface : String) (handler : η) :
    Except TransportError (Bus η σ × Nat) := do
  b.checkOpen me
  if !ObjectPath.isValid path then .error (.io s!"invalid object path '{path}'")
  let key := ⟨me, path, interface⟩
  if b.objects.contains key then
    .error (.io s!"an object is already exported for {interface} at {path}")
  return ({ b with
      nextId := b.nextId + 1
      objects := b.objects.insert key ⟨b.nextId, handler⟩ }, b.nextId)

/-- Removes a registration; an unknown one is no matter. -/
def unregister (b : Bus η σ) (id : Nat) : Bus η σ :=
  { b with objects := b.objects.filter fun _ r => r.id ≠ id }

/-- The handler at a place. -/
def handler? (b : Bus η σ) (key : ObjectKey) : Option η := (b.objects.get? key).map (·.handler)

/-! ## 4. Signals -/

/-- Adds a subscription. -/
def subscribe (b : Bus η σ) (me : String) (rule : SignalRule) (sink : σ) : Bus η σ × Nat :=
  ({ b with
      nextId := b.nextId + 1
      subscriptions := b.subscriptions ++ [{ id := b.nextId, owner := me, rule, sink }] }, b.nextId)

/-- Removes a subscription; an unknown one is no matter. -/
def unsubscribe (b : Bus η σ) (id : Nat) : Bus η σ :=
  { b with subscriptions := b.subscriptions.filter (·.id ≠ id) }

/-- Whether a rule allows a sender: it names none, or the sender's unique name, or a name that the
sender owns. -/
def allowsSender (b : Bus η σ) (rule : SignalRule) (sender : String) : Bool :=
  match rule.sender with
  | none => true
  | some name => name = sender || b.resolve name = some sender

/-- The subscriptions that want a signal. -/
def wanting (b : Bus η σ) (m : SignalMessage) : List (Subscription σ) :=
  b.subscriptions.filter fun s => s.rule.matchesRoute m && b.allowsSender s.rule m.sender

/-- Puts a signal into the queue of a subscription's connection, if that is open. -/
def enqueue (m : SignalMessage) (b : Bus η σ) (s : Subscription σ) : Bus η σ :=
  { b with
    connections := b.connections.map fun c =>
      if c.isOpen && c.name = s.owner then { c with queue := c.queue ++ [(s.sink, m)] } else c }

/-- Broadcasts a signal from a connection. -/
def emit (b : Bus η σ) (me : String) (m : SignalMessage) : Except TransportError (Bus η σ) := do
  b.checkOpen me
  let m := { m with sender := me }
  return (b.wanting m).foldl (enqueue m) b

/-- Takes what is in the queue of a connection. -/
def drain (b : Bus η σ) (name : String) : Bus η σ × List (σ × SignalMessage) :=
  ({ b with
      connections := b.connections.map fun c =>
        if c.name = name then { c with queue := [] } else c },
    (b.connections.filter (·.name = name)).flatMap (·.queue))

/-- The connections that have something in their queues. -/
def waiting (b : Bus η σ) : List String :=
  (b.connections.filter fun c => !c.queue.isEmpty).map (·.name)

end Bus

end MessageBus
