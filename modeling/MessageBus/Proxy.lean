/-
# Proxies

A proxy stands for one interface of a remote object.  It makes calls, keeps a cache of property
values, and relays the object's signals to listeners.

An operation that needs an answer from the other side comes in two halves, before the request and
after the reply (`startGet` and `finishGet`, say).  What happens in between is up to the connection,
so each half says what it does for any reply whatever.

Writing a property changes the cache at once and sends the write in the background.
-/
import MessageBus.Arguments
import MessageBus.Proxy.Cache
import MessageBus.Relay.Program

namespace MessageBus

/-- What a proxy or an object is connected through. -/
inductive Link where
  /-- The connection that has this unique name on the bus of this number. -/
  | bus (bus : Nat) (name : String)
  /-- The scripted connection of this number. -/
  | scripted (id : Nat)
  deriving DecidableEq, Repr

/-- An asynchronous call that has not been completed. -/
structure PendingCall where
  method : Method
  cancel : Option Token
  completion : Completion
  deriving DecidableEq

/-- The state of a proxy.  Its counter of calls stands for one of 64 bits: runs are meant that
submit fewer than `2 ^ 64` asynchronous calls. -/
structure Proxy where
  /-- The name under which what its listeners hear is recorded. -/
  label : String
  interface : Interface
  link : Link
  target : Target
  /-- The reply timeout of its calls; none stands for the connection's. -/
  timeout : Option Nat
  /-- The flags of calls that give none. -/
  flags : CallFlags
  convention : Convention
  cache : Cache
  relay : Relay Relay.Listener
  subscription : Nat
  /-- The number of the asynchronous call that is submitted next. -/
  nextCall : Nat
  pending : Table Nat PendingCall
  /-- Whether it is still there for its owner.  What it has set going runs on without it. -/
  alive : Bool

namespace Proxy

/-- Which signals the proxy subscribes to: all of its target's object. -/
def rule (t : Target) : SignalRule :=
  { sender := some t.name, path := some t.path, interface := none, member := none }

/-! ## 1. Calls -/

/-- The declared method of this name. -/
def method (p : Proxy) (name : String) : Except CallError Method :=
  match p.interface.method? name with
  | some m => .ok m
  | none => .error (.unknownMember name)

/-- The message of a prepared call, and the flags it goes with. -/
def message (p : Proxy) (m : Method) (c : PreparedCall) : MethodCall × CallFlags :=
  (.ofTarget p.target m.name c.body, c.flags.getD p.flags)

/-- Accepts an asynchronous call: it gets the next number and is pending from now on. -/
def enter (p : Proxy) (m : Method) (c : PreparedCall) : Proxy × Nat :=
  ({ p with
      nextCall := p.nextCall + 1
      pending := p.pending.insert p.nextCall ⟨m, c.cancel, c.completion⟩ }, p.nextCall)

/-- Takes a pending call out. -/
def leave (p : Proxy) (number : Nat) : Proxy × Option PendingCall :=
  ({ p with pending := p.pending.erase number }, p.pending.get? number)

/-- The tokens of the pending calls. -/
def pendingTokens (p : Proxy) : List Token := p.pending.values.filterMap (·.cancel)

/-- Reads a result through the member `member`, which has to be the finish member of its method. -/
def finish (p : Proxy) (member : String) (r : AsyncResult) : Except CallError (List Value) :=
  match p.interface.member? member with
  | some (.finish i) =>
    if (p.interface.methods[i]?).map (·.name) = some r.method.name then r.finish
    else .error (.unknownMember member)
  | _ => .error (.unknownMember member)

/-! ## 2. Properties -/

/-- The declared property of this name, if it allows what is needed. -/
def property (p : Proxy) (name : String) (need : Need) : Except CallError Property :=
  match p.interface.property? name with
  | none => .error (.unknownMember name)
  | some q =>
    let allowed := match need with
      | .read => q.access.readable
      | .write => q.access.writable
    if allowed then .ok q else .error (.propertyAccess name need)

/-- A request to the properties interface, with a body that is packed on the way. -/
def request (p : Proxy) (member : String) (tags : List Tag) (values : List Value) :
    Except CallError MethodCall := do
  return .properties p.target member (← (Container.pack tags values).mapError .codec)

/-- Begins to read a property: the cached value, or the request that has to be sent. -/
def startGet (p : Proxy) (name : String) : Except CallError (Value ⊕ MethodCall) := do
  let _ ← p.property name .read
  match p.cache.get? name with
  | some v => return .inl v
  | none =>
    return .inr (← p.request "Get" [.string, .string] [.string p.target.interface, .string name])

/-- The value in a reply to a request for one property. -/
def readGet (reply : Except TransportError Container) : Except CallError (Option Value) := do
  let c ← reply.mapError .transport
  match ← (c.unpackAs [.variant]).mapError .codec with
  | [.variant _ v] => return some v
  | _ => return none

/-- Ends reading a property: a value that has come is cached. -/
def finishGet (p : Proxy) (name : String) (reply : Except TransportError Container) :
    Proxy × Except CallError (Option Value) :=
  match readGet reply with
  | .ok (some v) => ({ p with cache := p.cache.insert name v }, .ok (some v))
  | .ok none => (p, .ok none)
  | .error e => (p, .error e)

/-- Writes a property: the value, packed against the property's tag, goes into the cache, and there
is a request to send. -/
def startSet (p : Proxy) (name : String) (v : Value) : Except CallError (Proxy × MethodCall) := do
  let q ← p.property name .write
  let x ← (Variant.make q.tag v).mapError .codec
  let p := { p with cache := p.cache.insert name x.value }
  return (p, ← p.request "Set" [.string, .string, .variant]
    [.string p.target.interface, .string name, x.toValue])

/-- Begins to load all properties. -/
def startInit (p : Proxy) : Except CallError MethodCall :=
  p.request "GetAll" [.string] [.string p.target.interface]

/-- The entries in a reply to a request for all properties. -/
def readGetAll (reply : Except TransportError Container) :
    Except CallError (List (Value × Value)) := do
  let c ← reply.mapError .transport
  match ← (c.unpackAs [.dict .string .variant]).mapError .codec with
  | [.dict entries] => return entries
  | _ => return []

/-- Ends loading all properties: what has come takes the place of the whole cache. -/
def finishInit (p : Proxy) (reply : Except TransportError Container) :
    Proxy × Except CallError Unit :=
  match readGetAll reply with
  | .ok entries => ({ p with cache := Cache.learn .empty entries }, .ok ())
  | .error e => (p, .error e)

end Proxy

end MessageBus
