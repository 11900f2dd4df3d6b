/-
# The client's side

What can be done with a proxy in a world.  An operation that has to wait for an answer runs the world
until the answer is there; its result is `none` if it never comes by itself.
-/
import MessageBus.World.Run

namespace MessageBus.World

/-- The result of an operation that may wait for ever. -/
abbrev Waited (α : Type) := Option (Except CallError α)

/-- Adds a proxy, subscribed to the signals of its target's object. -/
def addProxy (w : World) (label : String) (link : Link) (i : Interface) (name path : String)
    (timeout : Option Nat) (flags : CallFlags) (convention : Convention) : World × Nat :=
  let target := { name, path, interface := i.name }
  let id := w.proxies.size
  let (w, subscription) := w.subscribe link (Proxy.rule target) (.proxy id)
  let p : Proxy :=
    { label, interface := i, link, target, timeout, flags, convention, cache := .empty,
      relay := .empty, subscription, nextCall := 1, pending := .empty, alive := true }
  ({ w with proxies := w.proxies.insert id p }, id)

/-- Gives a proxy up.  Its calls run on. -/
def dropProxy (w : World) (id : Nat) : World :=
  match w.proxies.get? id with
  | some p =>
    ({ w with proxies := w.proxies.insert id { p with alive := false } }.unsubscribe p.link
      p.subscription).closeUnheld
  | none => w

/-- Changes a proxy. -/
def setProxy (w : World) (id : Nat) (p : Proxy) : World :=
  { w with proxies := w.proxies.insert id p }

/-! ## 1. Calls -/

/-- A request of a proxy on the properties interface. -/
def plainRequest (p : Proxy) (call : MethodCall) (purpose : Purpose) : Request :=
  { link := p.link, call, flags := p.flags, timeout := p.timeout, cancel := none, purpose }

/-- The request for a prepared call. -/
def callRequest (p : Proxy) (m : Method) (c : PreparedCall) (purpose : Purpose) : Request :=
  let (call, flags) := p.message m c
  { link := p.link, call, flags, timeout := p.timeout, cancel := c.cancel, purpose }

/-- Calls a method and waits for the values of its reply. -/
def callMethodSync (w : World) (p : Proxy) (m : Method) (args : List Argument) :
    World × Waited (List Value) :=
  match prepare m .sync p.convention args with
  | .error e => (w, some (.error e))
  | .ok c =>
    let (w, outcome) := w.await (callRequest p m c .answer)
    (w, outcome.map (readReply m))

/-- Calls a method without waiting; what comes back goes to the completion among the arguments. -/
def callMethodAsync (w : World) (id : Nat) (p : Proxy) (m : Method) (args : List Argument) :
    World × Except CallError Nat :=
  match prepare m .async p.convention args with
  | .error e => (w, .error e)
  | .ok c =>
    let (p, number) := p.enter m c
    let w := w.setProxy id p
    (w.spawn (.request (callRequest p m c (.complete id number)) .unsent), .ok number)

/-- Calls the method of this name and waits. -/
def callSync (w : World) (p : Proxy) (method : String) (args : List Argument) :
    World × Waited (List Value) :=
  match p.method method with
  | .error e => (w, some (.error e))
  | .ok m => w.callMethodSync p m args

/-- Calls the method of this name without waiting. -/
def callRemote (w : World) (id : Nat) (p : Proxy) (method : String) (args : List Argument) :
    World × Except CallError Nat :=
  match p.method method with
  | .error e => (w, .error e)
  | .ok m => w.callMethodAsync id p m args

/-- Fires the tokens of the pending calls. -/
def cancelPending (w : World) (p : Proxy) : World := p.pendingTokens.foldl fire w

/-! ## 2. Properties -/

/-- Reads a property, from the cache if it is there. -/
def getProperty (w : World) (id : Nat) (p : Proxy) (name : String) :
    World × Waited (Option Value) :=
  match p.startGet name with
  | .error e => (w, some (.error e))
  | .ok (.inl v) => (w, some (.ok (some v)))
  | .ok (.inr call) =>
    match w.await (plainRequest p call .answer) with
    | (w, none) => (w, none)
    | (w, some reply) =>
      match w.proxies.get? id with
      | none => (w, none)
      | some p =>
        let (p, result) := p.finishGet name reply
        (w.setProxy id p, some result)

/-- Writes a property: the cache at once, the other side in the background. -/
def setProperty (w : World) (id : Nat) (p : Proxy) (name : String) (v : Value) :
    World × Except CallError Unit :=
  match p.startSet name v with
  | .error e => (w, .error e)
  | .ok (p, call) =>
    ((w.setProxy id p).spawn (.request (plainRequest p call (.write name)) .unsent), .ok ())

/-- Loads all properties in the place of what was cached. -/
def loadProperties (w : World) (id : Nat) (p : Proxy) : World × Waited Unit :=
  match p.startInit with
  | .error e => (w, some (.error e))
  | .ok call =>
    match w.await (plainRequest p call .answer) with
    | (w, none) => (w, none)
    | (w, some reply) =>
      match w.proxies.get? id with
      | none => (w, none)
      | some p =>
        let (p, result) := p.finishInit reply
        (w.setProxy id p, some result)

/-! ## 3. Members -/

/-- What invoking a member gives. -/
inductive Invoked where
  | done (values : List Value)
  | pending (number : Nat)

/-- Invokes a member by its name: a method's in either mode, or a property's, which is read without
arguments and written with one value. -/
def invokeMember (w : World) (id : Nat) (p : Proxy) (name : String) (args : List Argument) :
    World × Waited Invoked :=
  match p.interface.member? name with
  | none | some (.finish _) => (w, some (.error (.unknownMember name)))
  | some (.call i mode) =>
    match p.interface.methods[i]? with
    | none => (w, some (.error (.unknownMember name)))
    | some m =>
      match mode with
      | .sync =>
        let (w, result) := w.callMethodSync p m args
        (w, result.map fun r => r.map .done)
      | .async =>
        let (w, result) := w.callMethodAsync id p m args
        (w, some (result.map .pending))
  | some (.property i) =>
    match p.interface.properties[i]? with
    | none => (w, some (.error (.unknownMember name)))
    | some q =>
      match args with
      | [] =>
        let (w, result) := w.getProperty id p q.name
        (w, result.map fun r => r.map fun v => .done v.toList)
      | [.value v] =>
        let (w, result) := w.setProperty id p q.name v
        (w, some (result.map fun _ => .done []))
      | [a] => (w, some (.error (.argumentType q.name 0 a.describe)))
      | args => (w, some (.error (.argumentCount q.name 1 args.length)))

/-! ## 4. Signals -/

/-- Connects a listener, which disconnects the handles under the labels `drops` when it hears
something. -/
def listen (w : World) (id : Nat) (p : Proxy) (label signal : String) (drops : List String) :
    World :=
  let (relay, handle) := p.relay.connect signal ⟨label, drops.map .disconnect⟩
  { w.setProxy id { p with relay } with handles := w.handles.insert label handle }

/-- Removes the listener that has a label's handle from a proxy. -/
def unlisten (w : World) (id : Nat) (p : Proxy) (label : String) : World × Bool :=
  match w.handles.get? label with
  | none => (w, false)
  | some handle =>
    let (relay, removed) := p.relay.disconnect handle
    (w.setProxy id { p with relay }, removed)

end MessageBus.World
