/-
# What a world does with its connections

Subscribing, exporting and broadcasting work on either sort of connection.  A scripted one records
what it is asked for.

A connection of a bus is open for as long as something holds it: whoever opened it, a proxy, an
object that is bound to it, or a request that is under way.
-/
import MessageBus.World

namespace MessageBus.World

/-! ## 1. Scripted connections -/

/-- Records what a scripted connection is asked for. -/
def ask (w : World) (id : Nat) (e : ScriptedEvent) : World :=
  match w.scripted.get? id with
  | some s => w.note (.asked s.label e)
  | none => w

/-- Takes the next number of a scripted connection. -/
def nextScriptedId (w : World) (id : Nat) : World × Nat :=
  match w.scripted.get? id with
  | some s =>
    ({ w with scripted := w.scripted.insert id { s with nextId := s.nextId + 1 } }, s.nextId)
  | none => (w, 0)

/-- The error with which a scripted connection fails, if it does. -/
def scriptedFault (w : World) (id : Nat) : Option TransportError :=
  (w.scripted.get? id).bind (·.fault)

/-! ## 2. Subscriptions -/

/-- Subscribes a sink to signals, through a connection. -/
def subscribe (w : World) (link : Link) (rule : SignalRule) (sink : Sink) : World × Nat :=
  match link with
  | .bus b me =>
    let (bus, id) := (w.bus b).subscribe me rule sink
    (w.setBus b bus, id)
  | .scripted s =>
    let (w, id) := w.nextScriptedId s
    let w := { w with
      scripted := w.scripted.modify s fun s => { s with sinks := s.sinks ++ [(id, sink)] } }
    (w.ask s (.subscribe rule id), id)

/-- Removes a subscription. -/
def unsubscribe (w : World) (link : Link) (id : Nat) : World :=
  match link with
  | .bus b _ => w.setBus b ((w.bus b).unsubscribe id)
  | .scripted s =>
    let w := { w with
      scripted := w.scripted.modify s fun s => { s with sinks := s.sinks.filter (·.1 ≠ id) } }
    w.ask s (.unsubscribe id)

/-! ## 3. Exports -/

/-- Registers an object with a connection. -/
def register (w : World) (link : Link) (path interface : String) (object : Nat) :
    World × Except TransportError Nat :=
  match link with
  | .bus b me =>
    match (w.bus b).register me path interface object with
    | .ok (bus, id) => (w.setBus b bus, .ok id)
    | .error e => (w, .error e)
  | .scripted s =>
    match w.scriptedFault s with
    | some e => (w, .error e)
    | none =>
      let (w, id) := w.nextScriptedId s
      (w.ask s (.exported path interface id), .ok id)

/-- Removes a registration. -/
def unregister (w : World) (link : Link) (id : Nat) : World :=
  match link with
  | .bus b _ => w.setBus b ((w.bus b).unregister id)
  | .scripted s => w.ask s (.unexport id)

/-! ## 4. Signals -/

/-- Wakes the tasks that hand out queues of a bus which have something in them. -/
def wakeDeliveries (w : World) (b : Nat) : World :=
  w.wake fun t => (w.bus b).waiting.any fun c => t.delivers b c

/-- Broadcasts a signal through a connection. -/
def broadcast (w : World) (link : Link) (m : SignalMessage) : World × Except TransportError Unit :=
  match link with
  | .bus b me =>
    match (w.bus b).emit me m with
    | .ok bus => ((w.setBus b bus).wakeDeliveries b, .ok ())
    | .error e => (w, .error e)
  | .scripted s =>
    match w.scriptedFault s with
    | some e => (w, .error e)
    | none => (w.ask s (.emit m), .ok ())

/-! ## 5. What proxies and recorders do with signals -/

/-- Lets the listeners of a proxy hear a signal. -/
def relay (w : World) (id : Nat) (p : Proxy) (e : SignalEvent) : World :=
  let s := ((Relay.Stage.start p.relay w.handles 1).act (.emit e)).1
  let w := { w with proxies := w.proxies.insert id { p with relay := s.relay }, handles := s.labels }
  s.heard.foldl (fun w h => w.note (.heard p.label h.1 h.2)) w

/-- Hands a signal to a proxy: a notification of changed properties goes to its cache, a signal of
its own interface to its listeners. -/
def proxyReceive (w : World) (id : Nat) (m : SignalMessage) : World :=
  match w.proxies.get? id with
  | none => w
  | some p =>
    if m.interface = propertiesInterface ∧ m.member = propertiesChanged then
      let c := p.cache.applyChange p.target.interface m.args
      { w with proxies := w.proxies.insert id { p with cache := c.result } }.warn c.warnings
    else if m.interface = p.target.interface then
      w.relay id p { sender := m.sender, signal := m.member, args := m.args }
    else w

/-- Hands a signal to a sink. -/
def receive (w : World) (sink : Sink) (m : SignalMessage) : World :=
  match sink with
  | .proxy id => w.proxyReceive id m
  | .recorder label => w.note (.received label m)

/-- Hands out what is in the queue of a connection, in order. -/
def deliver (w : World) (b : Nat) (connection : String) : World :=
  let (bus, deliveries) := (w.bus b).drain connection
  deliveries.foldl (fun w d => w.receive d.1 d.2) (w.setBus b bus)

/-! ## 6. Opening and closing -/

/-- Opens a connection of a bus, held by whoever asks for it. -/
def connect (w : World) (b : Nat) : World × String :=
  let (bus, name) := (w.bus b).connect
  ({ w.setBus b bus with held := w.held ++ [Link.bus b name] }.spawn (.deliver b name), name)

/-- Closes a connection of a bus. -/
def close (w : World) (b : Nat) (name : String) : World := w.setBus b ((w.bus b).close name)

/-- Whether something holds the connection. -/
def isHeld (w : World) (link : Link) : Bool :=
  w.held.contains link ||
  w.proxies.values.any (fun p => p.alive && p.link = link) ||
  w.objects.values.any (fun o => o.binding.any (·.link = link)) ||
  w.tasks.values.any (fun t => t.link? = some link)

/-- Closes the connections of a bus that nothing holds. -/
def closeUnheldOn (w : World) (b : Nat) : World :=
  (w.bus b).openNames.foldl (fun w name => if w.isHeld (.bus b name) then w else w.close b name) w

/-- Closes the connections that nothing holds. -/
def closeUnheld (w : World) : World := w.buses.keys.foldl closeUnheldOn w

/-- Gives a connection up. -/
def release (w : World) (link : Link) : World :=
  { w with held := w.held.erase link }.closeUnheld

/-- Adds a scripted connection. -/
def addScripted (w : World) (label name : String) (fault : Option TransportError) : World × Nat :=
  let id := w.scripted.size
  let s := { label, name, fault, replies := [], nextId := 1, sinks := [] }
  ({ w with scripted := w.scripted.insert id s }, id)

/-- Adds reactions to a scripted connection. -/
def addReplies (w : World) (id : Nat) (replies : List ScriptedReply) : World :=
  { w with scripted := w.scripted.modify id fun s => { s with replies := s.replies ++ replies } }

/-- Hands a signal to every sink of a scripted connection, and counts them. -/
def signalScripted (w : World) (id : Nat) (m : SignalMessage) : World × Nat :=
  match w.scripted.get? id with
  | none => (w, 0)
  | some s => (s.sinks.foldl (fun w e => w.receive e.2 m) w, s.sinks.length)

end MessageBus.World
