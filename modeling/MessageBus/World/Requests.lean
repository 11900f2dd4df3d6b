/-
# Requests

A request is a method call that is handed to a connection and comes to exactly one outcome.

On a bus, a call fails at once if the connection is closed, the token has fired, the destination
stands for nobody, or there is no such object, in this order.  A call on the properties interface is
answered on the spot.  For any other the handler runs as a task of its own, and the request waits for
whichever comes first: the reply, its token, its deadline.  If more than one has come when the request
is looked at, that order decides.
-/
import MessageBus.World.Invocations

namespace MessageBus.World

/-! ## 1. Handing a call to a bus -/

/-- The destination stands for nobody. -/
def serviceUnknown (destination : String) : TransportError :=
  .remote (.named ErrorName.serviceUnknown
    s!"The name {destination} was not provided by any .service files")

/-- What a call finds at its destination. -/
inductive Route where
  /-- It is a call on the properties interface of the connection `owner`. -/
  | properties (owner : String)
  | object (id : Nat)

/-- Finds the way of a call that the connection `me` of a bus makes. -/
def route (w : World) (b : Nat) (me : String) (call : MethodCall) (cancel : Option Token) :
    Except TransportError Route := do
  (w.bus b).checkOpen me
  if cancel.any w.hasFired then .error .cancelled
  match (w.bus b).resolve call.destination with
  | none => .error (serviceUnknown call.destination)
  | some owner =>
    if call.interface = propertiesInterface then return .properties owner
    match (w.bus b).handler? ⟨owner, call.path, call.interface⟩ with
    | some object => return .object object
    | none => .error (.remote (PropertyCall.unknownObject call.interface call.path))

/-- Answers a call on the properties interface of the connection `owner` of a bus. -/
def answerProperties (w : World) (b : Nat) (owner : String) (call : MethodCall) :
    World × Except TransportError Container :=
  match PropertyCall.interface call.body.values with
  | .error e => (w, .error (.remote e))
  | .ok interface =>
    match ((w.bus b).handler? ⟨owner, call.path, interface⟩).bind fun id =>
        (w.objects.get? id).map fun o => (id, o) with
    | none => (w, .error (.remote (PropertyCall.unknownObject interface call.path)))
    | some (id, o) =>
      let a := o.service.answerProperties o.interface w.cells call.member call.body.values
      ({ w with
          objects := w.objects.insert id { o with service := a.service }
          cells := a.cells }.warn a.warnings, a.outcome)

/-! ## 2. Looking at a request -/

/-- Where a request stands after it has been looked at. -/
abbrev Look := Except TransportError Container ⊕ Progress

/-- Looks at a request that waits for a reply. -/
def lookReply (w : World) (r : Request) (invocation deadline : Nat) : Look :=
  match w.replyTo invocation with
  | some (.ok c) => .inl (.ok c)
  | some (.error e) => .inl (.error (.remote e))
  | none =>
    if r.cancel.any w.hasFired then .inl (.error .cancelled)
    else if deadline ≤ w.now then .inl (.error .timeout)
    else .inr (.awaitReply invocation deadline)

/-- Looks at a request whose scripted reaction has waited out its delay.  One that has no token to
wait for fails. -/
def lookScripted (w : World) (r : Request) : ScriptedOutcome → Look
  | .answer result => .inl result
  | .awaitCancel =>
    match r.cancel with
    | none => .inl (.error .disconnected)
    | some t => if w.hasFired t then .inl (.error .cancelled) else .inr .awaitCancel

/-- Looks at a request whose scripted reaction has a delay. -/
def lookDelayed (w : World) (r : Request) (due : Nat) (outcome : ScriptedOutcome) : Look :=
  if due ≤ w.now then w.lookScripted r outcome else .inr (.delayed due outcome)

/-- Hands a request to the connection `me` of a bus. -/
def issueBus (w : World) (b : Nat) (me : String) (r : Request) : World × Look :=
  match w.route b me r.call r.cancel with
  | .error e => (w, .inl (.error e))
  | .ok (.properties owner) =>
    let (w, outcome) := w.answerProperties b owner r.call
    (w, .inl outcome)
  | .ok (.object object) =>
    let (w, id) := w.invoke me r.call.path r.call.interface r.call.member
    let w := w.spawn (.handle object id r.call.member r.call.body)
    (w, w.lookReply r id (w.now + r.timeout.getD (w.bus b).callTimeout))

/-- Takes the next reaction of a scripted connection. -/
def nextReply (w : World) (id : Nat) : World × Option ScriptedReply :=
  match w.scripted.get? id with
  | none => (w, none)
  | some s =>
    match s.replies with
    | [] => (w, none)
    | a :: rest => ({ w with scripted := w.scripted.insert id { s with replies := rest } }, some a)

/-- Hands a request to a scripted connection. -/
def issueScripted (w : World) (id : Nat) (r : Request) : World × Look :=
  let w := w.ask id (.call r.call r.flags r.timeout r.cancel.isSome)
  match w.nextReply id with
  | (w, none) => (w, .inl (.error .disconnected))
  | (w, some a) =>
    match a.delay with
    | some ms => (w, w.lookDelayed r (w.now + ms) a.outcome)
    | none => (w, w.lookScripted r a.outcome)

/-- Looks at a request; one that has not been handed over is handed over. -/
def look (w : World) (r : Request) : Progress → World × Look
  | .unsent =>
    match r.link with
    | .bus b me => w.issueBus b me r
    | .scripted id => w.issueScripted id r
  | .awaitReply invocation deadline => (w, w.lookReply r invocation deadline)
  | .delayed due outcome => (w, w.lookDelayed r due outcome)
  | .awaitCancel => (w, w.lookScripted r .awaitCancel)

/-! ## 3. Outcomes -/

/-- Gives the outcome of an asynchronous call to its completion. -/
def complete (w : World) (c : PendingCall) (reply : Except TransportError Container) : World :=
  match c.completion with
  | .reply handler => w.note (.replied handler (readReply c.method reply))
  | .finish handler =>
    let r := { method := c.method, reply }
    { w with results := w.results.insert handler r }.note (.finished handler r)
  | .log =>
    match readReply c.method reply with
    | .ok _ => w
    | .error e => w.warn [.ignoredError c.method.name e]

/-- Does with the outcome of a request what the request was made for. -/
def settleRequest (w : World) (task : Nat) (purpose : Purpose)
    (outcome : Except TransportError Container) : World :=
  match purpose with
  | .complete id number =>
    match w.proxies.get? id with
    | none => w
    | some p =>
      let (p, c) := p.leave number
      let w := { w with proxies := w.proxies.insert id p }
      match c with
      | some c => w.complete c outcome
      | none => w
  | .write property =>
    match outcome with
    | .ok _ => w
    | .error e => w.warn [.failedWrite property e]
  | .answer => { w with outcomes := w.outcomes.insert task outcome }

end MessageBus.World
