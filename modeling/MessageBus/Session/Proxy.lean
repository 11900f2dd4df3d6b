/-
# Steps with proxies
-/
import MessageBus.Session

namespace MessageBus.Session

/-- Puts a proxy under a label; the one that was there before is given up. -/
def setProxy (s : Session) (label : String) (id : Nat) : Session :=
  { s with
    proxies := s.proxies.insert label id
    world := (s.proxies.get? label).elim s.world s.world.dropProxy }

/-- Adds a proxy on the connection under a label. -/
def addProxy (s : Session) (label connection : String) (i : Interface) (name path : String)
    (timeout : Option Nat) (flags : CallFlags) (convention : Convention) : Session × Outcome :=
  match s.links.get? connection with
  | none => (s, .missing "conn")
  | some link =>
    let (w, id) := s.world.addProxy label link i name path timeout flags convention
    (setProxy { s with world := w } label id,
      .text (Target.text { name, path, interface := i.name }))

/-- Does a step with a proxy of the world. -/
def onWorldProxy (w : World) (id : Nat) (p : Proxy) : ProxyStep → World × Outcome
  | .members => (w, .members p.interface.memberNames p.convention p.interface.name)
  | .callSync method args =>
    let (w, result) := w.callSync p method args
    (w, .ofWaited .values result)
  | .callRemote method args =>
    let (w, result) := w.callRemote id p method args
    (w, .ofCall .pending result)
  | .invoke member args =>
    let (w, result) := w.invokeMember id p member args
    (w, .ofWaited .ofInvoked result)
  | .pending => (w, .number p.pending.size)
  | .cancelPending => (w.cancelPending p, .done)
  | .get property =>
    let (w, result) := w.getProperty id p property
    (w, .ofWaited .value result)
  | .cached property => (w, .value (p.cache.get? property))
  | .set property v =>
    let (w, result) := w.setProperty id p property v
    (w, .ofCall (fun _ => .done) result)
  | .init =>
    let (w, result) := w.loadProperties id p
    (w, .ofWaited (fun _ => .done) result)
  | .listen label signal drops => (w.listen id p label signal drops, .done)
  | .unlisten label =>
    let (w, removed) := w.unlisten id p label
    (w, .flag removed)
  | .listeners signal => (w, .number (p.relay.count signal))
  | .inspect => (w, .text (Inspect.proxy p))
  | .inspectRelay => (w, .text (Inspect.relay p.relay))
  | .drop => (w.dropProxy id, .done)

/-- Does a step with the proxy under a label. -/
def onProxy (s : Session) (label : String) (step : ProxyStep) : Session × Outcome :=
  match s.proxy? label with
  | none => (s, .missing "proxy")
  | some (id, p) =>
    let (s, outcome) := s.wrap (onWorldProxy s.world id p step)
    match step with
    | .drop => ({ s with proxies := s.proxies.erase label }, outcome)
    | _ => (s, outcome)

/-- Reads the result that a finish handler has kept.  It can be read once. -/
def finish (s : Session) (handler : String) (through : Option (String × String)) :
    Session × Outcome :=
  match s.world.results.get? handler with
  | none => (s, .missing "result")
  | some r =>
    let s := { s with world := { s.world with results := s.world.results.erase handler } }
    match through with
    | none => (s, .ofCall .values r.finish)
    | some (label, member) =>
      match s.proxy? label with
      | none => (s, .missing "proxy")
      | some (_, p) => (s, .ofCall .values (p.finish member r))

end MessageBus.Session
