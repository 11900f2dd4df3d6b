/-
# Steps with connections
-/
import MessageBus.Session

namespace MessageBus.Session

/-- Puts a connection under a label; the one that was there before is given up. -/
def setLink (s : Session) (label : String) (link : Link) : Session :=
  let old := s.links.get? label
  { s with
    links := s.links.insert label link
    world := old.elim s.world s.world.release }

/-- Does a step with the connection `me` of a bus. -/
def onBus (w : World) (b : Nat) (me : String) : ConnectionStep → World × Outcome
  | .ownName name =>
    match (w.bus b).ownName me name with
    | .ok bus => (w.setBus b bus, .done)
    | .error e => (w, .transportError e)
  | .releaseName name =>
    let (bus, released) := (w.bus b).releaseName me name
    (w.setBus b bus, .flag released)
  | .close => (w.close b me, .done)
  | .isClosed => (w, .flag (!(w.bus b).isOpen me))
  | .inspect => (w, .text (Inspect.connection (w.bus b) me))
  | _ => (w, .missing "conn")

/-- Does a step with a scripted connection. -/
def onScripted (w : World) (id : Nat) : ConnectionStep → World × Outcome
  | .script replies => (w.addReplies id replies, .done)
  | .handOut message =>
    let (w, n) := w.signalScripted id message
    (w, .number n)
  | _ => (w, .missing "conn")

/-- Makes a call through a connection and waits for its reply. -/
def rawCall (w : World) (link : Link) (call : MethodCall) (flags : CallFlags) (timeout : Option Nat)
    (cancel : Option Token) : World × Outcome :=
  let (w, reply) := w.await { link, call, flags, timeout, cancel, purpose := .answer }
  (w, reply.elim .stuck (.ofTransport .body))

/-- Does a step with a connection of either sort. -/
def onLink (w : World) (link : Link) : ConnectionStep → World × Outcome
  | .call call flags timeout cancel => rawCall w link call flags timeout cancel
  | .emit message =>
    let (w, result) := w.broadcast link message
    (w, .ofTransport (fun _ => .done) result)
  | .subscribe label rule =>
    let (w, id) := w.subscribe link rule (.recorder label)
    (w, .number id)
  | .unsubscribe id => (w.unsubscribe link id, .done)
  | .unregister id => (w.unregister link id, .done)
  | step =>
    match link with
    | .bus b me => onBus w b me step
    | .scripted id => onScripted w id step

/-- Does a step with the connection under a label. -/
def onConnection (s : Session) (label : String) (step : ConnectionStep) : Session × Outcome :=
  match s.links.get? label with
  | none => (s, .missing "conn")
  | some link =>
    match step with
    | .drop =>
      ({ s with links := s.links.erase label, world := s.world.release link }, .done)
    | step => s.wrap (onLink s.world link step)

end MessageBus.Session
