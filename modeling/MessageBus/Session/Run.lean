/-
# Running a session

A step is performed at once, before the tasks that stand in the queue.  After it everything that can
run does, unless the step is deferred; no time passes.  The report of a step has what was recorded
since the report before it.
-/
import MessageBus.Session.Connection
import MessageBus.Session.Object
import MessageBus.Session.Proxy

namespace MessageBus.Session

/-- The text of an invocation that is kept in a slot and has not been answered. -/
def inspectKept (w : World) (slot : Nat) : Outcome :=
  match w.kept.get? slot with
  | none => .missing "parked"
  | some k =>
    match k.answered, w.invocations.get? k.invocation with
    | false, some i => .text (Inspect.invocation i)
    | _, _ => .missing "parked"

/-- Performs a step. -/
def perform (s : Session) : Step → Session × Outcome
  | .connect label =>
    let (w, name) := s.world.connect s.bus
    (setLink { s with world := w } label (.bus s.bus name), .text name)
  | .script label name fault =>
    let (w, id) := s.world.addScripted label name fault
    (setLink { s with world := w } label (.scripted id), .done)
  | .addObject label interface parts =>
    let (w, id) := s.world.addObject interface (.ofParts parts)
    (setObject { s with world := w } label id, .done)
  | .addProxy label connection interface name path timeout flags convention =>
    s.addProxy label connection interface name path timeout flags convention
  | .connection label step => s.onConnection label step
  | .object label step => s.onObject label step
  | .proxy label step => s.onProxy label step
  | .getCell cell => (s, .value (s.world.cells.get? cell))
  | .setCell cell v =>
    ({ s with world := { s.world with cells := s.world.cells.insert cell v } }, .done)
  | .answer slot answerer =>
    match s.world.answerKept slot answerer with
    | some w => ({ s with world := w }, .done)
    | none => (s, .missing "parked")
  | .fire token => ({ s with world := s.world.fire token }, .done)
  | .fireAfter token ms =>
    ({ s with world := s.world.spawn (.fire token (s.world.now + ms)) }, .done)
  | .finish handler through => s.finish handler through
  | .advance ms => ({ s with world := s.world.advance ms }, .done)
  | .describeBus => (s, .bus (s.world.bus s.bus).callTimeout)
  | .inspectBus => (s, .text (Inspect.bus "GUID" (s.world.bus s.bus)))
  | .inspectKept slot => (s, inspectKept s.world slot)

/-- What is told of a step. -/
structure Report where
  outcome : Outcome
  /-- The time in milliseconds. -/
  time : Nat
  /-- What handlers, listeners and connections were given. -/
  events : List Event
  warnings : List Warning

/-- Takes a step.  One that cannot be made, because a value in it does not fit its tag, say, has its
outcome from the start. -/
def take (s : Session) (step : Except Outcome Step) (deferred : Bool) : Session × Report :=
  let (s, outcome) :=
    match step with
    | .ok step => s.perform step
    | .error outcome => (s, outcome)
  let w := if deferred then s.world else s.world.runIdle
  ({ s with world := { w with journal := [], warnings := [] } },
    { outcome, time := w.now, events := w.journal, warnings := w.warnings })

/-- Takes steps one after the other. -/
def run (s : Session) : List (Except Outcome Step × Bool) → List Report
  | [] => []
  | (step, deferred) :: rest =>
    let (s, report) := s.take step deferred
    report :: run s rest

end MessageBus.Session
