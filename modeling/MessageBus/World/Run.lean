/-
# Running a world

`poll` runs one task until it ends or has to wait.  Everything else is made of it: `runIdle` polls
the tasks that can run, first come first served, until there is none, `advance` moves the time on,
from one deadline to the next, and `await` waits for the outcome of a request.

Each poll uses up a bounded amount of work: a request is handed over once, calls at most one handler
and is woken at most once; a handler answers at most once, at once or later.  So the number of polls
is bounded by `workload`, which the loops take as their measure.
-/
import MessageBus.World.Requests

namespace MessageBus.World

/-! ## 1. One task -/

/-- Ends a task. -/
def endTask (w : World) (id : Nat) : World := { w with tasks := w.tasks.erase id }

/-- Fires a token, unless it has fired, and wakes those that wait for it. -/
def fire (w : World) (t : Token) : World :=
  if w.hasFired t then w else { w with fired := w.fired ++ [t] }.wake (·.awaitsToken t)

/-- Runs a task that was taken from the queue. -/
def runTask (w : World) (id : Nat) : Task → World
  | .deliver bus connection => w.deliver bus connection
  | .handle object invocation member body =>
    (w.endTask id).handle object invocation member body
  | .request r progress =>
    match w.look r progress with
    | (w, .inl outcome) => (w.settleRequest id r.purpose outcome).endTask id
    | (w, .inr progress) => { w with tasks := w.tasks.insert id (.request r progress) }
  | .answer invocation a due =>
    if due ≤ w.now then (w.endTask id).conclude invocation a else w
  | .fire token due => if due ≤ w.now then (w.endTask id).fire token else w
  | .watch invocation =>
    match w.replyTo invocation with
    | some r => (w.endTask id).note (.answered invocation r)
    | none => w

/-- Polls a task, and closes the connections that nothing holds any more. -/
def poll (w : World) (id : Nat) : World :=
  let w := { w with ready := w.ready.erase id }
  match w.tasks.get? id with
  | some t => (w.runTask id t).closeUnheld
  | none => w

/-! ## 2. All tasks that can run -/

/-- A bound on the number of polls until nothing can run and nothing is due. -/
def workload (w : World) : Nat := 5 * w.tasks.size + w.ready.length + 1

/-- Polls at most `n` tasks, first come first served. -/
def runFor : Nat → World → World
  | 0, w => w
  | n + 1, w =>
    match w.ready with
    | [] => w
    | id :: _ => runFor n (w.poll id)

/-- Runs until nothing can run. -/
def runIdle (w : World) : World := runFor w.workload w

/-! ## 3. Time -/

/-- The next time at which a task that waits can run. -/
def nextDeadline (w : World) : Option Nat :=
  (w.tasks.values.filterMap Task.deadline?).min?

/-- Moves the time to `t` and wakes the tasks that are due. -/
def moveTo (w : World) (t : Nat) : World := { w with now := t }.wake (·.isDue t)

/-- Runs until nothing can run, and then from deadline to deadline, at most `n` of them, up to
`t`. -/
def runUntil : Nat → Nat → World → World
  | 0, _, w => w
  | n + 1, t, w =>
    let w := w.runIdle
    match w.nextDeadline with
    | some d => if d ≤ t then runUntil n t (w.moveTo d) else w
    | none => w

/-- Lets `ms` milliseconds pass: all that is due up to and at the new time happens, in order. -/
def advance (w : World) (ms : Nat) : World :=
  let t := w.now + ms
  { runUntil w.workload t w with now := t }

/-! ## 4. Waiting for an outcome

Somebody who waits for a request lets the tasks go first.  The request is looked at when it is made,
and after that, once something has woken it, when no other task can run: what those tasks have done
it sees all at once.  Only a long queue is interrupted for it.
-/

/-- The most tasks that run before a request that somebody waits for is looked at again. -/
def turn : Nat := 61

/-- Polls at most `n` tasks other than `id`, first come first served. -/
def runOthers (id : Nat) : Nat → World → World
  | 0, w => w
  | n + 1, w =>
    match w.ready.find? (· != id) with
    | some other => runOthers id n (w.poll other)
    | none => w

/-- Runs, and lets time pass as far as it has to, until the task's outcome is there. -/
def runToOutcome : Nat → Nat → World → World
  | 0, _, w => w
  | n + 1, id, w =>
    let w := if w.ready.contains id then w.poll id else w
    if (w.outcomes.get? id).isSome then w
    else
      let w := w.runOthers id turn
      if w.ready.isEmpty then
        match w.nextDeadline with
        | some d => runToOutcome n id (w.moveTo d)
        | none => w
      else runToOutcome n id w

/-- Makes a request at once and waits for its outcome; `none` if nothing that may happen by itself
brings one. -/
def await (w : World) (r : Request) : World × Option (Except TransportError Container) :=
  let (w, id) := w.addTask (.request r .unsent)
  let w := w.poll id
  let w := runToOutcome w.workload id w
  ({ w with outcomes := w.outcomes.erase id }, w.outcomes.get? id)

end MessageBus.World
