/-
# Listeners that act on their relay

A listener is a program: while it runs it may connect further listeners, disconnect any handle, its
own among them, and emit again.  Programs name handles by labels; a label stands for the last handle
that was connected under it.

A run has a budget of emissions, nested ones among them, which bounds it; an emission that finds the
budget used up does nothing.  The history of a run lists what happened, in order.
-/
import MessageBus.Relay
import MessageBus.Table

namespace MessageBus

namespace Relay

/-- One step of a program. -/
inductive Action where
  /-- Connects a listener that is called `label` and has the program `body`. -/
  | connect (label signal : String) (body : List Action)
  | disconnect (label : String)
  | emit (event : SignalEvent)
  | count (signal : String)

/-- A listener with a program. -/
structure Listener where
  label : String
  body : List Action

/-- What comes of one step. -/
inductive Outcome where
  | connected
  /-- Whether the handle was removed; nothing if the label was never connected. -/
  | disconnected (removed : Option Bool)
  /-- The number of listeners that ran. -/
  | emitted (listeners : Nat)
  /-- The budget was used up. -/
  | exhausted
  | counted (listeners : Nat)
  deriving DecidableEq, Repr

/-- Something that happened on the relay.  Emissions are numbered in the order in which they
begin. -/
inductive Occurrence where
  | connected (handle : Nat) (signal : String)
  | disconnected (handle : Nat) (removed : Bool)
  | began (emission : Nat) (signal : String)
  | ran (emission handle : Nat) (label : String) (event : SignalEvent)
  | ended (emission listeners : Nat)

/-- A relay in the course of a run. -/
structure Stage where
  relay : Relay Listener
  /-- The last handle under each label. -/
  labels : Table String Nat
  /-- How many emissions may still begin. -/
  budget : Nat
  /-- How many emissions have begun. -/
  emissions : Nat
  history : List Occurrence

namespace Stage

/-- A stage at the beginning of a run. -/
def start (relay : Relay Listener) (labels : Table String Nat) (budget : Nat) : Stage :=
  { relay, labels, budget, emissions := 0, history := [] }

/-- Adds to the history. -/
def note (s : Stage) (o : Occurrence) : Stage := { s with history := s.history ++ [o] }

/-- Connects a listener under its label. -/
def connect (s : Stage) (signal : String) (listener : Listener) : Stage :=
  let (relay, handle) := s.relay.connect signal listener
  { s with relay, labels := s.labels.insert listener.label handle }.note (.connected handle signal)

/-- Disconnects the handle under a label. -/
def disconnect (s : Stage) (label : String) : Stage × Option Bool :=
  match s.labels.get? label with
  | none => (s, none)
  | some handle =>
    let (relay, removed) := s.relay.disconnect handle
    ({ s with relay }.note (.disconnected handle removed), some removed)

/-- Performs one step.  `depth` bounds how many emissions may be nested in one another; the budget
never exceeds it, so the budget is what counts. -/
def perform : (depth : Nat) → Stage → Action → Stage × Outcome
  | _, s, .connect label signal body => (s.connect signal ⟨label, body⟩, .connected)
  | _, s, .disconnect label =>
    let (s, removed) := s.disconnect label
    (s, .disconnected removed)
  | _, s, .count signal => (s, .counted (s.relay.count signal))
  | 0, s, .emit _ => (s, .exhausted)
  | depth + 1, s, .emit event =>
    if s.budget = 0 then (s, .exhausted)
    else
      let emission := s.emissions
      let snapshot := s.relay.listening event.signal
      let begun := { s with budget := s.budget - 1, emissions := emission + 1 }.note
        (.began emission event.signal)
      let ran := snapshot.foldl (fun s l =>
        l.listener.body.foldl (fun s a => (perform depth s a).1)
          (s.note (.ran emission l.handle l.listener.label event))) begun
      (ran.note (.ended emission snapshot.length), .emitted snapshot.length)

/-- Performs one step, with as much nesting as the budget allows. -/
def act (s : Stage) (a : Action) : Stage × Outcome := s.perform s.budget a

/-- The listeners that have run, by label and event, in order. -/
def heard (s : Stage) : List (String × SignalEvent) :=
  s.history.filterMap fun
    | .ran _ _ label event => some (label, event)
    | _ => none

end Stage

end Relay

end MessageBus
