/-
# Moves: all that can happen in a world, in any order

The operations of a world that wait run it by a rule of their own: first come first served, time
only when nothing can run.  What is to hold whatever the order is stated over MOVES instead.  A move
is one operation that does not wait, one poll of one task, or the passing of some time; a run is a
list of moves from the empty world, with no condition on their order (`World.run`).  A task may be
polled although nothing has woken it, and time may pass although tasks stand in the queue.

An operation that waits is three moves or more: the request is made (`Move.ask`), tasks are polled
and time passes, and the outcome is taken (`Move.takeOutcome`, `Move.endGet`, `Move.endInit`).  A
handler that makes further calls while it is told of an outcome makes them in the moves right after
that poll.

Moves that have nothing to do with calls are put together as one sort (`Arrangement`).

What a run shows is read off move by move: `observe f` collects what `f` sees in each move, together
with the world in which the move is made.
-/
import MessageBus.Session.Run

namespace MessageBus

/-- A change of the surroundings in which calls are made: buses and their connections, objects and
their services, proxies as listeners. -/
inductive Arrangement where
  | addBus (callTimeout : Nat)
  | connect (bus : Nat)
  | close (bus : Nat) (name : String)
  | release (link : Link)
  | ownName (bus : Nat) (me name : String)
  | releaseName (bus : Nat) (me name : String)
  | subscribe (link : Link) (rule : SignalRule) (label : String)
  | unsubscribe (link : Link) (id : Nat)
  | unregister (link : Link) (id : Nat)
  | broadcast (link : Link) (message : SignalMessage)
  | addScripted (label name : String) (fault : Option TransportError)
  | addReplies (id : Nat) (replies : List ScriptedReply)
  | signalScripted (id : Nat) (message : SignalMessage)
  | addObject (i : Interface) (s : Service)
  | exportObject (object : Nat) (link : Link) (path : String)
  | unexportObject (object : Nat)
  | emitSignal (object : Nat) (name : String) (args : List Value)
  | emitChanged (object : Nat) (name : String) (value : Option Value)
  | serviceSet (object : Nat) (name : String) (v : Value)
  | propertySet (object : Nat) (name : String) (v : Value)
  | setCell (cell : String) (v : Value)
  | addProxy (label : String) (link : Link) (i : Interface) (name path : String)
      (timeout : Option Nat) (flags : CallFlags) (convention : Convention)
  | dropProxy (proxy : Nat)
  | listen (proxy : Nat) (label signal : String) (drops : List String)
  | unlisten (proxy : Nat) (label : String)
  /-- Forgets the result that a finish handler has kept. -/
  | readResult (handler : String)

/-- One thing that happens in a world. -/
inductive Move where
  | arrange (a : Arrangement)
  /-- Submits an asynchronous call. -/
  | callAsync (proxy : Nat) (m : Method) (args : List Argument)
  | setProperty (proxy : Nat) (name : String) (v : Value)
  /-- Makes a request for whose outcome somebody waits. -/
  | ask (r : Request)
  | takeOutcome (task : Nat)
  | endGet (proxy : Nat) (name : String) (task : Nat)
  | endInit (proxy : Nat) (task : Nat)
  | cancelPending (proxy : Nat)
  /-- Hands a call to the handlers of an object without a connection. -/
  | call (object : Nat) (sender path member : String) (body : Container)
  /-- Answers the invocation that is kept in a slot. -/
  | answer (slot : Nat) (answer : List Value → Answer)
  | fire (token : Token)
  | fireAfter (token : Token) (ms : Nat)
  | poll (task : Nat)
  /-- Lets time pass. -/
  | pass (ms : Nat)

namespace World

/-! ## 1. Making a move

A move that names an object or a proxy that is not there changes nothing. -/

/-- Does something with an object, if it is there. -/
def withObject (w : World) (id : Nat) (f : Object → World) : World := (w.objects.get? id).elim w f

/-- Does something with a proxy, if it is there. -/
def withProxy (w : World) (id : Nat) (f : Proxy → World) : World := (w.proxies.get? id).elim w f

/-- Changes the surroundings of calls. -/
def arrange (w : World) : Arrangement → World
  | .addBus callTimeout => (w.addBus callTimeout).1
  | .connect bus => (w.connect bus).1
  | .close bus name => w.close bus name
  | .release link => w.release link
  | .ownName bus me name =>
    match (w.bus bus).ownName me name with
    | .ok b => w.setBus bus b
    | .error _ => w
  | .releaseName bus me name => w.setBus bus ((w.bus bus).releaseName me name).1
  | .subscribe link rule label => (w.subscribe link rule (.recorder label)).1
  | .unsubscribe link id => w.unsubscribe link id
  | .unregister link id => w.unregister link id
  | .broadcast link message => (w.broadcast link message).1
  | .addScripted label name fault => (w.addScripted label name fault).1
  | .addReplies id replies => w.addReplies id replies
  | .signalScripted id message => (w.signalScripted id message).1
  | .addObject i s => (w.addObject i s).1
  | .exportObject object link path =>
    w.withObject object fun o => (w.exportObject object o link path).1
  | .unexportObject object => w.withObject object fun o => (w.unexportObject object o).1
  | .emitSignal object name args => w.withObject object fun o => (w.emitSignal o name args).1
  | .emitChanged object name value => w.withObject object fun o => (w.emitChanged o name value).1
  | .serviceSet object name v => w.withObject object fun o => w.serviceSet object o name v
  | .propertySet object name v =>
    w.withObject object fun o => (Session.setDirectly w object o name v).1
  | .setCell cell v => { w with cells := w.cells.insert cell v }
  | .addProxy label link i name path timeout flags convention =>
    (w.addProxy label link i name path timeout flags convention).1
  | .dropProxy proxy => w.dropProxy proxy
  | .listen proxy label signal drops =>
    w.withProxy proxy fun p => w.listen proxy p label signal drops
  | .unlisten proxy label => w.withProxy proxy fun p => (w.unlisten proxy p label).1
  | .readResult handler => { w with results := w.results.erase handler }

/-- Gives up the outcome of a request that somebody has waited for. -/
def dropOutcome (w : World) (task : Nat) : World := { w with outcomes := w.outcomes.erase task }

/-- Makes a move. -/
def act (w : World) : Move → World
  | .arrange a => w.arrange a
  | .callAsync proxy m args => w.withProxy proxy fun p => (w.callMethodAsync proxy p m args).1
  | .setProperty proxy name v => w.withProxy proxy fun p => (w.setProperty proxy p name v).1
  | .ask r => w.spawn (.request { r with purpose := .answer } .unsent)
  | .takeOutcome task => w.dropOutcome task
  | .endGet proxy name task =>
    match w.outcomes.get? task with
    | some reply =>
      (w.dropOutcome task).withProxy proxy fun p =>
        (w.dropOutcome task).setProxy proxy (p.finishGet name reply).1
    | none => w
  | .endInit proxy task =>
    match w.outcomes.get? task with
    | some reply =>
      (w.dropOutcome task).withProxy proxy fun p =>
        (w.dropOutcome task).setProxy proxy (p.finishInit reply).1
    | none => w
  | .cancelPending proxy => w.withProxy proxy fun p => w.cancelPending p
  | .call object sender path member body =>
    w.withObject object fun o => (Session.callDirectly w object o sender path member body).1
  | .answer slot answer => (w.answerKept slot answer).getD w
  | .fire token => w.fire token
  | .fireAfter token ms => w.spawn (.fire token (w.now + ms))
  | .poll task => w.poll task
  | .pass ms => w.moveTo (w.now + ms)

/-! ## 2. Runs -/

/-- Makes moves one after the other. -/
def run (w : World) (ms : List Move) : World := ms.foldl act w

@[simp] theorem run_nil (w : World) : w.run [] = w := rfl

@[simp] theorem run_cons (w : World) (m : Move) (ms : List Move) :
    w.run (m :: ms) = (w.act m).run ms := rfl

theorem run_append (w : World) (ms ns : List Move) : w.run (ms ++ ns) = (w.run ms).run ns :=
  List.foldl_append

/-- **What every move keeps, every run keeps.** -/
theorem run_keeps {P : World → Prop} (hact : ∀ w m, P w → P (w.act m)) (ms : List Move) {w : World}
    (h : P w) : P (w.run ms) := by
  induction ms generalizing w with
  | nil => exact h
  | cons m ms ih => exact ih (hact _ m h)

/-! ## 3. What a run shows -/

/-- What `f` sees in the moves of a run, in order. -/
def observe {α : Type} (f : World → Move → List α) : World → List Move → List α
  | _, [] => []
  | w, m :: ms => f w m ++ observe f (w.act m) ms

@[simp] theorem observe_nil {α : Type} (f : World → Move → List α) (w : World) :
    observe f w [] = [] := rfl

@[simp] theorem observe_cons {α : Type} (f : World → Move → List α) (w : World) (m : Move)
    (ms : List Move) : observe f w (m :: ms) = f w m ++ observe f (w.act m) ms := rfl

theorem observe_append {α : Type} (f : World → Move → List α) (w : World) (ms ns : List Move) :
    observe f w (ms ++ ns) = observe f w ms ++ observe f (w.run ms) ns := by
  induction ms generalizing w with
  | nil => rfl
  | cons m ms ih =>
    rw [List.cons_append, observe_cons, ih, observe_cons, List.append_assoc, run_cons]

/-- What is seen in a run is seen in one of its moves. -/
theorem mem_observe {α : Type} {f : World → Move → List α} {x : α} : ∀ {ms : List Move} {w : World},
    x ∈ observe f w ms → ∃ before m after, ms = before ++ m :: after ∧ x ∈ f (w.run before) m
  | m :: ms, w, hx => by
    rw [observe_cons, List.mem_append] at hx
    rcases hx with hx | hx
    · exact ⟨[], m, ms, rfl, hx⟩
    · obtain ⟨before, n, after, rfl, hn⟩ := mem_observe hx
      exact ⟨m :: before, n, after, rfl, hn⟩

end World

end MessageBus
