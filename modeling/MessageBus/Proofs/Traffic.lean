/-
# What moves signals, and when

A run is read here as the traffic on one bus.  `World.emission` is the signal that a move broadcasts
on the bus, if it does; `World.entries` is what this puts into the queue of a connection, and
`World.handed` what a delivery task takes out of it.  All three are read off the move and the world
in which it is made.

`World.motion_act` is the inversion of a move for this purpose: the bus is opened, or no signal
moves, or a connection comes, or one signal goes into queues, or one queue is handed out.  What is
left alone by everything else is said once (`World.Still`) and operation by operation, as far as an
operation touches buses at all: most of them do not (`buses_receive` and the like).

A bus is known by its number, and opening a bus takes the number that is the count of those there
are.  So the bus of a number below this count is never replaced.
-/
import MessageBus.Proofs.Queues
import MessageBus.Proofs.Steps

namespace MessageBus.World

variable {w w' w'' : World} {b : Nat}

/-! ## 1. What leaves all buses alone -/

theorem buses_wake (w : World) (p : Task → Bool) : (w.wake p).buses = w.buses := by
  rw [wake_eq]

theorem buses_spawn (w : World) (x : Task) : (w.spawn x).buses = w.buses := by
  rw [spawn_eq]

theorem buses_ask (w : World) (id : Nat) (e : ScriptedEvent) : (w.ask id e).buses = w.buses := by
  unfold ask
  split <;> rfl

theorem buses_nextScriptedId (w : World) (id : Nat) :
    (w.nextScriptedId id).1.buses = w.buses := by
  unfold nextScriptedId
  split <;> rfl

/-! ### Sinks -/

theorem buses_relay (w : World) (id : Nat) (p : Proxy) (e : SignalEvent) :
    (w.relay id p e).buses = w.buses := by
  unfold relay
  exact foldl_same buses
    (f := fun w (h : String × SignalEvent) => w.note (.heard p.label h.1 h.2)) (fun _ _ => rfl) _ _

theorem buses_proxyReceive (w : World) (id : Nat) (m : SignalMessage) :
    (w.proxyReceive id m).buses = w.buses := by
  unfold proxyReceive
  split
  · rfl
  · split
    · rfl
    · split
      · exact buses_relay _ _ _ _
      · rfl

theorem buses_receive (w : World) (sink : Sink) (m : SignalMessage) :
    (w.receive sink m).buses = w.buses := by
  cases sink with
  | proxy id => exact buses_proxyReceive w id m
  | recorder label => rfl

theorem buses_signalScripted (w : World) (id : Nat) (m : SignalMessage) :
    (w.signalScripted id m).1.buses = w.buses := by
  unfold signalScripted
  split
  · rfl
  · exact foldl_same buses (fun w (e : Nat × Sink) => buses_receive w e.2 m) _ w

/-! ### Invocations and tokens -/

theorem buses_reply (w : World) (i : Nat) (r : Reply Container) :
    (w.reply i r).buses = w.buses := by
  unfold reply
  split
  · split
    · rfl
    · exact buses_wake _ _
  · rfl

theorem buses_conclude (w : World) (i : Nat) (a : Answer) : (w.conclude i a).buses = w.buses := by
  unfold conclude
  split
  · exact buses_reply w i _
  · split
    · exact buses_reply _ i _
    · rfl

theorem buses_dispose (w : World) (i : Nat) (args : List Value) (d : Disposal) :
    (w.dispose i args d).buses = w.buses := by
  cases d with
  | keep =>
    unfold dispose keep
    simp only
    split <;> rfl
  | answer a => exact buses_conclude w i a
  | answerAfter ms a => exact buses_spawn w _

theorem buses_handle (w : World) (object i : Nat) (member : String) (body : Container) :
    (w.handle object i member body).buses = w.buses := by
  unfold handle
  split
  · rfl
  · split
    · exact buses_reply _ _ _
    · exact buses_reply _ _ _
    · exact buses_dispose _ _ _ _

theorem buses_answerKept {slot : Nat} {answer : List Value → Answer}
    (h : w.answerKept slot answer = some w') : w'.buses = w.buses := by
  unfold answerKept at h
  split at h
  · split at h
    · cases h
    · cases h
      exact buses_conclude _ _ _
  · cases h

theorem buses_fire (w : World) (t : Token) : (w.fire t).buses = w.buses := by
  unfold fire
  split
  · rfl
  · exact buses_wake _ _

/-! ### Requests -/

theorem buses_answerProperties (w : World) (n : Nat) (owner : String) (call : MethodCall) :
    (w.answerProperties n owner call).1.buses = w.buses := by
  unfold answerProperties
  split
  · rfl
  · split <;> rfl

theorem buses_issueBus (w : World) (n : Nat) (me : String) (r : Request) :
    (w.issueBus n me r).1.buses = w.buses := by
  unfold issueBus
  split
  · rfl
  · exact buses_answerProperties w n _ _
  · exact buses_spawn _ _

theorem buses_nextReply (w : World) (id : Nat) : (w.nextReply id).1.buses = w.buses := by
  unfold nextReply
  split
  · rfl
  · split <;> rfl

theorem buses_issueScripted (w : World) (id : Nat) (r : Request) :
    (w.issueScripted id r).1.buses = w.buses := by
  have hask := buses_ask w id (.call r.call r.flags r.timeout r.cancel.isSome)
  have hnext := (buses_nextReply (w.ask id (.call r.call r.flags r.timeout r.cancel.isSome))
    id).trans hask
  unfold issueScripted
  simp only
  split <;> rename_i heq <;> rw [heq] at hnext
  · exact hnext
  · split <;> exact hnext

theorem buses_look (w : World) (r : Request) (p : Progress) : (w.look r p).1.buses = w.buses := by
  cases p with
  | unsent =>
    simp only [look]
    split
    · exact buses_issueBus w _ _ r
    · exact buses_issueScripted w _ r
  | _ => rfl

theorem buses_complete (w : World) (c : PendingCall) (o : Except TransportError Container) :
    (w.complete c o).buses = w.buses := by
  unfold complete
  split
  · rfl
  · rfl
  · split <;> rfl

theorem buses_settleRequest (w : World) (t : Nat) (p : Purpose)
    (o : Except TransportError Container) : (w.settleRequest t p o).buses = w.buses := by
  unfold settleRequest
  split
  · split
    · rfl
    · simp only
      split
      · exact buses_complete _ _ _
      · rfl
  · split <;> rfl
  · rfl

/-- A task that hands out no queue touches no bus. -/
theorem buses_runTask {t : Nat} {x : Task} (hx : ∀ n c, x ≠ .deliver n c) :
    (w.runTask t x).buses = w.buses := by
  cases x with
  | deliver n c => exact absurd rfl (hx n c)
  | handle object i member body => exact buses_handle _ _ _ _ _
  | request r p =>
    have hlook := buses_look w r p
    simp only [runTask]
    split <;> rename_i v o heq <;> rw [heq] at hlook
    · exact (buses_settleRequest v t r.purpose o).trans hlook
    · exact hlook
  | answer i a due =>
    simp only [runTask]
    split
    · exact buses_conclude _ _ _
    · rfl
  | fire token due =>
    simp only [runTask]
    split
    · exact buses_fire _ _
    · rfl
  | watch i =>
    simp only [runTask]
    split <;> rfl

/-! ### Exchanging a bus -/

theorem buses_connect (w : World) (n : Nat) :
    (w.connect n).1.buses = (w.setBus n (w.bus n).connect.1).buses :=
  buses_spawn _ _

/-- A bus that is exchanged stays what it is then, as long as the buses are left alone. -/
theorem bus_of_setBus {x : Bus Nat Sink} (h : w'.buses = (w.setBus b x).buses) : w'.bus b = x := by
  have hbus : w'.bus b = (w.setBus b x).bus b := by rw [World.bus, World.bus, h]
  rw [hbus, bus_setBus, if_pos rfl]

/-! ## 2. What moves no signal on a bus -/

/-- No signal moves on the bus, and no bus goes. -/
structure Still (b : Nat) (w w' : World) : Prop where
  bus : (w.bus b).Still (w'.bus b)
  count : w.buses.size ≤ w'.buses.size

theorem Still.of_buses (h : w'.buses = w.buses) : Still b w w' := by
  have hbus : w'.bus b = w.bus b := by rw [World.bus, World.bus, h]
  exact ⟨hbus ▸ .refl _, Nat.le_of_eq (by rw [h])⟩

theorem Still.refl (w : World) : Still b w w := .of_buses rfl

theorem Still.trans (h : Still b w w') (h' : Still b w' w'') : Still b w w'' :=
  ⟨h.bus.trans h'.bus, Nat.le_trans h.count h'.count⟩

/-- Afterwards, everything but the buses may change. -/
theorem Still.after (h : Still b w w') (hbuses : w''.buses = w'.buses) : Still b w w'' :=
  h.trans (.of_buses hbuses)

theorem Still.foldl {α : Type} {f : World → α → World} (hf : ∀ w x, Still b w (f w x))
    (l : List α) (w : World) : Still b w (l.foldl f w) := by
  refine List.foldlRecOn l f (.refl w) fun v h x _ => ?_
  exact h.trans (hf v x)

theorem count_setBus (w : World) (n : Nat) (x : Bus Nat Sink) :
    w.buses.size ≤ (w.setBus n x).buses.size := by
  rw [setBus, Table.size_insert]
  split <;> omega

theorem count_of_setBus {n : Nat} {x : Bus Nat Sink} (h : w'.buses = (w.setBus n x).buses) :
    w.buses.size ≤ w'.buses.size :=
  h ▸ count_setBus w n x

theorem still_setBus {n : Nat} {x : Bus Nat Sink} (h : (w.bus n).Still x) :
    Still b w (w.setBus n x) := by
  refine ⟨?_, count_setBus w n x⟩
  rw [bus_setBus]
  split
  · rename_i heq
    exact heq ▸ h
  · exact .refl _

/-- Whatever happens to another bus. -/
theorem still_setBus_of_ne {n : Nat} (hn : n ≠ b) (x : Bus Nat Sink) :
    Still b w (w.setBus n x) := by
  refine ⟨?_, count_setBus w n x⟩
  rw [bus_setBus, if_neg hn]
  exact .refl _

theorem still_subscribe (w : World) (link : Link) (rule : SignalRule) (sink : Sink) :
    Still b w (w.subscribe link rule sink).1 := by
  unfold subscribe
  split
  · exact still_setBus (Bus.still_subscribe _ _ _ _)
  · exact .of_buses ((buses_ask _ _ _).trans (buses_nextScriptedId w _))

theorem still_unsubscribe (w : World) (link : Link) (id : Nat) :
    Still b w (w.unsubscribe link id) := by
  unfold unsubscribe
  split
  · exact still_setBus (Bus.still_unsubscribe _ _)
  · exact .of_buses (buses_ask _ _ _)

theorem still_register (w : World) (link : Link) (path interface : String) (object : Nat) :
    Still b w (w.register link path interface object).1 := by
  unfold register
  split
  · split
    · rename_i h
      exact still_setBus (Bus.still_register h)
    · exact .refl w
  · split
    · exact .refl w
    · exact .of_buses ((buses_ask _ _ _).trans (buses_nextScriptedId w _))

theorem still_unregister (w : World) (link : Link) (id : Nat) :
    Still b w (w.unregister link id) := by
  unfold unregister
  split
  · exact still_setBus (Bus.still_unregister _ _)
  · exact .of_buses (buses_ask _ _ _)

theorem still_close (w : World) (n : Nat) (name : String) : Still b w (w.close n name) :=
  still_setBus (Bus.still_close _ _)

theorem still_closeUnheld (w : World) : Still b w w.closeUnheld := by
  refine Still.foldl (fun w n => ?_) _ w
  refine Still.foldl (fun w name => ?_) _ w
  split
  · exact .refl w
  · exact still_close w n name

theorem still_exportObject (w : World) (id : Nat) (o : Object) (link : Link) (path : String) :
    Still b w (w.exportObject id o link path).1 := by
  have hregister : Still b w (w.register link path o.interface.name id).1 :=
    still_register w link path o.interface.name id
  unfold exportObject
  split
  · exact .refl w
  · split <;> rename_i heq <;> rw [heq] at hregister
    · exact hregister
    · exact hregister.after rfl

theorem still_unexportObject (w : World) (id : Nat) (o : Object) :
    Still b w (w.unexportObject id o).1 := by
  unfold unexportObject
  split
  · exact .refl w
  · rename_i place _
    have hgone : Still b w
        ((w.unregister place.link place.registration).setObject id { o with binding := none }) :=
      (still_unregister w place.link place.registration).after rfl
    exact hgone.trans (still_closeUnheld _)

theorem still_setDirectly (w : World) (id : Nat) (o : Object) (name : String) (v : Value) :
    Still b w (Session.setDirectly w id o name v).1 := by
  unfold Session.setDirectly
  split
  · exact .of_buses rfl
  · exact .refl w

theorem still_dropProxy (w : World) (id : Nat) : Still b w (w.dropProxy id) := by
  unfold dropProxy
  split
  · rename_i p _
    have hgiven : Still b w { w with proxies := w.proxies.insert id { p with alive := false } } :=
      .of_buses rfl
    exact (hgiven.trans (still_unsubscribe _ p.link p.subscription)).trans (still_closeUnheld _)
  · exact .refl w

theorem still_callMethodAsync (w : World) (id : Nat) (p : Proxy) (m : Method)
    (args : List Argument) : Still b w (w.callMethodAsync id p m args).1 := by
  unfold callMethodAsync
  split
  · exact .refl w
  · exact .of_buses (buses_spawn _ _)

theorem still_setProperty (w : World) (id : Nat) (p : Proxy) (name : String) (v : Value) :
    Still b w (w.setProperty id p name v).1 := by
  unfold setProperty
  split
  · exact .refl w
  · exact .of_buses (buses_spawn _ _)

theorem still_withObject {id : Nat} {f : Object → World} (hf : ∀ o, Still b w (f o)) :
    Still b w (w.withObject id f) := by
  unfold withObject
  cases w.objects.get? id with
  | none => exact .refl w
  | some o => exact hf o

theorem still_withProxy {id : Nat} {f : Proxy → World} (hf : ∀ p, Still b w (f p)) :
    Still b w (w.withProxy id f) := by
  unfold withProxy
  cases w.proxies.get? id with
  | none => exact .refl w
  | some p => exact hf p

/-! ## 3. The traffic of a move -/

/-- A signal of an object that is exported at a place.  Its sender is filled in on the way. -/
def signalFrom (place : Binding) (interface member : String) (body : Option Container) :
    Link × SignalMessage :=
  (place.link, { sender := "", path := place.path, interface, member, body })

/-- The signal of an object, if it can be made and the object is exported. -/
def signalOf (w : World) (object : Nat) (interface : Object → String) (member : String)
    (body : Object → Except CallError (Option Container)) : Option (Link × SignalMessage) :=
  (w.objects.get? object).bind fun o => (body o).toOption.bind fun c =>
    o.binding.map fun place => signalFrom place (interface o) member c

/-- What a move broadcasts, and through which connection. -/
def broadcasting (w : World) : Move → Option (Link × SignalMessage)
  | .arrange (.broadcast link m) => some (link, m)
  | .arrange (.emitSignal object name args) =>
    w.signalOf object (·.interface.name) name (·.signalBody name args)
  | .arrange (.emitChanged object name value) =>
    w.signalOf object (fun _ => propertiesInterface) propertiesChanged
      fun o => (o.changeBody name value).map some
  | _ => none

/-- The signal that a move broadcasts on the bus `b`, if the broadcast succeeds. -/
def emission (b : Nat) (w : World) (m : Move) : Option SignalMessage :=
  match w.broadcasting m with
  | some (.bus n me, s) =>
    if n = b ∧ (w.broadcast (.bus n me) s).2.isOk then some { s with sender := me } else none
  | _ => none

/-- A signal on its way through a subscription. -/
structure Entry where
  subscription : Subscription Sink
  message : SignalMessage

/-- What is handed out in the end. -/
def Entry.delivery (e : Entry) : Sink × SignalMessage := (e.subscription.sink, e.message)

/-- What a move puts into the queue of the connection `c`. -/
def entries (b : Nat) (c : String) (w : World) (m : Move) : List Entry :=
  match w.emission b m with
  | some s => ((w.bus b).takers c s).map (⟨·, s⟩)
  | none => []

/-- What a move takes out of the queue of the connection `c`, to hand it to sinks: all of it, if it
polls the task that delivers to the connection. -/
def handed (b : Nat) (c : String) (w : World) : Move → List (Sink × SignalMessage)
  | .poll t =>
    match w.tasks.get? t with
    | some (.deliver n d) => if n = b ∧ d = c then (w.bus b).queue c else []
    | _ => []
  | _ => []

/-! ## 4. Moves, by what they do to signals -/

/-- What a move does to the signals on the bus `b`. -/
inductive Motion (b : Nat) (w : World) : Move → Prop where
  /-- The bus is opened. -/
  | opened {callTimeout : Nat} (hb : b = w.buses.size) :
      Motion b w (.arrange (.addBus callTimeout))
  /-- No signal moves. -/
  | still {m : Move} (h : Still b w (w.act m)) (hemission : w.emission b m = none)
      (hpoll : ∀ t c, m = .poll t → w.tasks.get? t ≠ some (.deliver b c)) : Motion b w m
  /-- A connection comes, and with it a task that delivers to it. -/
  | connect : Motion b w (.arrange (.connect b))
  /-- A signal goes into queues, and those who have to hand them out are woken. -/
  | emit {m : Move} {me : String} {s : SignalMessage} {x : Bus Nat Sink}
      (hs : w.broadcasting m = some (.bus b me, s)) (hx : (w.bus b).emit me s = .ok x)
      (hact : w.act m = (w.setBus b x).wakeDeliveries b) : Motion b w m
  /-- A queue is handed out. -/
  | deliver {t : Nat} {c : String} (ht : w.tasks.get? t = some (.deliver b c)) :
      Motion b w (.poll t)

theorem emission_of_silent {m : Move} (h : w.broadcasting m = none) : w.emission b m = none := by
  rw [emission, h]

theorem emission_of_emit {m : Move} {me : String} {s : SignalMessage} {x : Bus Nat Sink}
    (hs : w.broadcasting m = some (.bus b me, s)) (hx : (w.bus b).emit me s = .ok x) :
    w.emission b m = some { s with sender := me } := by
  have hok : (w.broadcast (.bus b me) s).2 = .ok () := by simp only [broadcast, hx]
  simp only [emission, hs, hok]
  rfl

/-- A move without a signal and without a poll. -/
theorem motion_silent {m : Move} (h : Still b w (w.act m)) (hs : w.broadcasting m = none)
    (hm : m.polled = none) : Motion b w m :=
  .still h (emission_of_silent hs) fun t c heq => by rw [heq] at hm; cases hm

theorem motion_broadcast {m : Move} {link : Link} {s : SignalMessage}
    (hs : w.broadcasting m = some (link, s)) (hact : w.act m = (w.broadcast link s).1)
    (hm : m.polled = none) : Motion b w m := by
  have hpoll : ∀ t c, m = .poll t → w.tasks.get? t ≠ some (.deliver b c) := fun t c heq => by
    rw [heq] at hm
    cases hm
  cases link with
  | scripted id =>
    refine .still ?_ (by rw [emission, hs]) hpoll
    rw [hact]
    simp only [broadcast]
    split
    · exact .refl w
    · exact .of_buses (buses_ask _ _ _)
  | bus n me =>
    by_cases hn : n = b
    · subst hn
      cases hx : (w.bus n).emit me s with
      | ok x => exact .emit hs hx (by rw [hact, broadcast, hx])
      | error e =>
        have hbroadcast : w.broadcast (.bus n me) s = (w, .error e) := by simp only [broadcast, hx]
        refine .still (by rw [hact, hbroadcast]; exact .refl w) ?_ hpoll
        simp [emission, hs, hbroadcast, Except.isOk, Except.toBool]
    · refine .still ?_ (by simp [emission, hs, hn]) hpoll
      rw [hact]
      simp only [broadcast]
      split
      · exact (still_setBus_of_ne hn _).after (buses_wake _ _)
      · exact .refl w

theorem emitSignal_eq (w : World) (o : Object) (name : String) (args : List Value) :
    (w.emitSignal o name args).1 = (o.signalBody name args).toOption.elim w fun c =>
      (w.emitFrom o o.interface.name name c).1 := by
  unfold emitSignal
  cases o.signalBody name args <;> rfl

theorem emitChanged_eq (w : World) (o : Object) (name : String) (value : Option Value) :
    (w.emitChanged o name value).1 = ((o.changeBody name value).map some).toOption.elim w fun c =>
      (w.emitFrom o propertiesInterface propertiesChanged c).1 := by
  unfold emitChanged
  cases o.changeBody name value <;> rfl

/-- An object broadcasts a signal that can be made, if it is exported. -/
theorem motion_signalOf {m : Move} {object : Nat} {interface : Object → String} {member : String}
    {body : Object → Except CallError (Option Container)}
    (hact : w.act m = w.withObject object fun o => (body o).toOption.elim w fun c =>
      (w.emitFrom o (interface o) member c).1)
    (hs : w.broadcasting m = w.signalOf object interface member body) (hm : m.polled = none) :
    Motion b w m := by
  unfold withObject at hact
  unfold signalOf at hs
  cases ho : w.objects.get? object with
  | none =>
    rw [ho] at hact hs
    exact motion_silent (by rw [hact]; exact .refl w) hs hm
  | some o =>
    rw [ho, Option.elim_some] at hact
    rw [ho, Option.bind_some] at hs
    cases hc : (body o).toOption with
    | none =>
      rw [hc] at hact hs
      exact motion_silent (by rw [hact]; exact .refl w) hs hm
    | some c =>
      rw [hc, Option.elim_some] at hact
      rw [hc, Option.bind_some] at hs
      cases hplace : o.binding with
      | none =>
        rw [hplace] at hs
        refine motion_silent ?_ hs hm
        rw [hact, emitFrom, hplace]
        exact .refl w
      | some place =>
        rw [hplace] at hs
        refine motion_broadcast hs ?_ hm
        rw [hact, emitFrom, hplace]

theorem buses_deliver (w : World) (n : Nat) (c : String) :
    (w.deliver n c).buses = (w.setBus n ((w.bus n).drain c).1).buses :=
  foldl_same buses (fun w (d : Sink × SignalMessage) => buses_receive w d.1 d.2) _ _

theorem still_deliver_of_ne {n : Nat} (hn : n ≠ b) (c : String) : Still b w (w.deliver n c) :=
  (still_setBus_of_ne hn _).after (buses_deliver w n c)

theorem motion_poll (w : World) (b t : Nat) : Motion b w (.poll t) := by
  cases ht : w.tasks.get? t with
  | none =>
    refine .still ?_ rfl fun s c heq => ?_
    · have hact : w.act (.poll t) = w.taken t := by simp only [act, poll, ht, taken]
      rw [hact]
      exact .of_buses rfl
    · cases heq
      rw [ht]
      rintro ⟨⟩
  | some x =>
    by_cases hx : ∃ c, x = .deliver b c
    · obtain ⟨c, rfl⟩ := hx
      exact .deliver ht
    · refine .still ?_ rfl fun s c heq => ?_
      · rw [act_poll ht]
        refine Still.trans ?_ (still_closeUnheld _)
        by_cases hdeliver : ∃ n c, x = .deliver n c
        · obtain ⟨n, c, rfl⟩ := hdeliver
          have hn : n ≠ b := fun hn => hx ⟨c, by rw [hn]⟩
          have htaken : Still b w (w.taken t) := .of_buses rfl
          exact htaken.trans (still_deliver_of_ne hn c)
        · exact .of_buses (buses_runTask fun n c heq => hdeliver ⟨n, c, heq⟩)
      · cases heq
        rw [ht]
        exact fun h => hx ⟨c, Option.some.inj h⟩

/-- **Every move is of one of these sorts.** -/
theorem motion_act (w : World) (b : Nat) (m : Move) : Motion b w m := by
  cases m with
  | arrange a =>
    cases a with
    | addBus callTimeout =>
      by_cases hb : b = w.buses.size
      · exact .opened hb
      · exact motion_silent (still_setBus_of_ne (Ne.symm hb) _) rfl rfl
    | connect n =>
      by_cases hn : n = b
      · subst hn
        exact .connect
      · refine motion_silent ?_ rfl rfl
        exact (still_setBus_of_ne hn _).after (buses_connect w n)
    | close n name => exact motion_silent (still_close w n name) rfl rfl
    | release link =>
      have hgiven : Still b w { w with held := w.held.erase link } := .of_buses rfl
      exact motion_silent (hgiven.trans (still_closeUnheld _)) rfl rfl
    | ownName n me name =>
      refine motion_silent ?_ rfl rfl
      simp only [act, arrange]
      split
      · rename_i h
        exact still_setBus (Bus.still_ownName h)
      · exact .refl w
    | releaseName n me name =>
      exact motion_silent (still_setBus (Bus.still_releaseName _ _ _)) rfl rfl
    | subscribe link rule label => exact motion_silent (still_subscribe _ _ _ _) rfl rfl
    | unsubscribe link id => exact motion_silent (still_unsubscribe _ _ _) rfl rfl
    | unregister link id => exact motion_silent (still_unregister _ _ _) rfl rfl
    | broadcast link message => exact motion_broadcast rfl rfl rfl
    | addScripted label name fault => exact motion_silent (.of_buses rfl) rfl rfl
    | addReplies id replies => exact motion_silent (.of_buses rfl) rfl rfl
    | signalScripted id message =>
      exact motion_silent (.of_buses (buses_signalScripted _ _ _)) rfl rfl
    | addObject i s => exact motion_silent (.of_buses rfl) rfl rfl
    | exportObject object link path =>
      exact motion_silent (still_withObject fun o => still_exportObject _ _ _ _ _) rfl rfl
    | unexportObject object =>
      exact motion_silent (still_withObject fun o => still_unexportObject _ _ _) rfl rfl
    | emitSignal object name args =>
      exact motion_signalOf (by simp only [act, arrange, emitSignal_eq]) rfl rfl
    | emitChanged object name value =>
      exact motion_signalOf (by simp only [act, arrange, emitChanged_eq]) rfl rfl
    | serviceSet object name v =>
      exact motion_silent (still_withObject fun o => .of_buses rfl) rfl rfl
    | propertySet object name v =>
      exact motion_silent (still_withObject fun o => still_setDirectly _ _ _ _ _) rfl rfl
    | setCell cell v => exact motion_silent (.of_buses rfl) rfl rfl
    | addProxy label link i name path timeout flags convention =>
      exact motion_silent ((still_subscribe w link _ _).after rfl) rfl rfl
    | dropProxy proxy => exact motion_silent (still_dropProxy _ _) rfl rfl
    | listen proxy label signal drops =>
      exact motion_silent (still_withProxy fun p => .of_buses rfl) rfl rfl
    | unlisten proxy label =>
      refine motion_silent (still_withProxy fun p => ?_) rfl rfl
      unfold unlisten
      split <;> exact .of_buses rfl
    | readResult handler => exact motion_silent (.of_buses rfl) rfl rfl
  | callAsync proxy m args =>
    exact motion_silent (still_withProxy fun p => still_callMethodAsync _ _ _ _ _) rfl rfl
  | setProperty proxy name v =>
    exact motion_silent (still_withProxy fun p => still_setProperty _ _ _ _ _) rfl rfl
  | ask r => exact motion_silent (.of_buses (buses_spawn _ _)) rfl rfl
  | takeOutcome task => exact motion_silent (.of_buses rfl) rfl rfl
  | endGet proxy name task =>
    refine motion_silent ?_ rfl rfl
    simp only [act]
    split
    · have hdrop : Still b w (w.dropOutcome task) := .of_buses rfl
      refine hdrop.trans (still_withProxy fun p => ?_)
      exact .of_buses rfl
    · exact .refl w
  | endInit proxy task =>
    refine motion_silent ?_ rfl rfl
    simp only [act]
    split
    · have hdrop : Still b w (w.dropOutcome task) := .of_buses rfl
      refine hdrop.trans (still_withProxy fun p => ?_)
      exact .of_buses rfl
    · exact .refl w
  | cancelPending proxy =>
    exact motion_silent
      (still_withProxy fun p => .of_buses (foldl_same buses buses_fire _ _)) rfl rfl
  | call object sender path member body =>
    refine motion_silent (still_withObject fun o => .of_buses ?_) rfl rfl
    rw [callDirectly_eq]
    exact (buses_spawn _ _).trans (buses_handle _ _ _ _ _)
  | answer slot answer =>
    refine motion_silent ?_ rfl rfl
    simp only [act]
    cases ha : w.answerKept slot answer with
    | none => exact .refl w
    | some w' => exact .of_buses (buses_answerKept ha)
  | fire token => exact motion_silent (.of_buses (buses_fire _ _)) rfl rfl
  | fireAfter token ms => exact motion_silent (.of_buses (buses_spawn _ _)) rfl rfl
  | poll t => exact motion_poll w b t
  | pass ms => exact motion_silent (.of_buses (buses_wake _ _)) rfl rfl

end MessageBus.World
