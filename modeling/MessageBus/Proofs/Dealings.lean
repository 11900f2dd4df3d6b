/-
# What a move does on a bus

A move is read here as a dealing with one bus: the operations that it comes to there, and what it
does to the proxies whose connections are on that bus (`World.Dealing`).  Most moves leave these
proxies what they are, and subscribe and unsubscribe nothing (`World.Aside`); those that do are
four, and each of them comes to one operation and, if a proxy goes, the closing of connections that
nothing holds any more.

What a proxy is for a bus is its `Port`: the connection, the target, the number of its subscription,
and whether it is still there for its owner.  A proxy's cache, its calls and its listeners are no
part of it.

It follows that a bus in a world is always one that a list of operations leads to
(`World.reached_by_operations`), whatever tasks were polled and however calls have gone.
-/
import MessageBus.Proofs.Emissions
import MessageBus.Proofs.Operations
import MessageBus.Proofs.Traffic

namespace MessageBus

/-! ## 1. Plain changes of a bus -/

namespace Bus

variable {η σ : Type} {b b' b'' : Bus η σ}

/-- Plain operations lead from one to the other. -/
def Becomes (b b' : Bus η σ) : Prop := ∃ ops, (∀ op ∈ ops, op.isPlain = true) ∧ b' = b.run ops

theorem Becomes.refl (b : Bus η σ) : b.Becomes b := ⟨[], by simp, rfl⟩

theorem Becomes.trans (h : b.Becomes b') (h' : b'.Becomes b'') : b.Becomes b'' := by
  obtain ⟨ops, hops, rfl⟩ := h
  obtain ⟨ops', hops', rfl⟩ := h'
  refine ⟨ops ++ ops', fun op hop => ?_, (run_append _ _ _).symm⟩
  rcases List.mem_append.mp hop with hop | hop
  · exact hops op hop
  · exact hops' op hop

/-- One plain operation. -/
theorem becomes_apply (b : Bus η σ) (op : Operation η σ) (hop : op.isPlain = true) :
    b.Becomes (b.apply op) := ⟨[op], by simpa using hop, rfl⟩

theorem becomes_ownName {me name : String} (h : b.ownName me name = .ok b') : b.Becomes b' := by
  have hb' : b.apply (.ownName me name) = b' := by simp only [apply, h]; rfl
  exact hb' ▸ b.becomes_apply _ rfl

theorem becomes_register {me path interface : String} {handler : η} {id : Nat}
    (h : b.register me path interface handler = .ok (b', id)) : b.Becomes b' := by
  have hb' : b.apply (.register me path interface handler) = b' := by simp only [apply, h]; rfl
  exact hb' ▸ b.becomes_apply _ rfl

theorem becomes_emit {me : String} {m : SignalMessage} (h : b.emit me m = .ok b') :
    b.Becomes b' := by
  have hb' : b.apply (.emit me m) = b' := by simp only [apply, h]; rfl
  exact hb' ▸ b.becomes_apply _ rfl

end Bus

/-! ## 2. Ports -/

/-- What a proxy is for the bus on which its connection is. -/
structure Port where
  label : String
  connection : String
  target : Target
  subscription : Nat
  alive : Bool

/-- The port of a proxy whose connection is on the bus `b`. -/
def Proxy.port (b : Nat) (p : Proxy) : Option Port :=
  match p.link with
  | .bus n c => if n = b then some ⟨p.label, c, p.target, p.subscription, p.alive⟩ else none
  | .scripted _ => none

theorem Proxy.port_finishGet (b : Nat) (p : Proxy) (name : String)
    (reply : Except TransportError Container) : (p.finishGet name reply).1.port b = p.port b := by
  unfold Proxy.finishGet
  split <;> rfl

theorem Proxy.relay_finishGet (p : Proxy) (name : String)
    (reply : Except TransportError Container) : (p.finishGet name reply).1.relay = p.relay := by
  unfold Proxy.finishGet
  split <;> rfl

theorem Proxy.port_finishInit (b : Nat) (p : Proxy) (reply : Except TransportError Container) :
    (p.finishInit reply).1.port b = p.port b := by
  unfold Proxy.finishInit
  split <;> rfl

theorem Proxy.relay_finishInit (p : Proxy) (reply : Except TransportError Container) :
    (p.finishInit reply).1.relay = p.relay := by
  unfold Proxy.finishInit
  split <;> rfl

theorem Proxy.port_startSet {b : Nat} {p p' : Proxy} {name : String} {v : Value}
    {call : MethodCall} (h : p.startSet name v = .ok (p', call)) : p'.port b = p.port b := by
  unfold Proxy.startSet at h
  obtain ⟨q, -, h⟩ := bind_eq_ok.1 h
  obtain ⟨x, -, h⟩ := bind_eq_ok.1 h
  obtain ⟨c, -, h⟩ := bind_eq_ok.1 h
  cases h
  rfl

theorem Proxy.relay_startSet {p p' : Proxy} {name : String} {v : Value} {call : MethodCall}
    (h : p.startSet name v = .ok (p', call)) : p'.relay = p.relay := by
  unfold Proxy.startSet at h
  obtain ⟨q, -, h⟩ := bind_eq_ok.1 h
  obtain ⟨x, -, h⟩ := bind_eq_ok.1 h
  obtain ⟨c, -, h⟩ := bind_eq_ok.1 h
  cases h
  rfl

namespace World

variable {w w' w'' : World} {b : Nat}

/-- The port of a proxy on the bus `b`. -/
def port (b : Nat) (w : World) (id : Nat) : Option Port := (w.proxies.get? id).bind (·.port b)

/-- The relays of all proxies are tidy. -/
def Tidy (w : World) : Prop := ∀ id p, w.proxies.get? id = some p → p.relay.Tidy

theorem Tidy.insertProxy (h : w.Tidy) {id : Nat} {p : Proxy} (hp : p.relay.Tidy)
    (hproxies : w'.proxies = w.proxies.insert id p) : w'.Tidy := by
  intro n q hq
  rw [hproxies, Table.get?_insert] at hq
  split at hq
  · cases hq
    exact hp
  · exact h n q hq

/-! ## 3. What leaves subscriptions and ports alone -/

/-- On the bus `b` there are plain operations only, the proxies are for it what they were, and
relays stay tidy. -/
structure Aside (b : Nat) (w w' : World) : Prop where
  bus : (w.bus b).Becomes (w'.bus b)
  ports : ∀ id, w'.port b id = w.port b id
  tidy : w.Tidy → w'.Tidy

theorem Aside.of_same (hbuses : w'.buses = w.buses) (hproxies : w'.proxies = w.proxies) :
    Aside b w w' := by
  have hbus : w'.bus b = w.bus b := by rw [World.bus, World.bus, hbuses]
  refine ⟨hbus ▸ .refl _, fun id => by rw [port, port, hproxies], fun h id p hp => ?_⟩
  rw [hproxies] at hp
  exact h id p hp

theorem Aside.refl (w : World) : Aside b w w := .of_same rfl rfl

theorem Aside.trans (h : Aside b w w') (h' : Aside b w' w'') : Aside b w w'' :=
  ⟨h.bus.trans h'.bus, fun id => (h'.ports id).trans (h.ports id), fun ht => h'.tidy (h.tidy ht)⟩

theorem Aside.foldl {α : Type} {f : World → α → World} (hf : ∀ w x, Aside b w (f w x))
    (l : List α) (w : World) : Aside b w (l.foldl f w) := by
  refine List.foldlRecOn l f (.refl w) fun v h x _ => ?_
  exact h.trans (hf v x)

theorem Aside.withObject {id : Nat} {f : Object → World} (hf : ∀ o, Aside b w (f o)) :
    Aside b w (w.withObject id f) := by
  unfold World.withObject
  cases w.objects.get? id with
  | none => exact .refl w
  | some o => exact hf o

theorem Aside.withProxy {id : Nat} {f : Proxy → World}
    (hf : ∀ p, w.proxies.get? id = some p → Aside b w (f p)) : Aside b w (w.withProxy id f) := by
  unfold World.withProxy
  cases hp : w.proxies.get? id with
  | none => exact .refl w
  | some p => exact hf p hp

/-- A plain operation on any bus. -/
theorem aside_setBus {n : Nat} {x : Bus Nat Sink} (h : (w.bus n).Becomes x) :
    Aside b w (w.setBus n x) := by
  refine ⟨?_, fun _ => rfl, fun ht => ht⟩
  rw [bus_setBus]
  split
  · rename_i heq
    exact heq ▸ h
  · exact .refl _

/-- Whatever is done on another bus. -/
theorem aside_setBus_of_ne {n : Nat} (hn : n ≠ b) (x : Bus Nat Sink) :
    Aside b w (w.setBus n x) := by
  refine ⟨?_, fun _ => rfl, fun ht => ht⟩
  rw [bus_setBus, if_neg hn]
  exact .refl _

theorem port_insert {id : Nat} {p : Proxy} (hproxies : w'.proxies = w.proxies.insert id p)
    (n : Nat) : w'.port b n = if id = n then p.port b else w.port b n := by
  rw [port, port, hproxies, Table.get?_insert]
  split <;> rfl

/-- A proxy that keeps its port may change otherwise. -/
theorem aside_insertProxy {id : Nat} {p p' : Proxy} (hp : w.proxies.get? id = some p)
    (hbuses : w'.buses = w.buses) (hproxies : w'.proxies = w.proxies.insert id p')
    (hport : p'.port b = p.port b) (hrelay : p.relay.Tidy → p'.relay.Tidy) : Aside b w w' := by
  refine ⟨by rw [World.bus, World.bus, hbuses]; exact .refl _, fun n => ?_, fun ht =>
    ht.insertProxy (hrelay (ht id p hp)) hproxies⟩
  rw [port_insert hproxies]
  split
  · rename_i heq
    rw [port, ← heq, hp]
    exact hport
  · rfl

theorem aside_insertProxy_of_relay {id : Nat} {p p' : Proxy} (hp : w.proxies.get? id = some p)
    (hbuses : w'.buses = w.buses) (hproxies : w'.proxies = w.proxies.insert id p')
    (hport : p'.port b = p.port b) (hrelay : p'.relay = p.relay) : Aside b w w' :=
  aside_insertProxy hp hbuses hproxies hport fun ht => hrelay ▸ ht

/-! ### Tasks and records -/

theorem aside_note (w : World) (e : Event) : Aside b w (w.note e) := .of_same rfl rfl

theorem aside_wake (w : World) (p : Task → Bool) : Aside b w (w.wake p) := by
  rw [wake_eq]
  exact .of_same rfl rfl

theorem aside_spawn (w : World) (x : Task) : Aside b w (w.spawn x) := by
  rw [spawn_eq]
  exact .of_same rfl rfl

theorem aside_ask (w : World) (id : Nat) (e : ScriptedEvent) : Aside b w (w.ask id e) := by
  unfold ask
  split <;> exact .of_same rfl rfl

theorem aside_scripted (w : World) (scripted : Table Nat Scripted) :
    Aside b w { w with scripted } := .of_same rfl rfl

theorem aside_nextScriptedId (w : World) (id : Nat) : Aside b w (w.nextScriptedId id).1 := by
  unfold nextScriptedId
  split <;> exact .of_same rfl rfl

theorem aside_fire (w : World) (t : Token) : Aside b w (w.fire t) := by
  have hfired : Aside b w { w with fired := w.fired ++ [t] } := .of_same rfl rfl
  unfold fire
  split
  · exact .refl w
  · exact hfired.trans (aside_wake _ _)

/-! ### Sinks -/

theorem aside_relay {id : Nat} {p : Proxy} (hp : w.proxies.get? id = some p) (e : SignalEvent) :
    Aside b w (w.relay id p e) := by
  have hrelay : ∀ relay handles, (p.relay.Tidy → relay.Tidy) → Aside b w
      { w with proxies := w.proxies.insert id { p with relay }, handles } := fun _ _ ht =>
    aside_insertProxy hp rfl rfl rfl ht
  exact (hrelay _ _ fun ht => ht.act _ _ _).trans (Aside.foldl (fun w _ => aside_note w _) _ _)

theorem aside_proxyReceive (w : World) (id : Nat) (m : SignalMessage) :
    Aside b w (w.proxyReceive id m) := by
  unfold proxyReceive
  split
  · exact .refl w
  · rename_i p hp
    split
    · exact aside_insertProxy_of_relay hp rfl rfl rfl rfl
    · split
      · exact aside_relay hp _
      · exact .refl w

theorem aside_receive (w : World) (sink : Sink) (m : SignalMessage) :
    Aside b w (w.receive sink m) := by
  cases sink with
  | proxy id => exact aside_proxyReceive w id m
  | recorder label => exact aside_note w _

theorem aside_signalScripted (w : World) (id : Nat) (m : SignalMessage) :
    Aside b w (w.signalScripted id m).1 := by
  unfold signalScripted
  split
  · exact .refl w
  · exact Aside.foldl (fun w (e : Nat × Sink) => aside_receive w e.2 m) _ w

/-! ### Invocations -/

theorem aside_reply (w : World) (i : Nat) (r : Reply Container) : Aside b w (w.reply i r) := by
  unfold reply
  split
  · rename_i inv _
    have hreplied : Aside b w { w with
        invocations := w.invocations.insert i { inv with reply := some r } } := .of_same rfl rfl
    split
    · exact .refl w
    · exact hreplied.trans (aside_wake _ _)
  · exact .refl w

theorem aside_conclude (w : World) (i : Nat) (a : Answer) : Aside b w (w.conclude i a) := by
  unfold conclude
  split
  · exact aside_reply w i _
  · split
    · rename_i inv _
      have hwarned : Aside b w (w.warn [.droppedInvocation inv.member inv.path]) :=
        .of_same rfl rfl
      exact hwarned.trans (aside_reply _ i _)
    · exact .refl w

theorem aside_keep (w : World) (i : Nat) (args : List Value) : Aside b w (w.keep i args) := by
  unfold keep
  simp only
  split <;> exact .of_same rfl rfl

theorem aside_dispose (w : World) (i : Nat) (args : List Value) (d : Disposal) :
    Aside b w (w.dispose i args d) := by
  cases d with
  | keep => exact aside_keep w i args
  | answer a => exact aside_conclude w i a
  | answerAfter ms a => exact aside_spawn w _

theorem aside_handle (w : World) (object i : Nat) (member : String) (body : Container) :
    Aside b w (w.handle object i member body) := by
  have hwarned : ∀ (v : World) ws, Aside b v (v.warn ws) := fun _ _ => .of_same rfl rfl
  unfold handle
  split
  · exact .refl w
  · split
    · exact (hwarned w _).trans (aside_reply _ _ _)
    · exact ((aside_note w _).trans (hwarned _ _)).trans (aside_reply _ _ _)
    · exact (aside_note w _).trans (aside_dispose _ _ _ _)

theorem aside_answerKept {slot : Nat} {answer : List Value → Answer}
    (h : w.answerKept slot answer = some w') : Aside b w w' := by
  unfold answerKept at h
  split at h
  · rename_i k _
    have hanswered : Aside b w { w with kept := w.kept.insert slot { k with answered := true } } :=
      .of_same rfl rfl
    split at h
    · cases h
    · cases h
      exact hanswered.trans (aside_conclude _ _ _)
  · cases h

/-! ### Requests -/

theorem aside_answerProperties (w : World) (n : Nat) (owner : String) (call : MethodCall) :
    Aside b w (w.answerProperties n owner call).1 := by
  unfold answerProperties
  split
  · exact .refl w
  · split <;> exact .of_same rfl rfl

theorem aside_issueBus (w : World) (n : Nat) (me : String) (r : Request) :
    Aside b w (w.issueBus n me r).1 := by
  have hinvoked : Aside b w (w.invoke me r.call.path r.call.interface r.call.member).1 :=
    .of_same rfl rfl
  unfold issueBus
  split
  · exact .refl w
  · exact aside_answerProperties w n _ _
  · exact hinvoked.trans (aside_spawn _ _)

theorem aside_nextReply (w : World) (id : Nat) : Aside b w (w.nextReply id).1 := by
  unfold nextReply
  split
  · exact .refl w
  · split <;> exact .of_same rfl rfl

theorem aside_issueScripted (w : World) (id : Nat) (r : Request) :
    Aside b w (w.issueScripted id r).1 := by
  have hasked : Aside b w (w.ask id (.call r.call r.flags r.timeout r.cancel.isSome)) :=
    aside_ask w id _
  have hnext : Aside b w _ := hasked.trans (aside_nextReply _ id)
  unfold issueScripted
  simp only
  split <;> rename_i heq <;> rw [heq] at hnext
  · exact hnext
  · split <;> exact hnext

theorem aside_look (w : World) (r : Request) (p : Progress) : Aside b w (w.look r p).1 := by
  cases p with
  | unsent =>
    simp only [look]
    split
    · exact aside_issueBus w _ _ r
    · exact aside_issueScripted w _ r
  | _ => exact .refl w

theorem aside_complete (w : World) (c : PendingCall) (o : Except TransportError Container) :
    Aside b w (w.complete c o) := by
  unfold complete
  split
  · exact .of_same rfl rfl
  · exact .of_same rfl rfl
  · split <;> exact .of_same rfl rfl

theorem aside_settleRequest (w : World) (t : Nat) (p : Purpose)
    (o : Except TransportError Container) : Aside b w (w.settleRequest t p o) := by
  cases p with
  | complete id number =>
    simp only [settleRequest]
    cases hp : w.proxies.get? id with
    | none => exact .refl w
    | some p =>
      have hleft : Aside b w { w with proxies := w.proxies.insert id (p.leave number).1 } :=
        aside_insertProxy_of_relay hp rfl rfl rfl rfl
      simp only
      split
      · exact hleft.trans (aside_complete _ _ _)
      · exact hleft
  | write property =>
    simp only [settleRequest]
    split <;> exact .of_same rfl rfl
  | answer => exact .of_same rfl rfl

/-! ### Connections -/

theorem aside_close (w : World) (n : Nat) (name : String) : Aside b w (w.close n name) :=
  aside_setBus ((w.bus n).becomes_apply (.close name) rfl)

theorem aside_closeUnheld (w : World) : Aside b w w.closeUnheld := by
  refine Aside.foldl (fun w n => ?_) _ w
  refine Aside.foldl (fun w name => ?_) _ w
  split
  · exact .refl w
  · exact aside_close w n name

theorem aside_connect (w : World) (n : Nat) : Aside b w (w.connect n).1 := by
  have hbus : Aside b w (w.setBus n (w.bus n).connect.1) :=
    aside_setBus ((w.bus n).becomes_apply .connect rfl)
  have hheld : ∀ links, Aside b (w.setBus n (w.bus n).connect.1)
      { w.setBus n (w.bus n).connect.1 with held := links } := fun _ => .of_same rfl rfl
  exact (hbus.trans (hheld _)).trans (aside_spawn _ _)

theorem aside_deliver (w : World) (n : Nat) (c : String) : Aside b w (w.deliver n c) :=
  (aside_setBus ((w.bus n).becomes_apply (.drain c) rfl)).trans
    (Aside.foldl (fun w (d : Sink × SignalMessage) => aside_receive w d.1 d.2) _ _)

theorem aside_wakeDeliveries (w : World) (n : Nat) : Aside b w (w.wakeDeliveries n) :=
  aside_wake w _

theorem aside_broadcast (w : World) (link : Link) (m : SignalMessage) :
    Aside b w (w.broadcast link m).1 := by
  unfold broadcast
  split
  · split
    · rename_i h
      exact (aside_setBus (Bus.becomes_emit h)).trans (aside_wakeDeliveries _ _)
    · exact .refl w
  · split
    · exact .refl w
    · exact aside_ask w _ _

theorem aside_register (w : World) (link : Link) (path interface : String) (object : Nat) :
    Aside b w (w.register link path interface object).1 := by
  unfold register
  split
  · split
    · rename_i h
      exact aside_setBus (Bus.becomes_register h)
    · exact .refl w
  · split
    · exact .refl w
    · exact (aside_nextScriptedId w _).trans (aside_ask _ _ _)

theorem aside_unregister (w : World) (link : Link) (id : Nat) :
    Aside b w (w.unregister link id) := by
  unfold unregister
  split
  · exact aside_setBus (Bus.becomes_apply _ (.unregister id) rfl)
  · exact aside_ask w _ _

/-- A subscription through another sort of connection, or on another bus. -/
theorem aside_subscribe {link : Link} (hlink : ∀ me, link ≠ .bus b me) (rule : SignalRule)
    (sink : Sink) : Aside b w (w.subscribe link rule sink).1 := by
  unfold subscribe
  split
  · rename_i n me
    exact aside_setBus_of_ne (fun hn => hlink me (by rw [hn])) _
  · exact ((aside_nextScriptedId w _).trans (aside_scripted _ _)).trans (aside_ask _ _ _)

theorem aside_unsubscribe {link : Link} (hlink : ∀ me, link ≠ .bus b me) (id : Nat) :
    Aside b w (w.unsubscribe link id) := by
  unfold unsubscribe
  split
  · rename_i n me
    exact aside_setBus_of_ne (fun hn => hlink me (by rw [hn])) _
  · exact (aside_scripted w _).trans (aside_ask _ _ _)

/-! ### Objects -/

theorem aside_setObject (w : World) (id : Nat) (o : Object) : Aside b w (w.setObject id o) :=
  .of_same rfl rfl

theorem aside_exportObject (w : World) (id : Nat) (o : Object) (link : Link) (path : String) :
    Aside b w (w.exportObject id o link path).1 := by
  have hregister : Aside b w (w.register link path o.interface.name id).1 :=
    aside_register w link path o.interface.name id
  unfold exportObject
  split
  · exact .refl w
  · split <;> rename_i heq <;> rw [heq] at hregister
    · exact hregister
    · exact hregister.trans (aside_setObject _ _ _)

theorem aside_unexportObject (w : World) (id : Nat) (o : Object) :
    Aside b w (w.unexportObject id o).1 := by
  unfold unexportObject
  split
  · exact .refl w
  · exact ((aside_unregister w _ _).trans (aside_setObject _ _ _)).trans (aside_closeUnheld _)

theorem aside_emitFrom (w : World) (o : Object) (interface member : String)
    (body : Option Container) : Aside b w (w.emitFrom o interface member body).1 := by
  unfold emitFrom
  split
  · exact .refl w
  · exact aside_broadcast w _ _

theorem aside_emitSignal (w : World) (o : Object) (name : String) (args : List Value) :
    Aside b w (w.emitSignal o name args).1 := by
  unfold emitSignal
  split
  · exact .refl w
  · exact aside_emitFrom w _ _ _ _

theorem aside_emitChanged (w : World) (o : Object) (name : String) (value : Option Value) :
    Aside b w (w.emitChanged o name value).1 := by
  unfold emitChanged
  split
  · exact .refl w
  · exact aside_emitFrom w _ _ _ _

theorem aside_setDirectly (w : World) (id : Nat) (o : Object) (name : String) (v : Value) :
    Aside b w (Session.setDirectly w id o name v).1 := by
  unfold Session.setDirectly
  split
  · exact .of_same rfl rfl
  · exact .refl w

/-! ### Proxies -/

theorem aside_callMethodAsync {id : Nat} {p : Proxy} (hp : w.proxies.get? id = some p) (m : Method)
    (args : List Argument) : Aside b w (w.callMethodAsync id p m args).1 := by
  unfold callMethodAsync
  split
  · exact .refl w
  · rename_i c _
    have hentered : Aside b w (w.setProxy id (p.enter m c).1) :=
      aside_insertProxy_of_relay hp rfl rfl rfl rfl
    exact hentered.trans (aside_spawn _ _)

theorem aside_setProperty {id : Nat} {p : Proxy} (hp : w.proxies.get? id = some p) (name : String)
    (v : Value) : Aside b w (w.setProperty id p name v).1 := by
  unfold setProperty
  split
  · exact .refl w
  · rename_i p' call hstart
    have hset : Aside b w (w.setProxy id p') :=
      aside_insertProxy_of_relay hp rfl rfl (Proxy.port_startSet hstart)
        (Proxy.relay_startSet hstart)
    exact hset.trans (aside_spawn _ _)

theorem aside_unlisten {id : Nat} {p : Proxy} (hp : w.proxies.get? id = some p) (label : String) :
    Aside b w (w.unlisten id p label).1 := by
  unfold unlisten
  split
  · exact .refl w
  · exact aside_insertProxy hp rfl rfl rfl fun ht => ht.disconnect _

/-! ### Polls -/

theorem aside_runTask (w : World) (t : Nat) (x : Task) : Aside b w (w.runTask t x) := by
  have hended : ∀ v : World, Aside b v (v.endTask t) := fun _ => .of_same rfl rfl
  cases x with
  | deliver n c => exact aside_deliver w n c
  | handle object i member body => exact (hended w).trans (aside_handle _ _ _ _ _)
  | request r p =>
    have hlook : Aside b w (w.look r p).1 := aside_look w r p
    simp only [runTask]
    split <;> rename_i v o heq <;> rw [heq] at hlook
    · exact (hlook.trans (aside_settleRequest v t r.purpose o)).trans (hended _)
    · exact hlook.trans (.of_same rfl rfl)
  | answer i a due =>
    simp only [runTask]
    split
    · exact (hended w).trans (aside_conclude _ _ _)
    · exact .refl w
  | fire token due =>
    simp only [runTask]
    split
    · exact (hended w).trans (aside_fire _ _)
    · exact .refl w
  | watch i =>
    simp only [runTask]
    split
    · exact .of_same rfl rfl
    · exact .refl w

/-- **A poll leaves subscriptions and ports alone**, whatever task it runs. -/
theorem aside_poll (w : World) (t : Nat) : Aside b w (w.poll t) := by
  have htaken : Aside b w (w.taken t) := .of_same rfl rfl
  unfold poll
  simp only
  split
  · exact (htaken.trans (aside_runTask _ _ _)).trans (aside_closeUnheld _)
  · exact htaken

/-! ## 4. Moves, by what they do on a bus -/

/-- What a move does on the bus `b`. -/
inductive Dealing (b : Nat) (w : World) : Move → Prop where
  /-- The bus is opened. -/
  | opened {callTimeout : Nat} (hb : b = w.buses.size) :
      Dealing b w (.arrange (.addBus callTimeout))
  | aside {m : Move} (h : Aside b w (w.act m)) : Dealing b w m
  /-- A recorder subscribes. -/
  | subscribe {me : String} {rule : SignalRule} {label : String} :
      Dealing b w (.arrange (.subscribe (.bus b me) rule label))
  /-- A subscription is removed by its number. -/
  | unsubscribe {me : String} {id : Nat} :
      Dealing b w (.arrange (.unsubscribe (.bus b me) id))
  /-- A proxy comes, and with it its subscription. -/
  | addProxy {label : String} {me : String} {i : Interface} {name path : String}
      {timeout : Option Nat} {flags : CallFlags} {convention : Convention} :
      Dealing b w (.arrange (.addProxy label (.bus b me) i name path timeout flags convention))
  /-- A proxy goes, and so does its subscription. -/
  | dropProxy {id : Nat} {p : Proxy} {me : String} (hp : w.proxies.get? id = some p)
      (hlink : p.link = .bus b me) : Dealing b w (.arrange (.dropProxy id))

/-- A proxy on another bus, or on a connection with a script. -/
theorem Proxy.port_of_elsewhere {p : Proxy} (hlink : ∀ me, p.link ≠ .bus b me) :
    p.port b = none := by
  unfold Proxy.port
  split
  · rename_i n c h
    rw [if_neg fun hn => hlink c (by rw [h, hn])]
  · rfl

/-- What a new proxy is. -/
theorem proxies_addProxy (w : World) (label : String) (link : Link) (i : Interface)
    (name path : String) (timeout : Option Nat) (flags : CallFlags) (convention : Convention) :
    ∃ p : Proxy, p.label = label ∧ p.link = link ∧
      p.target = { name, path, interface := i.name } ∧
      p.subscription = (w.subscribe link (Proxy.rule p.target) (.proxy w.proxies.size)).2 ∧
      p.alive = true ∧ p.relay = .empty ∧
      (w.addProxy label link i name path timeout flags convention).1.proxies
        = w.proxies.insert w.proxies.size p := by
  let target : Target := { name, path, interface := i.name }
  let p : Proxy :=
    { label, interface := i, link, target, timeout, flags, convention, cache := .empty,
      relay := .empty,
      subscription := (w.subscribe link (Proxy.rule target) (.proxy w.proxies.size)).2,
      nextCall := 1, pending := .empty, alive := true }
  refine ⟨p, rfl, rfl, rfl, rfl, rfl, rfl, ?_⟩
  have hproxies := proxies_subscribe w link (Proxy.rule target) (.proxy w.proxies.size)
  exact congrArg (fun proxies => proxies.insert w.proxies.size p) hproxies

theorem aside_addProxy (h : w.Orderly) (label : String) {link : Link}
    (hlink : ∀ me, link ≠ .bus b me) (i : Interface) (name path : String) (timeout : Option Nat)
    (flags : CallFlags) (convention : Convention) :
    Aside b w (w.addProxy label link i name path timeout flags convention).1 := by
  have hsubscribed : Aside b w (w.subscribe link
      (Proxy.rule { name, path, interface := i.name }) (.proxy w.proxies.size)).1 :=
    aside_subscribe hlink _ _
  obtain ⟨p, -, hp, -, -, -, hrelay, hproxies⟩ :=
    proxies_addProxy w label link i name path timeout flags convention
  refine ⟨hsubscribed.bus, fun id => ?_, fun ht =>
    ht.insertProxy (hrelay ▸ Relay.tidy_empty) hproxies⟩
  rw [port_insert hproxies]
  split
  · rename_i hid
    rw [Proxy.port_of_elsewhere (hp ▸ hlink), port, ← hid, h.proxiesBelow.get?_size]
    rfl
  · rfl

theorem aside_dropProxy {id : Nat} {p : Proxy} (hp : w.proxies.get? id = some p)
    (hlink : ∀ me, p.link ≠ .bus b me) : Aside b w (w.dropProxy id) := by
  have hdropped : Aside b w { w with proxies := w.proxies.insert id { p with alive := false } } :=
    aside_insertProxy_of_relay hp rfl rfl
      ((Proxy.port_of_elsewhere (p := { p with alive := false }) hlink).trans
        (Proxy.port_of_elsewhere hlink).symm) rfl
  unfold dropProxy
  rw [hp]
  exact (hdropped.trans (aside_unsubscribe hlink _)).trans (aside_closeUnheld _)

/-- **Every move is of one of these sorts.** -/
theorem dealing_act (h : w.Orderly) (b : Nat) (m : Move) : Dealing b w m := by
  have hlinks : ∀ link : Link, (∃ me, link = .bus b me) ∨ ∀ me, link ≠ .bus b me := by
    intro link
    by_cases hlink : ∃ me, link = .bus b me
    · exact Or.inl hlink
    · exact Or.inr fun me heq => hlink ⟨me, heq⟩
  cases m with
  | arrange a =>
    cases a with
    | addBus callTimeout =>
      by_cases hb : b = w.buses.size
      · exact .opened hb
      · exact .aside (aside_setBus_of_ne (Ne.symm hb) _)
    | connect n => exact .aside (aside_connect w n)
    | close n name => exact .aside (aside_close w n name)
    | release link =>
      have hgiven : Aside b w { w with held := w.held.erase link } := .of_same rfl rfl
      exact .aside (hgiven.trans (aside_closeUnheld _))
    | ownName n me name =>
      refine .aside ?_
      simp only [act, arrange]
      split
      · rename_i hown
        exact aside_setBus (Bus.becomes_ownName hown)
      · exact .refl w
    | releaseName n me name =>
      exact .aside (aside_setBus (Bus.becomes_apply _ (.releaseName me name) rfl))
    | subscribe link rule label =>
      rcases hlinks link with ⟨me, rfl⟩ | hlink
      · exact .subscribe
      · exact .aside (aside_subscribe hlink _ _)
    | unsubscribe link id =>
      rcases hlinks link with ⟨me, rfl⟩ | hlink
      · exact .unsubscribe
      · exact .aside (aside_unsubscribe hlink _)
    | unregister link id => exact .aside (aside_unregister w link id)
    | broadcast link message => exact .aside (aside_broadcast w link message)
    | addScripted label name fault => exact .aside (aside_scripted w _)
    | addReplies id replies => exact .aside (aside_scripted w _)
    | signalScripted id message => exact .aside (aside_signalScripted w id message)
    | addObject i s => exact .aside (.of_same rfl rfl)
    | exportObject object link path =>
      exact .aside (.withObject fun o => aside_exportObject w object o link path)
    | unexportObject object =>
      exact .aside (.withObject fun o => aside_unexportObject w object o)
    | emitSignal object name args =>
      exact .aside (.withObject fun o => aside_emitSignal w o name args)
    | emitChanged object name value =>
      exact .aside (.withObject fun o => aside_emitChanged w o name value)
    | serviceSet object name v => exact .aside (.withObject fun o => .of_same rfl rfl)
    | propertySet object name v =>
      exact .aside (.withObject fun o => aside_setDirectly w object o name v)
    | setCell cell v => exact .aside (.of_same rfl rfl)
    | addProxy label link i name path timeout flags convention =>
      rcases hlinks link with ⟨me, rfl⟩ | hlink
      · exact .addProxy
      · exact .aside (aside_addProxy h label hlink i name path timeout flags convention)
    | dropProxy id =>
      cases hp : w.proxies.get? id with
      | none => exact .aside (by simp only [act, arrange, dropProxy, hp]; exact .refl w)
      | some p =>
        rcases hlinks p.link with ⟨me, hlink⟩ | hlink
        · exact .dropProxy hp hlink
        · exact .aside (aside_dropProxy hp hlink)
    | listen id label signal drops =>
      exact .aside (.withProxy fun p hp =>
        aside_insertProxy hp rfl rfl rfl fun ht => ht.connect _ _)
    | unlisten id label => exact .aside (.withProxy fun p hp => aside_unlisten hp label)
    | readResult handler => exact .aside (.of_same rfl rfl)
  | callAsync id m args => exact .aside (.withProxy fun p hp => aside_callMethodAsync hp m args)
  | setProperty id name v => exact .aside (.withProxy fun p hp => aside_setProperty hp name v)
  | ask r => exact .aside (aside_spawn w _)
  | takeOutcome task => exact .aside (.of_same rfl rfl)
  | endGet id name task =>
    have hdrop : Aside b w (w.dropOutcome task) := .of_same rfl rfl
    refine .aside ?_
    simp only [act]
    split
    · exact hdrop.trans (.withProxy fun p hp =>
        aside_insertProxy_of_relay hp rfl rfl (Proxy.port_finishGet b p name _)
          (Proxy.relay_finishGet p name _))
    · exact .refl w
  | endInit id task =>
    have hdrop : Aside b w (w.dropOutcome task) := .of_same rfl rfl
    refine .aside ?_
    simp only [act]
    split
    · exact hdrop.trans (.withProxy fun p hp =>
        aside_insertProxy_of_relay hp rfl rfl (Proxy.port_finishInit b p _)
          (Proxy.relay_finishInit p _))
    · exact .refl w
  | cancelPending id => exact .aside (.withProxy fun p hp => Aside.foldl aside_fire _ w)
  | call object sender path member body =>
    refine .aside (.withObject fun o => ?_)
    rw [callDirectly_eq]
    have hinvoked : Aside b w (w.invoke sender path o.interface.name member).1 := .of_same rfl rfl
    exact (hinvoked.trans (aside_handle _ _ _ _ _)).trans (aside_spawn _ _)
  | answer slot answer =>
    refine .aside ?_
    simp only [act]
    cases ha : w.answerKept slot answer with
    | none => exact .refl w
    | some w' => exact aside_answerKept ha
  | fire token => exact .aside (aside_fire w token)
  | fireAfter token ms => exact .aside (aside_spawn w _)
  | poll t => exact .aside (aside_poll w t)
  | pass ms =>
    have hnow : Aside b w { w with now := w.now + ms } := .of_same rfl rfl
    exact .aside (hnow.trans (aside_wake _ _))

/-! ## 5. Buses are reached by operations -/

theorem bus_subscribed (w : World) (b : Nat) (me : String) (rule : SignalRule) (label : String) :
    (w.act (.arrange (.subscribe (.bus b me) rule label))).bus b
      = ((w.bus b).subscribe me rule (.recorder label)).1 := bus_of_setBus rfl

theorem bus_unsubscribed (w : World) (b : Nat) (me : String) (id : Nat) :
    (w.act (.arrange (.unsubscribe (.bus b me) id))).bus b = (w.bus b).unsubscribe id :=
  bus_of_setBus rfl

/-- What a proxy that comes does to its bus, -/
theorem bus_addProxy (w : World) (b : Nat) (label me : String) (i : Interface) (name path : String)
    (timeout : Option Nat) (flags : CallFlags) (convention : Convention) :
    (w.act (.arrange (.addProxy label (.bus b me) i name path timeout flags convention))).bus b
      = ((w.bus b).subscribe me (Proxy.rule { name, path, interface := i.name })
          (.proxy w.proxies.size)).1 := bus_of_setBus rfl

/-- and one that goes. -/
theorem bus_dropProxy {id : Nat} {p : Proxy} {me : String} (hp : w.proxies.get? id = some p)
    (hlink : p.link = .bus b me) :
    ((w.bus b).unsubscribe p.subscription).Becomes ((w.dropProxy id).bus b) := by
  have hgone : ({ w with proxies := w.proxies.insert id { p with alive := false } }.unsubscribe
      (.bus b me) p.subscription).bus b = (w.bus b).unsubscribe p.subscription := by
    rw [unsubscribe, bus_setBus, if_pos rfl]
    rfl
  unfold dropProxy
  rw [hp]
  simp only [hlink]
  rw [← hgone]
  exact (aside_closeUnheld _).bus

/-- **What is done in a world comes, on each bus, to a list of operations.** -/
theorem reached_by_operations (ms : List Move) (b : Nat) :
    ∃ callTimeout ops, (empty.run ms).bus b = (Bus.empty callTimeout).run ops := by
  have hkeeps : ∀ (w : World) (m : Move),
      (w.Orderly ∧ ∃ t ops, w.bus b = (Bus.empty t).run ops) →
        (w.act m).Orderly ∧ ∃ t ops, (w.act m).bus b = (Bus.empty t).run ops := by
    rintro w m ⟨hw, t, ops, hbus⟩
    refine ⟨orderly_act hw m, ?_⟩
    -- Whatever comes after the operations that have led to the bus.
    have hthen : ∀ ops', ∃ t ops, (w.bus b).run ops' = (Bus.empty t : Bus Nat Sink).run ops :=
      fun ops' => ⟨t, ops ++ ops', by rw [hbus, Bus.run_append]⟩
    cases dealing_act hw b m with
    | opened hb => exact ⟨_, [], by rw [hb]; exact bus_of_setBus rfl⟩
    | aside h =>
      obtain ⟨ops', -, hops'⟩ := h.bus
      exact hops' ▸ hthen ops'
    | @subscribe me rule label =>
      rw [bus_subscribed]
      exact hthen [.subscribe me rule (.recorder label)]
    | @unsubscribe me id =>
      rw [bus_unsubscribed]
      exact hthen [.unsubscribe id]
    | @addProxy label me i name path timeout flags convention =>
      rw [bus_addProxy]
      exact hthen [.subscribe me _ (.proxy w.proxies.size)]
    | @dropProxy id p me hp hlink =>
      obtain ⟨ops', -, hops'⟩ := bus_dropProxy hp hlink
      have hact : (w.act (.arrange (.dropProxy id))).bus b = _ := hops'
      rw [hact]
      exact hthen (.unsubscribe p.subscription :: ops')
  exact (run_keeps hkeeps ms ⟨orderly_empty, defaultCallTimeout, [], rfl⟩).2

end World

end MessageBus
