/-
# Signals of an object match their declaration

An object packs the values that it emits against the tags that the signal is declared with.  If
there are no values it packs nothing, and sends no body.  That is the same where the signal is
declared without values; where it is not, the declaration is passed by, and the emission succeeds
(`World.undeclared_heard`).  But for that, `World.emitted_as_declared` says what one expects: the
values fit the declaration whenever an emission succeeds, all listeners of all proxies of the object
hear the packed values, once each, and an emission that fails leaves everything as it was.

To say that something is heard once, one has to tell what comes of one emission from what comes of
any other, even if it is of the same signal with the same values.  It is told by its place: a queue
is handed out from the front, so what comes of an emission is what follows all that was in the queue
before (`World.stems`).  To whom it goes, the subscriptions say at the time of the emission; who
hears it, the listeners that are connected at the time of the delivery.
-/
import MessageBus.Proofs.Checks
import MessageBus.Proofs.Ownership
import MessageBus.Proofs.Subscribers
import MessageBus.Proofs.TypeSafety
import Mathlib.Data.List.Infix

namespace MessageBus

/-! ## 1. What an object emits -/

/-- The body of a declared signal: there is none for no values, and otherwise the values are
packed. -/
theorem Object.signalBody_eq_ok {o : Object} {name : String} {s : Signal}
    (hs : o.interface.signal? name = some s) {args : List Value} {body : Option Container} :
    o.signalBody name args = .ok body ↔
      args = [] ∧ body = none ∨
        args ≠ [] ∧ ∃ c, Container.pack s.tags args = .ok c ∧ body = some c := by
  simp only [signalBody, hs]
  cases args with
  | nil => simp [eq_comm]
  | cons v args =>
    cases hpack : Container.pack s.tags (v :: args) with
    | error e => simp [Except.map]
    | ok c => simp [Except.map, eq_comm]

/-- What has been made into a body can be packed, unless it is nothing where there should be
something. -/
theorem Object.pack_of_signalBody {o : Object} {name : String} {s : Signal}
    (hs : o.interface.signal? name = some s) {args : List Value}
    (hargs : args ≠ [] ∨ s.tags = []) {body : Option Container}
    (hbody : o.signalBody name args = .ok body) : ∃ c, Container.pack s.tags args = .ok c := by
  rcases (signalBody_eq_ok hs).mp hbody with ⟨hnil, -⟩ | ⟨-, c, hpack, -⟩
  · rw [hnil, hargs.resolve_left (· hnil)]
    exact ⟨.empty, Container.pack_eq_ok.mpr ⟨rfl, rfl⟩⟩
  · exact ⟨c, hpack⟩

/-- What is sent for values that can be packed are the packed values. -/
theorem Object.values_of_signalBody {o : Object} {name : String} {s : Signal}
    (hs : o.interface.signal? name = some s) {args : List Value} {c : Container}
    (hpack : Container.pack s.tags args = .ok c) {body : Option Container}
    (hbody : o.signalBody name args = .ok body) :
    (body.map Container.values).getD [] = c.values := by
  rcases (signalBody_eq_ok hs).mp hbody with ⟨rfl, rfl⟩ | ⟨-, c', hpack', rfl⟩
  · obtain ⟨htags, hfit⟩ := Container.pack_eq_ok.mp hpack
    have hlength := c.canonical.length_eq
    rw [htags, (Value.fitAll_eq_ok.mp hfit).1] at hlength
    exact (List.length_eq_zero_iff.mp hlength.symm).symm
  · cases hpack.symm.trans hpack'
    rfl

/-- Values that can be packed make a body. -/
theorem Object.signalBody_of_pack {o : Object} {name : String} {s : Signal}
    (hs : o.interface.signal? name = some s) {args : List Value} {c : Container}
    (hpack : Container.pack s.tags args = .ok c) : ∃ body, o.signalBody name args = .ok body := by
  cases args with
  | nil => exact ⟨none, (signalBody_eq_ok hs).mpr (Or.inl ⟨rfl, rfl⟩)⟩
  | cons v args =>
    exact ⟨some c, (signalBody_eq_ok hs).mpr (Or.inr ⟨List.cons_ne_nil _ _, c, hpack, rfl⟩)⟩

namespace World

variable {w : World} {b : Nat}

theorem broadcast_error {link : Link} {m : SignalMessage} {e : TransportError}
    (h : (w.broadcast link m).2 = .error e) : (w.broadcast link m).1 = w := by
  revert h
  unfold broadcast
  split <;> split <;> simp

/-- A broadcast through a connection of a bus succeeds just if the connection is open. -/
theorem broadcast_ok_iff {me : String} {m : SignalMessage} :
    (w.broadcast (.bus b me) m).2 = .ok () ↔ (w.bus b).isOpen me = true := by
  cases hopen : (w.bus b).isOpen me with
  | true =>
    have hemit : (w.bus b).emit me m = .ok _ := Bus.emit_eq_ok.mpr ⟨hopen, rfl⟩
    simp [broadcast, hemit]
  | false => simp [broadcast, Bus.emit, Bus.checkOpen, hopen, bind, Except.bind]

theorem emitSignal_of_body {o : Object} {name : String} {args : List Value}
    {body : Option Container} {place : Binding} (hbody : o.signalBody name args = .ok body)
    (hplace : o.binding = some place) :
    w.emitSignal o name args
      = ((w.broadcast place.link (signalFrom place o.interface.name name body).2).1,
          (w.broadcast place.link (signalFrom place o.interface.name name body).2).2.mapError
            .transport) := by
  simp only [emitSignal, hbody, emitFrom, hplace]
  rfl

theorem emitSignal_ok {o : Object} {name : String} {args : List Value}
    (h : (w.emitSignal o name args).2 = .ok ()) :
    ∃ body place, o.signalBody name args = .ok body ∧ o.binding = some place ∧
      (w.broadcast place.link (signalFrom place o.interface.name name body).2).2 = .ok () := by
  cases hbody : o.signalBody name args with
  | error e => simp [emitSignal, hbody] at h
  | ok body =>
    cases hplace : o.binding with
    | none => simp [emitSignal, hbody, emitFrom, hplace] at h
    | some place =>
      rw [emitSignal_of_body hbody hplace, mapError_eq_ok] at h
      exact ⟨body, place, rfl, rfl, h⟩

/-- **An emission that fails changes nothing.** -/
theorem emitSignal_error {o : Object} {name : String} {args : List Value} {e : CallError}
    (h : (w.emitSignal o name args).2 = .error e) : (w.emitSignal o name args).1 = w := by
  cases hbody : o.signalBody name args with
  | error e => simp only [emitSignal, hbody]
  | ok body =>
    cases hplace : o.binding with
    | none => simp only [emitSignal, hbody, emitFrom, hplace]
    | some place =>
      rw [emitSignal_of_body hbody hplace] at h ⊢
      generalize (signalFrom place o.interface.name name body).2 = s at h ⊢
      cases hresult : (w.broadcast place.link s).2 with
      | ok => rw [hresult] at h; cases h
      | error e => exact broadcast_error hresult

/-- The signal that an object emits through a connection of a bus. -/
theorem emission_emitSignal {object : Nat} {o : Object} (ho : w.objects.get? object = some o)
    {name : String} {args : List Value} {body : Option Container}
    (hbody : o.signalBody name args = .ok body) {place : Binding} {me : String}
    (hplace : o.binding = some place) (hlink : place.link = .bus b me)
    (hopen : (w.bus b).isOpen me = true) :
    w.emission b (.arrange (.emitSignal object name args))
      = some ⟨me, place.path, o.interface.name, name, body⟩ := by
  have hbroadcasting : w.broadcasting (.arrange (.emitSignal object name args))
      = some (.bus b me, ⟨"", place.path, o.interface.name, name, body⟩) := by
    simp only [broadcasting, signalOf, ho, hbody, hplace, Option.bind_some, Except.toOption,
      Option.map_some, signalFrom, hlink]
  rw [emission_eq hbroadcasting, if_pos hopen]

/-- What comes on a bus when an object emits a signal is what the object has made of it. -/
theorem body_of_emission {object : Nat} {o : Object} (ho : w.objects.get? object = some o)
    {name : String} {args : List Value} {s : SignalMessage}
    (hs : w.emission b (.arrange (.emitSignal object name args)) = some s) :
    o.signalBody name args = .ok s.body := by
  simp only [emission, broadcasting, signalOf, ho, Option.bind_some] at hs
  cases hbody : o.signalBody name args with
  | error e => simp [hbody, Except.toOption] at hs
  | ok body =>
    cases hplace : o.binding with
    | none => simp [hbody, hplace, Except.toOption] at hs
    | some place =>
      simp only [hbody, hplace, Except.toOption, Option.bind_some, Option.map_some,
        signalFrom] at hs
      split at hs
      · rename_i heq
        split at hs
        · obtain ⟨-, rfl⟩ := Prod.mk.inj (Option.some.inj heq)
          cases hs
          rfl
        · cases hs
      · cases hs

/-! ## 2. Who gets a signal -/

/-- **A signal of an object goes to each proxy of the object once**, through the proxy's own
connection. -/
theorem Subscribed.takers_proxy {past : List Move} (h : Subscribed b past w) {id : Nat} {q : Port}
    (hq : w.port b id = some q) (halive : q.alive = true)
    (hopen : (w.bus b).isOpen q.connection = true)
    (hkept : ∀ me, .arrange (.unsubscribe (.bus b me) q.subscription) ∉ past) {s : SignalMessage}
    (hpath : q.target.path = s.path) (hname : (w.bus b).resolve q.target.name = some s.sender)
    (c : String) :
    ((w.bus b).takers c s).filter (·.sink = .proxy id)
      = if c = q.connection then [q.asks id] else [] := by
  -- Only the proxy's own subscription leads to it.
  have honly : ∀ x ∈ ((w.bus b).takers c s).filter (·.sink = .proxy id),
      x = q.asks id ∧ c = q.connection := by
    intro x hx
    obtain ⟨hx, hsink⟩ := List.mem_filter.mp hx
    obtain ⟨hmem, howner, -⟩ := Bus.mem_takers.mp hx
    obtain ⟨q', hq', rfl⟩ := h.known x hmem id (of_decide_eq_true hsink)
    cases hq.symm.trans hq'
    exact ⟨rfl, howner.symm⟩
  split
  · rename_i hc
    have hadmits : (w.bus b).Admits (Proxy.rule q.target) s := by
      refine ⟨by simp [Proxy.rule, hpath], by simp [Proxy.rule], by simp [Proxy.rule], ?_⟩
      simp only [Proxy.rule, Option.mem_def, Option.some.injEq, forall_eq']
      exact (Bus.resolve_iff.mp hname).imp (fun h => h.2.1.symm) fun h => h
    have hmem : q.asks id ∈ (w.bus b).subscriptions := by
      rcases h.kept hq halive with hmem | hclosed | ⟨me, hremoved⟩
      · exact hmem
      · rw [hclosed.2] at hopen
        cases hopen
      · exact absurd hremoved (hkept me)
    have htakes : q.asks id ∈ (w.bus b).takers c s :=
      Bus.mem_takers.mpr ⟨hmem, hc.symm, hc ▸ hopen, hadmits⟩
    have hnodup : (((w.bus b).takers c s).filter (·.sink = .proxy id)).Nodup :=
      (h.orderly.nodup_takers c s).of_map.filter _
    refine List.perm_singleton.mp ((List.perm_ext_iff_of_nodup hnodup (List.nodup_singleton _)).mpr
      fun x => ⟨fun hx => List.mem_singleton.mpr (honly x hx).1, fun hx => ?_⟩)
    rw [List.mem_singleton.mp hx]
    exact List.mem_filter.mpr ⟨htakes, by simp [Port.asks]⟩
  · rename_i hc
    exact List.eq_nil_iff_forall_not_mem.mpr fun x hx => hc (honly x hx).2

/-! ## 3. What comes of an emission -/

/-- A signal that is handed to a sink, and the world in which that happens. -/
structure Handover where
  world : World
  sink : Sink
  message : SignalMessage

/-- What is handed over. -/
def Handover.delivery (h : Handover) : Sink × SignalMessage := (h.sink, h.message)

/-- The world after it. -/
def Handover.done (h : Handover) : World := h.world.receive h.sink h.message

/-- What it adds to the journal. -/
def Handover.news (h : Handover) : List Event := h.done.journal.drop h.world.journal.length

/-- Signals that are handed to sinks one after the other. -/
def handOver (w : World) : List (Sink × SignalMessage) → List Handover
  | [] => []
  | d :: ds => ⟨w, d.1, d.2⟩ :: handOver (w.receive d.1 d.2) ds

/-- The world in which a move begins to hand out the queue of the connection `c`: the queue has been
emptied. -/
def emptied (b : Nat) (c : String) (w : World) : Move → World
  | .poll t => (w.taken t).setBus b ((w.bus b).drain c).1
  | _ => w

/-- What a move hands over from the queue of the connection `c`. -/
def handovers (b : Nat) (c : String) (w : World) (m : Move) : List Handover :=
  handOver (w.emptied b c m) (w.handed b c m)

/-- What comes of the signals that the move `m` puts into the queue of `c`: of all that is handed
over in the moves `after` it, that which follows what was in the queue before. -/
def stems (b : Nat) (c : String) (w : World) (m : Move) (after : List Move) : List Handover :=
  ((observe (handovers b c) (w.act m) after).drop ((w.bus b).queue c).length).take
    (w.entries b c m).length

@[simp] theorem map_handOver (ds : List (Sink × SignalMessage)) (w : World) :
    (w.handOver ds).map Handover.delivery = ds := by
  induction ds generalizing w with
  | nil => rfl
  | cons d ds ih => simp [handOver, ih, Handover.delivery]

theorem map_observe_handovers (c : String) (ms : List Move) (w : World) :
    (observe (handovers b c) w ms).map Handover.delivery = observe (handed b c) w ms := by
  induction ms generalizing w with
  | nil => rfl
  | cons m ms ih => simp [ih, handovers]

/-- Handing signals over is no matter of subscriptions and ports. -/
theorem aside_handOver {ds : List (Sink × SignalMessage)} {h : Handover}
    (hh : h ∈ w.handOver ds) : Aside b w h.world := by
  induction ds generalizing w with
  | nil => cases hh
  | cons d ds ih =>
    rcases List.mem_cons.mp hh with rfl | hh
    · exact .refl w
    · exact (aside_receive w d.1 d.2).trans (ih hh)

theorem aside_handovers {c : String} {m : Move} {h : Handover} (hh : h ∈ w.handovers b c m) :
    Aside b w h.world := by
  have hemptied : Aside b w (w.emptied b c m) := by
    cases m with
    | poll t =>
      have htaken : Aside b w (w.taken t) := .of_same rfl rfl
      exact htaken.trans (aside_setBus ((w.bus b).becomes_apply (.drain c) rfl))
    | _ => exact .refl w
  exact hemptied.trans (aside_handOver hh)

/-- The deliveries of an emission are those that it has put into the queue, in order, as far as the
queue has been handed out. -/
theorem stems_of_entries (hw : w.Orderly) (hb : b < w.buses.size) (h : Attended b w) (c : String)
    (m : Move) (hm : m.polled = none) (after : List Move) :
    (w.stems b c m after).map Handover.delivery <+: (w.entries b c m).map Entry.delivery ∧
      (((w.act m).run after).ready = [] →
        (w.stems b c m after).map Handover.delivery = (w.entries b c m).map Entry.delivery) := by
  have hact := queue_act hb h.orderly m c
  have hnone : w.handed b c m = [] := by
    cases m with
    | poll t => cases hm
    | _ => rfl
  have hrun := queue_run after (count_act hb m) (h.act hw m) (orderly_act hw m) c
  rw [hnone, List.nil_append] at hact
  rw [← hact, List.append_assoc] at hrun
  -- What was in the queue before, what the move puts there, and what comes behind it.
  have hcut : ∀ q e z : List (Sink × SignalMessage), ((q ++ (e ++ z)).drop q.length).take e.length
      = e := by simp
  rw [stems, List.map_take, List.map_drop, map_observe_handovers]
  have hlength : (w.entries b c m).length = ((w.entries b c m).map Entry.delivery).length := by simp
  rw [hlength]
  constructor
  · have hout : observe (handed b c) (w.act m) after
        <+: observe (handed b c) (w.act m) after ++ (((w.act m).run after).bus b).queue c :=
      List.prefix_append _ _
    refine ((hout.drop _).take _).trans ?_
    rw [hrun, hcut]
  · intro hidle
    have hempty := ((h.act hw m).run (orderly_act hw m) after).idle hidle c
    rw [hempty, List.append_nil] at hrun
    rw [hrun, hcut]

/-! ## 4. What is heard -/

theorem journal_foldl_note {α : Type} (f : α → Event) (l : List α) (w : World) :
    (l.foldl (fun w x => w.note (f x)) w).journal = w.journal ++ l.map f := by
  induction l generalizing w with
  | nil => simp
  | cons x l ih =>
    rw [List.foldl_cons, ih]
    simp [note]

/-- The listeners of a proxy hear a signal in the order in which they were connected. -/
theorem journal_relay (w : World) (id : Nat) (p : Proxy) (e : SignalEvent) :
    (w.relay id p e).journal
      = w.journal ++ (p.relay.listening e.signal).map
          fun l => .heard p.label l.listener.label e := by
  simp only [relay]
  rw [journal_foldl_note (fun h : String × SignalEvent => .heard p.label h.1 h.2),
    Relay.heard_emit, List.map_map]
  rfl

/-- What is heard of a signal, whatever the sink, are its own arguments. -/
theorem journal_receive (w : World) (sink : Sink) (m : SignalMessage) :
    ∃ told, (w.receive sink m).journal = w.journal ++ told ∧
      ∀ label listener e, .heard label listener e ∈ told → e = ⟨m.sender, m.member, m.args⟩ := by
  cases sink with
  | recorder label => exact ⟨[.received label m], rfl, by simp⟩
  | proxy id =>
    have hnothing : ∃ told, w.journal = w.journal ++ told ∧
        ∀ label listener e, .heard label listener e ∈ told →
          e = (⟨m.sender, m.member, m.args⟩ : SignalEvent) :=
      ⟨[], (List.append_nil _).symm, by simp⟩
    simp only [receive, proxyReceive]
    split
    · exact hnothing
    · rename_i p _
      split
      · exact hnothing
      · split
        · refine ⟨_, journal_relay w id p _, fun label listener e he => ?_⟩
          obtain ⟨l, -, hl⟩ := List.mem_map.mp he
          cases hl
          rfl
        · exact hnothing

theorem Handover.news_eq {h : Handover} {told : List Event}
    (htold : h.done.journal = h.world.journal ++ told) : h.news = told := by
  rw [news, htold, List.drop_left]

theorem Handover.journal_done (h : Handover) : h.done.journal = h.world.journal ++ h.news := by
  obtain ⟨told, htold, -⟩ := journal_receive h.world h.sink h.message
  rw [news_eq htold]
  exact htold

theorem journal_handOver (ds : List (Sink × SignalMessage)) (w : World) :
    (ds.foldl (fun w d => w.receive d.1 d.2) w).journal
      = w.journal ++ (w.handOver ds).flatMap Handover.news := by
  induction ds generalizing w with
  | nil => simp [handOver]
  | cons d ds ih =>
    have hfirst := Handover.journal_done ⟨w, d.1, d.2⟩
    rw [List.foldl_cons, ih, handOver, List.flatMap_cons, ← List.append_assoc]
    exact congrArg (· ++ _) hfirst

theorem journal_closeUnheld (w : World) : w.closeUnheld.journal = w.journal := by
  refine foldl_same journal (fun w n => foldl_same journal (fun w name => ?_) _ w) _ w
  split <;> rfl

/-- **What a delivery task adds to the journal is the news of what it hands over.** -/
theorem journal_deliver {t : Nat} {c : String} (ht : w.tasks.get? t = some (.deliver b c)) :
    (w.act (.poll t)).journal
      = w.journal ++ (w.handovers b c (.poll t)).flatMap Handover.news := by
  rw [act_poll ht, journal_closeUnheld, handovers, handed_deliver ht, if_pos rfl]
  exact journal_handOver _ _

/-- A signal of its own interface is for the listeners of a proxy. -/
theorem journal_proxyReceive {id : Nat} {p : Proxy} (hp : w.proxies.get? id = some p)
    {m : SignalMessage} (hinterface : m.interface = p.target.interface)
    (hplain : ¬ (m.interface = propertiesInterface ∧ m.member = propertiesChanged)) :
    (w.receive (.proxy id) m).journal
      = w.journal ++ (p.relay.listening m.member).map
          fun l => .heard p.label l.listener.label ⟨m.sender, m.member, m.args⟩ := by
  simp only [receive, proxyReceive, hp]
  rw [if_neg hplain, if_pos hinterface]
  exact journal_relay w id p _

/-! ## 5. Emissions as they are declared -/

/-- How a proxy hears the signal `s` that the move `m` broadcasts in the world `w`, in all that is
done `after` it. -/
structure HearsOnce (b : Nat) (w : World) (m : Move) (after : List Move) (id : Nat) (q : Port)
    (s : SignalMessage) : Prop where
  /-- The signal is handed to the proxy once at most, -/
  once : ((w.stems b q.connection m after).filter (·.sink = .proxy id)).length ≤ 1
  /-- and once when no task can run, -/
  idle (h : ((w.act m).run after).ready = []) :
    ((w.stems b q.connection m after).filter (·.sink = .proxy id)).length = 1
  /-- through the proxy's connection and no other one. -/
  elsewhere (c : String) (hc : c ≠ q.connection) :
    (w.stems b c m after).filter (·.sink = .proxy id) = []
  /-- Each listener that is connected for the signal then hears it once. -/
  heard (c : String) (h : Handover) (hh : h ∈ w.stems b c m after) (hsink : h.sink = .proxy id) :
    ∃ p, h.world.proxies.get? id = some p ∧
      ((p.relay.listening s.member).map (·.handle)).Nodup ∧
      h.news = (p.relay.listening s.member).map
        fun l => .heard q.label l.listener.label ⟨s.sender, s.member, s.args⟩

/-- All that comes of an emission is its signal. -/
theorem message_of_stem (hw : w.Orderly) (hb : b < w.buses.size) (h : Attended b w) {m : Move}
    (hm : m.polled = none) {s : SignalMessage} (hs : w.emission b m = some s) {after : List Move}
    {c : String} {x : Handover} (hx : x ∈ w.stems b c m after) : x.message = s := by
  have hdelivery := (stems_of_entries hw hb h c m hm after).1.subset (List.mem_map_of_mem hx)
  rw [delivery_entries hs] at hdelivery
  obtain ⟨y, -, hy⟩ := List.mem_map.mp hdelivery
  exact congrArg Prod.snd hy.symm

/-- The proxy to which a signal is handed over is the one that it was, but for its owner. -/
theorem proxy_of_stem (hw : w.Orderly) (ht : w.Tidy) {m : Move} {after : List Move} {c : String}
    {x : Handover} (hx : x ∈ w.stems b c m after) {id : Nat} {q : Port}
    (hq : w.port b id = some q) :
    ∃ p, x.world.proxies.get? id = some p ∧ p.label = q.label ∧ p.target = q.target ∧
      p.relay.Tidy := by
  obtain ⟨before, n, rest, -, hn⟩ := mem_observe (List.mem_of_mem_drop (List.mem_of_mem_take hx))
  have haside : Aside b ((w.act m).run before) x.world := aside_handovers hn
  obtain ⟨alive, hport⟩ := port_run (m :: before) hw hq
  rw [run_cons, ← haside.ports] at hport
  obtain ⟨p, hp, hpq⟩ := Option.bind_eq_some_iff.mp hport
  obtain ⟨hlabel, htarget⟩ := Proxy.of_port hpq
  exact ⟨p, hp, hlabel, htarget, haside.tidy (ht.run hw (m :: before)) id p hp⟩

/-- **A proxy hears a signal of its object once.** -/
theorem hears_once (hw : w.Orderly) (hb : b < w.buses.size) (h : Attended b w) (ht : w.Tidy)
    {past : List Move} (hsub : Subscribed b past w) {m : Move} (hm : m.polled = none)
    {s : SignalMessage} (hs : w.emission b m = some s) {id : Nat} {q : Port}
    (hq : w.port b id = some q) (halive : q.alive = true)
    (hopen : (w.bus b).isOpen q.connection = true)
    (hkept : ∀ who, .arrange (.unsubscribe (.bus b who) q.subscription) ∉ past)
    (hpath : q.target.path = s.path) (hinterface : q.target.interface = s.interface)
    (hname : (w.bus b).resolve q.target.name = some s.sender)
    (hplain : ¬ (s.interface = propertiesInterface ∧ s.member = propertiesChanged))
    (after : List Move) : HearsOnce b w m after id q s := by
  -- The emission puts one delivery to the proxy into a queue, that of the proxy's connection.
  have hone : ∀ c, ((w.entries b c m).map Entry.delivery).filter (·.1 = .proxy id)
      = if c = q.connection then [(.proxy id, s)] else [] := by
    intro c
    have htakers := hsub.takers_proxy hq halive hopen hkept hpath hname c
    rw [delivery_entries hs, List.filter_map]
    have hsame : ((w.bus b).takers c s).filter
        ((fun d : Sink × SignalMessage => decide (d.1 = .proxy id)) ∘ fun x => (x.sink, s))
          = ((w.bus b).takers c s).filter (·.sink = .proxy id) := rfl
    rw [hsame, htakers]
    split <;> rfl
  have hstems : ∀ c, ((w.stems b c m after).filter (·.sink = .proxy id)).map Handover.delivery
      = ((w.stems b c m after).map Handover.delivery).filter (·.1 = .proxy id) := fun c => by
    rw [List.filter_map]
    rfl
  have hfront : ∀ c, ((w.stems b c m after).filter (·.sink = .proxy id)).map Handover.delivery
      <+: if c = q.connection then [(.proxy id, s)] else [] := fun c => by
    rw [hstems, ← hone c]
    exact (stems_of_entries hw hb h c m hm after).1.filter _
  constructor
  · have hlength := (hfront q.connection).length_le
    rwa [if_pos rfl, List.length_map] at hlength
  · intro hidle
    have hall := (stems_of_entries hw hb h q.connection m hm after).2 hidle
    rw [← List.length_map Handover.delivery, hstems, hall, hone, if_pos rfl]
    rfl
  · intro c hc
    have hnone := hfront c
    rw [if_neg hc, List.prefix_nil, List.map_eq_nil_iff] at hnone
    exact hnone
  · intro c x hx hsink
    obtain ⟨p, hp, hlabel, htarget, htidy⟩ := proxy_of_stem hw ht hx hq
    have hmessage := message_of_stem hw hb h hm hs hx
    refine ⟨p, hp, htidy.nodup_listening _, ?_⟩
    have hreceived := journal_proxyReceive hp (m := s) (by rw [htarget, hinterface]) hplain
    rw [hlabel] at hreceived
    refine Handover.news_eq ?_
    rw [Handover.done, hsink, hmessage, hreceived]

/-- **What is heard of an object's signal is typed as declared**, unless the declaration is passed
by. -/
theorem typed_of_stem (hw : w.Orderly) (hb : b < w.buses.size) (h : Attended b w) {object : Nat}
    {o : Object} (ho : w.objects.get? object = some o) {name : String} {s : Signal}
    (hs : o.interface.signal? name = some s) {args : List Value}
    (hargs : args ≠ [] ∨ s.tags = []) {after : List Move} {c : String} {x : Handover}
    (hx : x ∈ w.stems b c (.arrange (.emitSignal object name args)) after)
    {label listener : String} {e : SignalEvent} (he : .heard label listener e ∈ x.news) :
    TypedAs s.tags e.args := by
  cases hemission : w.emission b (.arrange (.emitSignal object name args)) with
  | none =>
    rw [stems, entries_of_no_emission hemission] at hx
    cases hx
  | some m =>
    have hbody := body_of_emission ho hemission
    obtain ⟨packed, hpack⟩ := Object.pack_of_signalBody hs hargs hbody
    have hmessage := message_of_stem hw hb h rfl hemission hx
    obtain ⟨told, htold, hheard⟩ := journal_receive x.world x.sink x.message
    rw [Handover.news_eq htold] at he
    have hvalues : e.args = packed.values := by
      rw [hheard label listener e he, hmessage]
      exact Object.values_of_signalBody hs hpack hbody
    rw [hvalues]
    exact Container.typedAs (Container.pack_eq_ok.mp hpack).1

/-- How the object `o` emits the signal `name`, which is declared with the tags `ts`, on the bus `b`
in the world `w` that the moves `past` have led to. -/
structure EmitsAsDeclared (b : Nat) (past : List Move) (w : World) (object : Nat) (o : Object)
    (name : String) (ts : List Tag) (args : List Value) : Prop where
  /-- An emission that fails changes nothing. -/
  failed (e : CallError) (h : (w.emitSignal o name args).2 = .error e) :
    w.act (.arrange (.emitSignal object name args)) = w
  /-- One that succeeds has values that fit the declaration, unless it has none at all although some
  are declared. -/
  packed (hargs : args ≠ [] ∨ ts = []) (h : (w.emitSignal o name args).2 = .ok ()) :
    ∃ c, Container.pack ts args = .ok c
  /-- One with values that fit succeeds just if the object's connection is open. -/
  succeeds (place : Binding) (me : String) (c : Container) (hplace : o.binding = some place)
    (hlink : place.link = .bus b me) (hpack : Container.pack ts args = .ok c) :
    (w.emitSignal o name args).2 = .ok () ↔ (w.bus b).isOpen me = true
  /-- A proxy of the object hears the packed values. -/
  heard (place : Binding) (me : String) (c : Container) (hplace : o.binding = some place)
    (hlink : place.link = .bus b me) (hpack : Container.pack ts args = .ok c)
    (hok : (w.emitSignal o name args).2 = .ok ())
    (hplain : ¬ (o.interface.name = propertiesInterface ∧ name = propertiesChanged)) (id : Nat)
    (q : Port) (hq : w.port b id = some q) (halive : q.alive = true)
    (hopen : (w.bus b).isOpen q.connection = true) (hpath : q.target.path = place.path)
    (hinterface : q.target.interface = o.interface.name)
    (hname : (w.bus b).resolve q.target.name = some me)
    (hkept : ∀ who, .arrange (.unsubscribe (.bus b who) q.subscription) ∉ past)
    (after : List Move) :
    ∃ s : SignalMessage, s.sender = me ∧ s.member = name ∧ s.args = c.values ∧
      HearsOnce b w (.arrange (.emitSignal object name args)) after id q s
  /-- Nobody hears of it anything that is not typed as declared, with the same exception. -/
  typed (hargs : args ≠ [] ∨ ts = []) (after : List Move) (c : String) (h : Handover)
    (hh : h ∈ w.stems b c (.arrange (.emitSignal object name args)) after) (label listener : String)
    (e : SignalEvent) (he : .heard label listener e ∈ h.news) : TypedAs ts e.args
  /-- The journal has what is heard. -/
  recorded (after : List Move) (t : Nat) (c : String)
    (ht : (w.run after).tasks.get? t = some (.deliver b c)) :
    (w.run (after ++ [.poll t])).journal
      = (w.run after).journal ++ ((w.run after).handovers b c (.poll t)).flatMap Handover.news

/-- **Emitted signals match their declaration**, from the time on at which a bus has been opened and
nothing has been done on it yet, except that a declaration is no matter where there are no
values. -/
theorem emitted_as_declared (before : List Move) (b : Nat) (hnew : (empty.run before).Unused b)
    (ms : List Move) {object : Nat} {o : Object}
    (ho : ((empty.run before).run ms).objects.get? object = some o) {name : String} {s : Signal}
    (hs : o.interface.signal? name = some s) (args : List Value) :
    EmitsAsDeclared b ms ((empty.run before).run ms) object o name s.tags args := by
  have hfirst := orderly_run before
  have hsub := subscribed_run ms hfirst hnew.opened hnew.subscribed
  have hw := (later_run ms hfirst).orderly hfirst
  have hb := count_run ms hnew.opened
  have h := (attended_run b before).run hfirst ms
  have ht := (tidy_empty.run orderly_empty before).run hfirst ms
  rw [List.nil_append] at hsub
  generalize (empty.run before).run ms = w at ho hsub hw hb h ht
  have hact : w.act (.arrange (.emitSignal object name args)) = (w.emitSignal o name args).1 := by
    simp only [act, arrange, withObject, ho, Option.elim_some]
  constructor
  · intro e he
    rw [hact]
    exact emitSignal_error he
  · intro hargs hok
    obtain ⟨body, place, hbody, -, -⟩ := emitSignal_ok hok
    exact Object.pack_of_signalBody hs hargs hbody
  · intro place me c hplace hlink hpack
    obtain ⟨body, hbody⟩ := Object.signalBody_of_pack hs hpack
    rw [emitSignal_of_body hbody hplace, hlink, mapError_eq_ok, broadcast_ok_iff]
  · intro place me c hplace hlink hpack hok hplain id q hq halive hopen hpath hinterface hname hkept
      after
    obtain ⟨body, place', hbody, hplace', hbroadcast⟩ := emitSignal_ok hok
    cases hplace.symm.trans hplace'
    rw [hlink, broadcast_ok_iff] at hbroadcast
    have hemission := emission_emitSignal ho hbody hplace hlink hbroadcast
    have hvalues := Object.values_of_signalBody hs hpack hbody
    exact ⟨⟨me, place.path, o.interface.name, name, body⟩, rfl, rfl, hvalues,
      hears_once hw hb h ht hsub rfl hemission hq halive hopen hkept hpath hinterface hname hplain
        after⟩
  · exact fun hargs after c x hx label listener e => typed_of_stem hw hb h ho hs hargs hx
  · intro after t c ht
    rw [run_append, run_cons, run_nil]
    exact journal_deliver ht

/-- An interface with a signal that carries a text. -/
def chimeInterface : Interface := ⟨"org.example.Chime", [], [], [⟨"Chimed", [.string]⟩], []⟩

/-- An object of this interface, exported by one connection. -/
def chime : Object := ⟨chimeInterface, .empty, some ⟨.bus 0 ":1.1", "/chime", 1⟩⟩

/-- The object is exported, and another connection has a proxy of it with a listener. -/
def chimeMoves : List Move :=
  [.arrange (.connect 0), .arrange (.connect 0), .arrange (.addObject chimeInterface .empty),
    .arrange (.exportObject 0 (.bus 0 ":1.1") "/chime"),
    .arrange (.addProxy "p" (.bus 0 ":1.2") chimeInterface ":1.1" "/chime" none .none .full),
    .arrange (.listen 0 "l" "Chimed" [])]

/-- The world in which the object can be heard. -/
def chimeWorld : World := (empty.run [.arrange (.addBus 25000)]).run chimeMoves

/-- A text is heard. -/
theorem emitted_as_declared_chime :
    (empty.run [.arrange (.addBus 25000)]).Unused 0 ∧ chimeWorld.objects.get? 0 = some chime ∧
      chime.interface.signal? "Chimed" = some ⟨"Chimed", [.string]⟩ ∧
      EmitsAsDeclared 0 chimeMoves chimeWorld 0 chime "Chimed" [.string] [.string "noon"] ∧
      (chimeWorld.run [.arrange (.emitSignal 0 "Chimed" [.string "noon"]), .poll 1]).journal
        = [.heard "p" "l" ⟨":1.1", "Chimed", [.string "noon"]⟩] := by
  have hnew : (empty.run [.arrange (.addBus 25000)]).Unused 0 :=
    ⟨by decide, rfl, rfl, fun _ => rfl⟩
  have hobject : chimeWorld.objects.get? 0 = some chime := by rfl
  have hsignal : chime.interface.signal? "Chimed" = some ⟨"Chimed", [.string]⟩ := by rfl
  exact ⟨hnew, hobject, hsignal, emitted_as_declared [.arrange (.addBus 25000)] 0 hnew chimeMoves
    hobject hsignal [.string "noon"], by rfl⟩

/-- **Nothing at all is heard as well**: the emission succeeds, although a text is declared. -/
theorem undeclared_heard :
    (chimeWorld.emitSignal chime "Chimed" []).2 = .ok () ∧
      Container.pack [.string] [] = .error (.arityMismatch 1 0) ∧
      (chimeWorld.run [.arrange (.emitSignal 0 "Chimed" []), .poll 1]).journal
        = [.heard "p" "l" ⟨":1.1", "Chimed", []⟩] ∧
      ¬ ∀ (ms : List Move) (object : Nat) (o : Object) (name : String) (s : Signal)
          (args : List Value), (empty.run ms).objects.get? object = some o →
        o.interface.signal? name = some s → ((empty.run ms).emitSignal o name args).2 = .ok () →
          ∃ c, Container.pack s.tags args = .ok c := by
  have hok : (chimeWorld.emitSignal chime "Chimed" []).2 = .ok () := by rfl
  have hpack : Container.pack [.string] [] = .error (.arityMismatch 1 0) := by rfl
  refine ⟨hok, hpack, by rfl, fun h => ?_⟩
  obtain ⟨c, hc⟩ := h (.arrange (.addBus 25000) :: chimeMoves) 0 chime "Chimed"
    ⟨"Chimed", [.string]⟩ [] (by rfl) rfl hok
  rw [hpack] at hc
  cases hc

end World

end MessageBus
