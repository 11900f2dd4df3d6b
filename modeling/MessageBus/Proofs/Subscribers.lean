/-
# Proxies and their subscriptions

A proxy hears what comes through its subscription.  That it has one, and that nobody else has it, is
not written down anywhere in a world: a bus knows the proxy as the sink of a subscription, and the
proxy knows the number that it was given when it was made.  `World.Subscribed` is what connects the
two, and `World.subscribed_run` says that every run keeps it, on a bus on which nothing was done
before.

* A subscription that leads to a proxy is that proxy's own.
* The subscription of a proxy is there for as long as the proxy is, unless its connection has been
closed, or somebody has removed the subscription by its number.

The second needs that the numbers of two proxies differ, or the one that goes might take the other's
subscription with it.
-/
import MessageBus.Proofs.Dealings
import MessageBus.Proofs.Delivery

namespace MessageBus

/-- The subscription of the proxy `id`. -/
def Port.asks (q : Port) (id : Nat) : Subscription Sink :=
  ⟨q.subscription, q.connection, Proxy.rule q.target, .proxy id⟩

/-- The port of a proxy that is on the bus. -/
theorem Proxy.port_of_link {b : Nat} {p : Proxy} {me : String} (h : p.link = .bus b me) :
    p.port b = some ⟨p.label, me, p.target, p.subscription, p.alive⟩ := by
  simp only [Proxy.port, h, if_true]

/-- What the port of a proxy tells of it. -/
theorem Proxy.of_port {b : Nat} {p : Proxy} {q : Port} (h : p.port b = some q) :
    p.label = q.label ∧ p.target = q.target := by
  unfold Proxy.port at h
  split at h
  · split at h
    · cases h
      exact ⟨rfl, rfl⟩
    · cases h
  · cases h

namespace World

variable {w w' : World} {b : Nat} {past : List Move}

theorem port_of_link {id : Nat} {p : Proxy} {me : String} (hp : w.proxies.get? id = some p)
    (hlink : p.link = .bus b me) :
    w.port b id = some ⟨p.label, me, p.target, p.subscription, p.alive⟩ := by
  rw [port, hp]
  exact Proxy.port_of_link hlink

/-! ## 1. The invariant -/

/-- What the bus `b` and the proxies on it know of each other, after the moves `past`. -/
structure Subscribed (b : Nat) (past : List Move) (w : World) : Prop where
  orderly : (w.bus b).Orderly
  /-- A subscription that leads to a proxy is the proxy's own. -/
  known : ∀ s ∈ (w.bus b).subscriptions, ∀ id, s.sink = .proxy id →
    ∃ q, w.port b id = some q ∧ s = q.asks id
  given : ∀ {id q}, w.port b id = some q → q.subscription < (w.bus b).nextId
  distinct : ∀ {id id' q q'}, w.port b id = some q → w.port b id' = some q' →
    q.subscription = q'.subscription → id = id'
  /-- A proxy has its subscription. -/
  kept : ∀ {id q}, w.port b id = some q → q.alive = true →
    q.asks id ∈ (w.bus b).subscriptions ∨ (w.bus b).Closed q.connection ∨
      ∃ me, .arrange (.unsubscribe (.bus b me) q.subscription) ∈ past

/-- Nothing has been done on the bus since it was opened. -/
structure Unused (b : Nat) (w : World) : Prop where
  opened : b < w.buses.size
  connections : (w.bus b).connections = []
  subscriptions : (w.bus b).subscriptions = []
  ports : ∀ id, w.port b id = none

theorem Unused.subscribed (h : w.Unused b) : Subscribed b [] w where
  orderly :=
    { namesDistinct := by simp [Bus.connectionNames, h.connections]
      namesGiven := by simp [Bus.connectionNames, h.connections]
      idsDistinct := by simp [h.subscriptions]
      idsGiven := by simp [h.subscriptions] }
  known := by simp [h.subscriptions]
  given := fun hq => by rw [h.ports] at hq; cases hq
  distinct := fun hq => by rw [h.ports] at hq; cases hq
  kept := fun hq => by rw [h.ports] at hq; cases hq

/-! ## 2. Every move keeps it -/

/-- Where ports stay and subscriptions go with their connections only. -/
theorem Subscribed.becomes (h : Subscribed b past w) (hports : ∀ id, w'.port b id = w.port b id)
    (hbus : (w.bus b).Becomes (w'.bus b)) : Subscribed b past w' := by
  obtain ⟨ops, hops, hrun⟩ := hbus
  have htrims := Bus.trims_run ops h.orderly hops
  have hages := Bus.ages_run ops (w.bus b)
  rw [← hrun] at htrims hages
  constructor
  · exact hages.orderly h.orderly
  · intro s hs id hsink
    obtain ⟨q, hq, hask⟩ := h.known s (htrims.older s hs) id hsink
    exact ⟨q, (hports id).trans hq, hask⟩
  · intro id q hq
    rw [hports] at hq
    exact Nat.lt_of_lt_of_le (h.given hq) hages.nextId
  · intro id id' q q' hq hq' heq
    rw [hports] at hq hq'
    exact h.distinct hq hq' heq
  · intro id q hq halive
    rw [hports] at hq
    rcases h.kept hq halive with hask | hclosed | hremoved
    · by_cases hstays : q.asks id ∈ (w'.bus b).subscriptions
      · exact Or.inl hstays
      · exact Or.inr (Or.inl (htrims.gone _ hask hstays))
    · exact Or.inr (Or.inl (htrims.closed hclosed))
    · exact Or.inr (Or.inr hremoved)

theorem Subscribed.mono (h : Subscribed b past w) (ms : List Move) :
    Subscribed b (past ++ ms) w :=
  { h with
    kept := fun hq halive => (h.kept hq halive).imp_right fun h =>
      h.imp_right fun ⟨me, hremoved⟩ => ⟨me, List.mem_append_left _ hremoved⟩ }

/-- A recorder subscribes. -/
theorem Subscribed.subscribe (h : Subscribed b past w) {me : String} {rule : SignalRule}
    {label : String} (hports : ∀ id, w'.port b id = w.port b id)
    (hbus : w'.bus b = ((w.bus b).subscribe me rule (.recorder label)).1) :
    Subscribed b past w' := by
  have hstill := Bus.still_subscribe (w.bus b) me rule (.recorder label)
  rw [← hbus] at hstill
  have hsubscriptions : (w'.bus b).subscriptions = (w.bus b).subscriptions
      ++ [⟨(w.bus b).nextId, me, rule, .recorder label⟩] := by
    rw [hbus]
    rfl
  have hclosed : ∀ {c}, (w.bus b).Closed c → (w'.bus b).Closed c := fun hc => by
    rw [hbus]
    exact hc
  constructor
  · exact hstill.orderly h.orderly
  · intro s hs id hsink
    rw [hsubscriptions, List.mem_append, List.mem_singleton] at hs
    rcases hs with hs | rfl
    · rw [hports]
      exact h.known s hs id hsink
    · cases hsink
  · intro id q hq
    rw [hports] at hq
    exact Nat.lt_of_lt_of_le (h.given hq) hstill.nextId
  · intro id id' q q' hq hq' heq
    rw [hports] at hq hq'
    exact h.distinct hq hq' heq
  · intro id q hq halive
    rw [hports] at hq
    rw [hsubscriptions]
    exact (h.kept hq halive).imp (List.mem_append_left _) fun h => h.imp_left hclosed

/-- A subscription is removed, and if it is that of a proxy which is there, then by its number. -/
theorem Subscribed.unsubscribe (h : Subscribed b past w) {n : Nat}
    (hports : ∀ id, w'.port b id = w.port b id) (hbus : w'.bus b = (w.bus b).unsubscribe n)
    (hn : ∀ {id q}, w.port b id = some q → q.alive = true → q.subscription = n →
      ∃ me, .arrange (.unsubscribe (.bus b me) n) ∈ past) : Subscribed b past w' := by
  have hstill := Bus.still_unsubscribe (w.bus b) n
  rw [← hbus] at hstill
  have hsubscriptions : ∀ {s}, s ∈ (w'.bus b).subscriptions ↔
      s ∈ (w.bus b).subscriptions ∧ s.id ≠ n := by
    rw [hbus]
    simp [Bus.unsubscribe]
  have hclosed : ∀ {c}, (w.bus b).Closed c → (w'.bus b).Closed c := fun hc => by
    rw [hbus]
    exact hc
  constructor
  · exact hstill.orderly h.orderly
  · intro s hs id hsink
    rw [hports]
    exact h.known s (hsubscriptions.mp hs).1 id hsink
  · intro id q hq
    rw [hports] at hq
    exact Nat.lt_of_lt_of_le (h.given hq) hstill.nextId
  · intro id id' q q' hq hq' heq
    rw [hports] at hq hq'
    exact h.distinct hq hq' heq
  · intro id q hq halive
    rw [hports] at hq
    rcases h.kept hq halive with hask | hgone | hremoved
    · by_cases heq : q.subscription = n
      · exact Or.inr (Or.inr (heq ▸ hn hq halive heq))
      · exact Or.inl (hsubscriptions.mpr ⟨hask, heq⟩)
    · exact Or.inr (Or.inl (hclosed hgone))
    · exact Or.inr (Or.inr hremoved)

/-- A proxy is given up by its owner. -/
theorem Subscribed.giveUp (h : Subscribed b past w) {n : Nat} (hbus : w'.bus b = w.bus b)
    (hports : ∀ id, w'.port b id
      = (w.port b id).map fun q => { q with alive := q.alive && id ≠ n }) :
    Subscribed b past w' := by
  constructor
  · rw [hbus]
    exact h.orderly
  · intro s hs id hsink
    rw [hbus] at hs
    obtain ⟨q, hq, hask⟩ := h.known s hs id hsink
    exact ⟨{ q with alive := q.alive && id ≠ n }, by rw [hports, hq]; rfl, hask⟩
  · intro id q hq
    rw [hports] at hq
    obtain ⟨q, hold, rfl⟩ := Option.map_eq_some_iff.mp hq
    have hgiven := h.given hold
    rw [hbus]
    exact hgiven
  · intro id id' q q' hq hq' heq
    rw [hports] at hq hq'
    obtain ⟨q, hold, rfl⟩ := Option.map_eq_some_iff.mp hq
    obtain ⟨q', hold', rfl⟩ := Option.map_eq_some_iff.mp hq'
    exact h.distinct hold hold' heq
  · intro id q hq halive
    rw [hports] at hq
    obtain ⟨q, hold, rfl⟩ := Option.map_eq_some_iff.mp hq
    rw [Bool.and_eq_true] at halive
    have hkept := h.kept hold halive.1
    rw [hbus]
    exact hkept

/-- A proxy comes. -/
theorem Subscribed.come (h : Subscribed b past w) {n : Nat} {q : Port} (hnew : w.port b n = none)
    (hid : q.subscription = (w.bus b).nextId)
    (hports : ∀ id, w'.port b id = if n = id then some q else w.port b id)
    (hbus : w'.bus b
      = ((w.bus b).subscribe q.connection (Proxy.rule q.target) (.proxy n)).1) :
    Subscribed b past w' := by
  have hstill := Bus.still_subscribe (w.bus b) q.connection (Proxy.rule q.target) (.proxy n)
  rw [← hbus] at hstill
  have hsubscriptions : (w'.bus b).subscriptions = (w.bus b).subscriptions ++ [q.asks n] := by
    rw [hbus, Port.asks, hid]
    rfl
  have hnext : (w'.bus b).nextId = (w.bus b).nextId + 1 := by
    rw [hbus]
    rfl
  have hclosed : ∀ {c}, (w.bus b).Closed c → (w'.bus b).Closed c := fun hc => by
    rw [hbus]
    exact hc
  have hold : ∀ {id q'}, w.port b id = some q' → w'.port b id = some q' := by
    intro id q' hq'
    rw [hports, if_neg, hq']
    rintro rfl
    rw [hnew] at hq'
    cases hq'
  -- A port is the new one, or it was there before.
  have hcases : ∀ {id q'}, w'.port b id = some q' →
      n = id ∧ q' = q ∨ w.port b id = some q' := by
    intro id q' hq'
    rw [hports] at hq'
    split at hq'
    · exact Or.inl ⟨by assumption, (Option.some.inj hq').symm⟩
    · exact Or.inr hq'
  constructor
  · exact hstill.orderly h.orderly
  · intro s hs id hsink
    rw [hsubscriptions, List.mem_append, List.mem_singleton] at hs
    rcases hs with hs | rfl
    · obtain ⟨q', hq', hask⟩ := h.known s hs id hsink
      exact ⟨q', hold hq', hask⟩
    · cases hsink
      exact ⟨q, by rw [hports, if_pos rfl], rfl⟩
  · intro id q' hq'
    rw [hnext]
    rcases hcases hq' with ⟨-, rfl⟩ | hq'
    · exact Nat.lt_succ_of_le (Nat.le_of_eq hid)
    · exact Nat.lt_succ_of_lt (h.given hq')
  · intro id id' q₁ q₂ hq₁ hq₂ heq
    rcases hcases hq₁ with ⟨rfl, rfl⟩ | hq₁ <;> rcases hcases hq₂ with ⟨rfl, rfl⟩ | hq₂
    · rfl
    · exact absurd (heq.symm.trans hid) (Nat.ne_of_lt (h.given hq₂))
    · exact absurd (heq.trans hid) (Nat.ne_of_lt (h.given hq₁))
    · exact h.distinct hq₁ hq₂ heq
  · intro id q' hq' halive
    rw [hsubscriptions]
    rcases hcases hq' with ⟨rfl, rfl⟩ | hq'
    · exact Or.inl (List.mem_append_right _ (List.mem_singleton_self _))
    · exact (h.kept hq' halive).imp (List.mem_append_left _) fun h => h.imp_left hclosed

/-! ## 3. Runs -/

/-- The proxy `id` is given up by its owner. -/
def givenUp (w : World) (id : Nat) (p : Proxy) : World :=
  { w with proxies := w.proxies.insert id { p with alive := false } }

theorem act_dropProxy {id : Nat} {p : Proxy} (hp : w.proxies.get? id = some p) :
    w.act (.arrange (.dropProxy id))
      = ((w.givenUp id p).unsubscribe p.link p.subscription).closeUnheld := by
  simp only [act, arrange, dropProxy, hp, givenUp]

theorem port_givenUp {id : Nat} {p : Proxy} {me : String} (hp : w.proxies.get? id = some p)
    (hlink : p.link = .bus b me) (n : Nat) : (w.givenUp id p).port b n
      = (w.port b n).map fun q => { q with alive := q.alive && n ≠ id } := by
  rw [port_insert (w := w) rfl]
  split
  · rename_i heq
    rw [← heq, port_of_link hp hlink, Proxy.port_of_link (p := { p with alive := false }) hlink]
    simp
  · rename_i hne
    cases w.port b n with
    | none => rfl
    | some q => simp [Ne.symm hne]

theorem ports_of_proxies (h : w'.proxies = w.proxies) (id : Nat) : w'.port b id = w.port b id := by
  rw [port, port, h]

theorem proxies_unsubscribe (w : World) (link : Link) (id : Nat) :
    (w.unsubscribe link id).proxies = w.proxies := by
  unfold unsubscribe
  split
  · rfl
  · simp only [ask]
    split <;> rfl

/-- **Every move keeps proxies and their subscriptions together.** -/
theorem subscribed_act (hw : w.Orderly) (hb : b < w.buses.size) (h : Subscribed b past w)
    (m : Move) : Subscribed b (past ++ [m]) (w.act m) := by
  cases dealing_act hw b m with
  | opened hsize => exact absurd hsize (Nat.ne_of_lt hb)
  | aside haside => exact (h.mono [m]).becomes haside.ports haside.bus
  | subscribe =>
    exact (h.mono _).subscribe (ports_of_proxies (proxies_subscribe _ _ _ _))
      (bus_subscribed _ _ _ _ _)
  | @unsubscribe me id =>
    refine (h.mono _).unsubscribe (n := id) (ports_of_proxies (proxies_unsubscribe _ _ _))
      (bus_unsubscribed _ _ _ _) fun _ _ _ => ⟨me, ?_⟩
    exact List.mem_append_right _ (List.mem_singleton_self _)
  | @addProxy label me i name path timeout flags convention =>
    obtain ⟨p, -, hlink, htarget, hid, -, -, hproxies⟩ :=
      proxies_addProxy w label (.bus b me) i name path timeout flags convention
    have hnew : w.port b w.proxies.size = none := by
      rw [port, hw.proxiesBelow.get?_size]
      rfl
    refine (h.mono _).come (q := ⟨p.label, me, p.target, p.subscription, p.alive⟩) hnew hid
      (fun id => ?_) ?_
    · rw [← Proxy.port_of_link hlink]
      exact port_insert hproxies id
    · simp only [htarget]
      exact bus_addProxy w b label me i name path timeout flags convention
  | @dropProxy id p me hp hlink =>
    -- The proxy is given up, then its subscription goes, and then connections close.
    have hgivenUp : Subscribed b past (w.givenUp id p) := h.giveUp rfl (port_givenUp hp hlink)
    have hremoved : Subscribed b past ((w.givenUp id p).unsubscribe p.link p.subscription) := by
      refine hgivenUp.unsubscribe (n := p.subscription)
        (ports_of_proxies (proxies_unsubscribe _ _ _)) ?_ ?_
      · rw [hlink]
        exact bus_of_setBus rfl
      · intro n q hq halive heq
        rw [port_givenUp hp hlink] at hq
        obtain ⟨q, hold, rfl⟩ := Option.map_eq_some_iff.mp hq
        rw [Bool.and_eq_true, decide_eq_true_eq] at halive
        exact absurd (h.distinct hold (port_of_link hp hlink) heq) halive.2
    have hclosed := hremoved.becomes (aside_closeUnheld _).ports (aside_closeUnheld _).bus
    rw [act_dropProxy hp]
    exact hclosed.mono _

/-- **A proxy has its subscription, and nobody else has it**, after every run on a bus on which
nothing was done before. -/
theorem subscribed_run (ms : List Move) {w : World} {past : List Move} (hw : w.Orderly)
    (hb : b < w.buses.size) (h : Subscribed b past w) : Subscribed b (past ++ ms) (w.run ms) := by
  induction ms generalizing w past with
  | nil => simpa using h
  | cons m ms ih =>
    have hrest := ih (orderly_act hw m) (count_act hb m) (subscribed_act hw hb h m)
    rwa [List.append_assoc, List.singleton_append] at hrest

/-- A port stays what it is, but for its owner. -/
theorem port_act (hw : w.Orderly) {id : Nat} {q : Port} (hq : w.port b id = some q) (m : Move) :
    ∃ alive, (w.act m).port b id = some { q with alive } := by
  have hsame : (w.act m).port b id = w.port b id →
      ∃ alive, (w.act m).port b id = some { q with alive } := fun heq => ⟨q.alive, heq.trans hq⟩
  cases dealing_act hw b m with
  | opened => exact hsame rfl
  | aside haside => exact hsame (haside.ports id)
  | subscribe => exact hsame (ports_of_proxies (proxies_subscribe _ _ _ _) id)
  | unsubscribe => exact hsame (ports_of_proxies (proxies_unsubscribe _ _ _) id)
  | @addProxy label me i name path timeout flags convention =>
    obtain ⟨p, -, -, -, -, -, -, hproxies⟩ :=
      proxies_addProxy w label (.bus b me) i name path timeout flags convention
    refine hsame ((port_insert hproxies id).trans (if_neg ?_))
    rintro rfl
    rw [port, hw.proxiesBelow.get?_size] at hq
    cases hq
  | @dropProxy n p me hp hlink =>
    refine ⟨q.alive && id ≠ n, ?_⟩
    rw [act_dropProxy hp, (aside_closeUnheld _).ports,
      ports_of_proxies (proxies_unsubscribe _ _ _), port_givenUp hp hlink, hq]
    rfl

theorem port_run (ms : List Move) {w : World} (hw : w.Orderly) {id : Nat} {q : Port}
    (hq : w.port b id = some q) : ∃ alive, (w.run ms).port b id = some { q with alive } := by
  induction ms generalizing w q with
  | nil => exact ⟨q.alive, hq⟩
  | cons m ms ih =>
    obtain ⟨alive, hact⟩ := port_act hw hq m
    obtain ⟨alive', hrest⟩ := ih (orderly_act hw m) (q := { q with alive }) hact
    exact ⟨alive', hrest⟩

theorem tidy_of_proxies (h : w'.proxies = w.proxies) (ht : w.Tidy) : w'.Tidy := fun id p hp =>
  ht id p (h ▸ hp)

/-- Relays stay tidy, whatever happens. -/
theorem tidy_act (hw : w.Orderly) (h : w.Tidy) (m : Move) : (w.act m).Tidy := by
  cases dealing_act hw 0 m with
  | opened => exact h
  | aside haside => exact haside.tidy h
  | subscribe => exact tidy_of_proxies (proxies_subscribe _ _ _ _) h
  | unsubscribe => exact tidy_of_proxies (proxies_unsubscribe _ _ _) h
  | @addProxy label me i name path timeout flags convention =>
    obtain ⟨p, -, -, -, -, -, hrelay, hproxies⟩ :=
      proxies_addProxy w label (.bus 0 me) i name path timeout flags convention
    exact h.insertProxy (hrelay ▸ Relay.tidy_empty) hproxies
  | @dropProxy id p me hp hlink =>
    have hgivenUp : (w.givenUp id p).Tidy :=
      h.insertProxy (p := { p with alive := false }) (h id p hp) rfl
    rw [act_dropProxy hp]
    exact (aside_closeUnheld (b := 0) _).tidy
      (tidy_of_proxies (proxies_unsubscribe _ _ _) hgivenUp)

theorem tidy_empty : empty.Tidy := fun id p hp => by cases hp

theorem Tidy.run (h : w.Tidy) (hw : w.Orderly) (ms : List Move) : (w.run ms).Tidy :=
  (run_keeps (P := fun w => w.Orderly ∧ w.Tidy)
    (fun _ m h => ⟨orderly_act h.1 m, tidy_act h.1 h.2 m⟩) ms ⟨hw, h⟩).2

end World

end MessageBus
