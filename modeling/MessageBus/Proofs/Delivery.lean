/-
# Signals are delivered once, and in order

The history of a connection's queue is what broadcasts have put into it, one after the other
(`World.entries`).  `World.signals_delivered_once` is the main result: in whatever order connections
are opened and closed, names change hands, subscriptions come and go, signals are broadcast and
tasks are polled, what a connection's delivery task has handed out is a front part of the history,
what is missing is just what stands in the queue, and nothing is missing when no task can run.

The first two are one equation, which each move keeps: what is in the queue and what a move puts
behind it is what the move takes out and what is in the queue then (`World.queue_act`).  For the
third, every connection has a task that delivers to it, and that task can run if there is anything
in the queue (`World.Attended`).

A subscription is known by its number.  A number is given once, so what is broadcast before a
subscription is made or after it is gone does not go through it: there is no subscription of that
number then.
-/
import MessageBus.Proofs.Traffic
import MessageBus.Proofs.Waking
import Mathlib.Data.List.Nodup

namespace MessageBus.World

variable {w w' : World} {b : Nat}

/-! ## 1. One move -/

/-- A bus that has been opened has nothing on it. -/
theorem bus_opened (w : World) (callTimeout : Nat) :
    (w.act (.arrange (.addBus callTimeout))).bus w.buses.size = .empty callTimeout :=
  bus_of_setBus rfl

theorem bus_connect (w : World) (b : Nat) :
    (w.act (.arrange (.connect b))).bus b = (w.bus b).connect.1 :=
  bus_of_setBus (buses_connect w b)

/-- Waking those who have to hand a signal out is no matter of the buses. -/
theorem buses_emitted {m : Move} {x : Bus Nat Sink}
    (hact : w.act m = (w.setBus b x).wakeDeliveries b) :
    (w.act m).buses = (w.setBus b x).buses := by
  rw [hact]
  exact buses_wake _ _

theorem bus_emitted {m : Move} {x : Bus Nat Sink}
    (hact : w.act m = (w.setBus b x).wakeDeliveries b) : (w.act m).bus b = x :=
  bus_of_setBus (buses_emitted hact)

/-- The poll of a delivery task empties one queue and moves no other signal. -/
theorem still_delivered {t : Nat} {c : String} (ht : w.tasks.get? t = some (.deliver b c)) :
    ((w.bus b).drain c).1.Still ((w.act (.poll t)).bus b) := by
  have hbus : ((w.taken t).deliver b c).bus b = ((w.bus b).drain c).1 :=
    bus_of_setBus (buses_deliver (w.taken t) b c)
  have hclose : Still b ((w.taken t).deliver b c) ((w.taken t).deliver b c).closeUnheld :=
    still_closeUnheld _
  rw [act_poll ht, ← hbus]
  exact hclose.bus

theorem handed_deliver {t : Nat} {c : String} (ht : w.tasks.get? t = some (.deliver b c))
    (d : String) : w.handed b d (.poll t) = if c = d then (w.bus b).queue d else [] := by
  simp only [handed, ht, true_and]

/-- Nothing is handed out by a move that polls no task of a connection of the bus. -/
theorem handed_of_not_deliver {m : Move}
    (h : ∀ t c, m = .poll t → w.tasks.get? t ≠ some (.deliver b c)) (c : String) :
    w.handed b c m = [] := by
  cases m with
  | poll t =>
    simp only [handed]
    split
    · rename_i n d ht
      refine if_neg ?_
      rintro ⟨rfl, -⟩
      exact h t d rfl ht
    · rfl
  | _ => rfl

theorem entries_of_no_emission {m : Move} (h : w.emission b m = none) (c : String) :
    w.entries b c m = [] := by
  rw [entries, h]

theorem delivery_entries {m : Move} {s : SignalMessage} (h : w.emission b m = some s)
    (c : String) :
    (w.entries b c m).map Entry.delivery = ((w.bus b).takers c s).map fun x => (x.sink, s) := by
  rw [entries, h, List.map_map]
  rfl

/-- **A move takes from the front of a queue and puts to its back**: what was in the queue and what
the move puts there is what it takes and what is there then. -/
theorem queue_act (hb : b < w.buses.size) (ho : (w.bus b).Orderly) (m : Move) (c : String) :
    (w.bus b).queue c ++ (w.entries b c m).map Entry.delivery
      = w.handed b c m ++ ((w.act m).bus b).queue c := by
  cases motion_act w b m with
  | opened heq => exact absurd heq (Nat.ne_of_lt hb)
  | still h hemission hpoll =>
    rw [entries_of_no_emission hemission, handed_of_not_deliver hpoll, h.bus.queue]
    simp
  | connect =>
    rw [bus_connect, Bus.queue_connect]
    exact List.append_nil _
  | @emit _ me s x hs hx hact =>
    have hpoll : w.handed b c m = [] := by
      cases m with
      | poll t => cases hs
      | _ => rfl
    rw [hpoll, bus_emitted hact, Bus.queue_emit ho hx,
      delivery_entries (emission_of_emit hs hx)]
    rfl
  | @deliver t d ht =>
    have hnone : w.entries b c (.poll t) = [] := entries_of_no_emission rfl c
    rw [hnone, handed_deliver ht, (still_delivered ht).queue, Bus.queue_drain]
    split <;> simp

/-- Every move lets the bus age, unless it opens it. -/
theorem ages_or_opened (ho : (w.bus b).Orderly) (m : Move) :
    (w.bus b).Ages ((w.act m).bus b) ∨
      b = w.buses.size ∧ ∃ callTimeout, (w.act m).bus b = .empty callTimeout := by
  cases motion_act w b m with
  | opened hb => exact Or.inr ⟨hb, _, hb ▸ bus_opened w _⟩
  | still h _ _ => exact Or.inl h.bus.toAges
  | connect =>
    rw [bus_connect]
    exact Or.inl (Bus.ages_connect _)
  | emit hs hx hact =>
    rw [bus_emitted hact]
    exact Or.inl (Bus.ages_emit ho hx).1
  | deliver ht => exact Or.inl ((Bus.ages_drain _ _).trans (still_delivered ht).toAges)

theorem ages_act (hb : b < w.buses.size) (ho : (w.bus b).Orderly) (m : Move) :
    (w.bus b).Ages ((w.act m).bus b) := by
  rcases ages_or_opened ho m with h | ⟨heq, -⟩
  · exact h
  · exact absurd heq (Nat.ne_of_lt hb)

/-- No bus goes. -/
theorem count_act (hb : b < w.buses.size) (m : Move) : b < (w.act m).buses.size := by
  refine Nat.lt_of_lt_of_le hb ?_
  cases motion_act w b m with
  | opened heq => exact absurd heq (Nat.ne_of_lt hb)
  | still h _ _ => exact h.count
  | connect => exact count_of_setBus (buses_connect w b)
  | emit hs hx hact => exact count_of_setBus (buses_emitted hact)
  | @deliver t c ht =>
    have hclose : Still b ((w.taken t).deliver b c) ((w.taken t).deliver b c).closeUnheld :=
      still_closeUnheld _
    rw [act_poll ht]
    exact Nat.le_trans (count_of_setBus (buses_deliver (w.taken t) b c)) hclose.count

theorem count_run (ms : List Move) (hb : b < w.buses.size) : b < (w.run ms).buses.size :=
  run_keeps (P := fun w => b < w.buses.size) (fun _ m h => count_act h m) ms hb

/-! ## 2. Queues are attended to -/

/-- The bus `b` is in order; each of its connections has a task that delivers to it, and this task
can run if there is anything in the queue. -/
structure Attended (b : Nat) (w : World) : Prop where
  orderly : (w.bus b).Orderly
  staffed : ∀ c ∈ (w.bus b).connectionNames, ∃ t, w.tasks.get? t = some (.deliver b c)
  awake : ∀ c, (w.bus b).queue c ≠ [] → ∃ t ∈ w.ready, w.tasks.get? t = some (.deliver b c)

/-- There is nothing to attend to on a bus without connections. -/
theorem attended_of_empty {callTimeout : Nat} (h : w.bus b = .empty callTimeout) :
    Attended b w where
  orderly := by
    rw [h]
    exact Bus.orderly_empty callTimeout
  staffed := by
    rw [h]
    intro c hc
    cases hc
  awake := by
    rw [h]
    intro c hc
    exact absurd rfl hc

/-- A delivery task never ends. -/
theorem delivers_act (hw : w.Orderly) (m : Move) {t : Nat} {c : String}
    (ht : w.tasks.get? t = some (.deliver b c)) :
    (w.act m).tasks.get? t = some (.deliver b c) := by
  by_cases hm : m.polled = some t
  · obtain rfl := Move.eq_poll hm
    rw [act_poll ht]
    have hquiet := (quiet_deliver (w.taken t) b c).trans (quiet_closeUnheld _)
    exact hquiet.toCalm.task ht
  · exact task_act hw hm ht

/-- A task stays in the queue until it is polled. -/
theorem ready_act (hw : w.Orderly) {m : Move} {t : Nat} (hm : m.polled ≠ some t)
    (ht : t ∈ w.ready) : t ∈ (w.act m).ready := by
  refine (onward_act hw m).ready.subset ?_
  cases m with
  | poll s =>
    have hne : t ≠ s := fun heq => hm (congrArg some heq.symm)
    exact (List.mem_erase_of_ne hne).mpr ht
  | _ => exact ht

/-- A connection that comes has its task. -/
theorem task_connect (w : World) (b : Nat) :
    (w.act (.arrange (.connect b))).tasks.get? w.nextTask
      = some (.deliver b (w.bus b).connect.2) := by
  have hconnect : (w.connect b).1
      = World.spawn { w.setBus b (w.bus b).connect.1 with
          held := w.held ++ [Link.bus b (w.bus b).connect.2] } (.deliver b (w.bus b).connect.2) :=
    rfl
  change (w.connect b).1.tasks.get? w.nextTask = _
  rw [hconnect, spawn_eq]
  exact Table.get?_insert_self _ _ _

/-- A broadcast wakes the tasks of those that have something in their queues. -/
theorem ready_emitted {m : Move} {x : Bus Nat Sink}
    (hact : w.act m = (w.setBus b x).wakeDeliveries b) {t : Nat} {c : String}
    (ht : w.tasks.get? t = some (.deliver b c)) (hc : x.queue c ≠ []) :
    t ∈ (w.act m).ready := by
  rw [hact]
  refine mem_ready_wake.mpr (Or.inr ⟨.deliver b c, Table.mem_entries_of_get? ht, ?_⟩)
  rw [bus_setBus, if_pos rfl]
  refine List.any_eq_true.mpr ⟨c, Bus.mem_waiting hc, ?_⟩
  simp [Task.delivers]

/-- **Every move leaves the queues of the bus attended to.** -/
theorem Attended.act (h : Attended b w) (hw : w.Orderly) (m : Move) : Attended b (w.act m) := by
  rcases ages_or_opened h.orderly m with hages | ⟨-, callTimeout, hempty⟩
  · -- A task that was there before stays, and one that was awake stays so, unless it is polled.
    have hthere : ∀ c ∈ (w.bus b).connectionNames,
        ∃ t, (w.act m).tasks.get? t = some (.deliver b c) := by
      intro c hc
      obtain ⟨t, ht⟩ := h.staffed c hc
      exact ⟨t, delivers_act hw m ht⟩
    have hawake : ∀ c, (w.bus b).queue c ≠ [] →
        (∀ t, m = .poll t → w.tasks.get? t ≠ some (.deliver b c)) →
        ∃ t ∈ (w.act m).ready, (w.act m).tasks.get? t = some (.deliver b c) := by
      intro c hc hpoll
      obtain ⟨t, hready, ht⟩ := h.awake c hc
      have hm : m.polled ≠ some t := fun hm => hpoll t (Move.eq_poll hm) ht
      exact ⟨t, ready_act hw hm hready, delivers_act hw m ht⟩
    cases motion_act w b m with
    | opened hb => exact attended_of_empty (hb ▸ bus_opened w _)
    | still hs _ hpoll =>
      refine ⟨hages.orderly h.orderly, fun c hc => hthere c ?_, fun c hc => ?_⟩
      · rwa [hs.bus.names] at hc
      · rw [hs.bus.queue] at hc
        exact hawake c hc fun t => hpoll t c
    | connect =>
      refine ⟨hages.orderly h.orderly, fun c hc => ?_, fun c hc => ?_⟩
      · rw [bus_connect, Bus.connectionNames_connect, List.mem_append, List.mem_singleton] at hc
        rcases hc with hc | rfl
        · exact hthere c hc
        · exact ⟨w.nextTask, task_connect w b⟩
      · rw [bus_connect, Bus.queue_connect] at hc
        exact hawake c hc fun t heq => nomatch heq
    | @emit _ me s x hs hx hact =>
      have hnames : x.connectionNames = (w.bus b).connectionNames := (Bus.ages_emit h.orderly hx).2
      refine ⟨hages.orderly h.orderly, fun c hc => hthere c ?_, fun c hc => ?_⟩
      · rwa [bus_emitted hact, hnames] at hc
      · rw [bus_emitted hact] at hc
        obtain ⟨t, ht⟩ := h.staffed c (hnames ▸ Bus.mem_connectionNames hc)
        exact ⟨t, ready_emitted hact ht hc, delivers_act hw m ht⟩
    | @deliver t d ht =>
      refine ⟨hages.orderly h.orderly, fun c hc => hthere c ?_, fun c hc => ?_⟩
      · rwa [(still_delivered ht).names, Bus.connectionNames_drain] at hc
      · rw [(still_delivered ht).queue, Bus.queue_drain] at hc
        split at hc
        · exact absurd rfl hc
        · rename_i hne
          refine hawake c hc fun s heq hs => hne ?_
          cases heq
          rw [ht] at hs
          cases hs
          rfl
  · exact attended_of_empty hempty

/-! ## 3. Runs -/

theorem Attended.run (h : Attended b w) (hw : w.Orderly) (ms : List Move) :
    Attended b (w.run ms) :=
  (run_keeps (P := fun w => Attended b w ∧ w.Orderly)
    (fun _ m h => ⟨h.1.act h.2 m, orderly_act h.2 m⟩) ms ⟨h, hw⟩).1

/-- All queues are attended to, at any time. -/
theorem attended_run (b : Nat) (ms : List Move) : Attended b (empty.run ms) :=
  Attended.run (attended_of_empty rfl) orderly_empty ms

/-- **What has been handed out, and then what is in the queue, is what was in the queue at first,
and then all that has been put there.** -/
theorem queue_run (ms : List Move) {w : World} (hb : b < w.buses.size) (h : Attended b w)
    (hw : w.Orderly) (c : String) :
    observe (handed b c) w ms ++ ((w.run ms).bus b).queue c
      = (w.bus b).queue c ++ (observe (entries b c) w ms).map Entry.delivery := by
  induction ms generalizing w with
  | nil => simp
  | cons m ms ih =>
    have hact := queue_act hb h.orderly m c
    have hrest := ih (count_act hb m) (h.act hw m) (orderly_act hw m)
    rw [observe_cons, observe_cons, run_cons, List.append_assoc, hrest, ← List.append_assoc, ← hact,
      List.map_append, List.append_assoc]

/-- When no task can run, nothing is on its way. -/
theorem Attended.idle (h : Attended b w) (hidle : w.ready = []) (c : String) :
    (w.bus b).queue c = [] := by
  refine Classical.byContradiction fun hc => ?_
  obtain ⟨t, ht, -⟩ := h.awake c hc
  rw [hidle] at ht
  cases ht

theorem ages_run (ms : List Move) {w : World} (hb : b < w.buses.size) (h : Attended b w)
    (hw : w.Orderly) : (w.bus b).Ages ((w.run ms).bus b) := by
  induction ms generalizing w with
  | nil => exact .refl _
  | cons m ms ih =>
    exact (ages_act hb h.orderly m).trans
      (ih (count_act hb m) (h.act hw m) (orderly_act hw m))

/-- What goes through a subscription goes through one that the bus has at the time. -/
theorem mem_entries {c : String} {m : Move} {s : SignalMessage} (hs : w.emission b m = some s)
    {e : Entry} :
    e ∈ w.entries b c m ↔ e.message = s ∧ e.subscription ∈ (w.bus b).subscriptions ∧
      e.subscription.owner = c ∧ (w.bus b).isOpen c = true ∧
      (w.bus b).Admits e.subscription.rule s := by
  rw [entries, hs, List.mem_map, ← Bus.mem_takers]
  constructor
  · rintro ⟨x, hx, rfl⟩
    exact ⟨rfl, hx⟩
  · rintro ⟨rfl, hx⟩
    exact ⟨e.subscription, hx, rfl⟩

theorem subscription_mem {c : String} {m : Move} {e : Entry} (he : e ∈ w.entries b c m) :
    e.subscription ∈ (w.bus b).subscriptions := by
  cases hs : w.emission b m with
  | some s => exact ((mem_entries hs).mp he).2.1
  | none =>
    rw [entries_of_no_emission hs] at he
    cases he

/-- **Nothing goes through a subscription before it is made**: it has a number that was not given
then. -/
theorem entries_older {ms : List Move} (hb : b < w.buses.size) (h : Attended b w) (hw : w.Orderly)
    {c : String} {e : Entry} (he : e ∈ observe (entries b c) w ms) :
    e.subscription.id < ((w.run ms).bus b).nextId := by
  obtain ⟨before, m, after, rfl, hm⟩ := mem_observe he
  have hbefore := h.run hw before
  have hid := hbefore.orderly.idsGiven _ (subscription_mem hm)
  have hrest : ((w.run before).bus b).Ages ((w.run (before ++ m :: after)).bus b) := by
    rw [run_append]
    exact ages_run (m :: after) (count_run before hb) hbefore ((later_run before hw).orderly hw)
  exact Nat.lt_of_lt_of_le hid hrest.nextId

/-- **Nothing goes through a subscription when it is gone.** -/
theorem entries_gone {ms : List Move} (hb : b < w.buses.size) (h : Attended b w) (hw : w.Orderly)
    {id : Nat} (hid : id < (w.bus b).nextId) (hgone : ∀ s ∈ (w.bus b).subscriptions, s.id ≠ id)
    {c : String} {e : Entry} (he : e ∈ observe (entries b c) w ms) : e.subscription.id ≠ id := by
  obtain ⟨before, m, after, rfl, hm⟩ := mem_observe he
  rcases (ages_run before hb h hw).subscriptions _ (subscription_mem hm) with hold | hnew
  · exact hgone _ hold
  · exact Nat.ne_of_gt (Nat.lt_of_lt_of_le hid hnew)

/-- The number of a subscription that is removed is gone. -/
theorem unsubscribe_gone (w : World) (b : Nat) (me : String) (id : Nat) :
    ∀ s ∈ ((w.act (.arrange (.unsubscribe (.bus b me) id))).bus b).subscriptions, s.id ≠ id := by
  have hbus : (w.act (.arrange (.unsubscribe (.bus b me) id))).bus b
      = (w.bus b).unsubscribe id := bus_of_setBus rfl
  rw [hbus]
  intro s hs
  exact of_decide_eq_true (List.mem_filter.mp hs).2

/-- So are those of a connection that closes. -/
theorem close_gone (ho : (w.bus b).Orderly) {me : String} (hopen : (w.bus b).isOpen me = true)
    {x : Subscription Sink} (hx : x ∈ (w.bus b).subscriptions) (howner : x.owner = me) :
    ∀ s ∈ ((w.act (.arrange (.close b me))).bus b).subscriptions, s.id ≠ x.id := by
  have hbus : (w.act (.arrange (.close b me))).bus b = (w.bus b).close me := bus_of_setBus rfl
  rw [hbus, Bus.close, if_pos hopen]
  intro s hs heq
  obtain ⟨hs, hother⟩ := List.mem_filter.mp hs
  cases List.inj_on_of_nodup_map ho.idsDistinct hs hx heq
  exact of_decide_eq_true hother howner

/-- A broadcast succeeds just if its connection is open. -/
theorem emission_eq {m : Move} {me : String} {s : SignalMessage}
    (hs : w.broadcasting m = some (.bus b me, s)) :
    w.emission b m = if (w.bus b).isOpen me then some { s with sender := me } else none := by
  cases hopen : (w.bus b).isOpen me with
  | true => exact emission_of_emit hs (Bus.emit_eq_ok.mpr ⟨hopen, rfl⟩)
  | false =>
    have hrefused : (w.bus b).emit me s = .error .disconnected := by
      simp [Bus.emit, Bus.checkOpen, hopen, bind, Except.bind]
    simp [emission, hs, broadcast, hrefused, Except.isOk, Except.toBool]

/-! ## 4. The account of a run -/

/-- How the signals on the bus `b` are delivered when the moves `ms` are made from `w` on. -/
structure DeliversOnce (b : Nat) (w : World) (ms : List Move) : Prop where
  /-- What the delivery task of a connection has handed out is a front part of the history of the
  connection's queue, also in the middle of a poll, when it has handed out `n` more. -/
  inOrder (c : String) (n : Nat) :
    observe (handed b c) w ms ++ (((w.run ms).bus b).queue c).take n
      <+: (observe (entries b c) w ms).map Entry.delivery
  /-- What is missing stands in the queue, -/
  complete (c : String) :
    observe (handed b c) w ms ++ ((w.run ms).bus b).queue c
      = (observe (entries b c) w ms).map Entry.delivery
  /-- and nothing is missing when no task can run. -/
  idle (c : String) (h : (w.run ms).ready = []) :
    observe (handed b c) w ms = (observe (entries b c) w ms).map Entry.delivery
  /-- A poll of the delivery task lets the sinks receive what it hands out, in order. -/
  received (before after : List Move) (t : Nat) (c : String) (hms : ms = before ++ .poll t :: after)
    (ht : (w.run before).tasks.get? t = some (.deliver b c)) :
    (w.run before).act (.poll t)
      = (((w.run before).handed b c (.poll t)).foldl (fun v d => v.receive d.1 d.2)
          (((w.run before).taken t).setBus b (((w.run before).bus b).drain c).1)).closeUnheld
  /-- Every connection has such a task. -/
  staffed (c : String) (hc : c ∈ ((w.run ms).bus b).connectionNames) :
    ∃ t, (w.run ms).tasks.get? t = some (.deliver b c)
  /-- A broadcast through a connection of the bus succeeds just if the connection is open. -/
  emitted (before after : List Move) (m : Move) (me : String) (s : SignalMessage)
    (hms : ms = before ++ m :: after)
    (hs : (w.run before).broadcasting m = some (.bus b me, s)) :
    (w.run before).emission b m
      = if ((w.run before).bus b).isOpen me then some { s with sender := me } else none
  /-- A signal that is broadcast comes into the history of an open connection once for each of the
  connection's subscriptions that admit it at that moment, and for no other one. -/
  matched (before after : List Move) (m : Move) (s : SignalMessage) (c : String)
    (hms : ms = before ++ m :: after) (hs : (w.run before).emission b m = some s) :
    (((w.run before).entries b c m).map (·.subscription.id)).Nodup ∧
      ∀ e, e ∈ (w.run before).entries b c m ↔
        e.message = s ∧ e.subscription ∈ ((w.run before).bus b).subscriptions ∧
          e.subscription.owner = c ∧ ((w.run before).bus b).isOpen c = true ∧
          ((w.run before).bus b).Admits e.subscription.rule s
  /-- Nothing else comes into a history. -/
  silent (before after : List Move) (m : Move) (c : String) (hms : ms = before ++ m :: after)
    (hs : (w.run before).emission b m = none) : (w.run before).entries b c m = []
  /-- Nothing comes through a subscription before it is made, -/
  unmade (before mid after : List Move) (x : Subscription Sink) (c : String)
    (hms : ms = before ++ mid ++ after) (hlater : x ∈ ((w.run (before ++ mid)).bus b).subscriptions)
    (hnot : x ∉ ((w.run before).bus b).subscriptions) :
    ∀ e ∈ observe (entries b c) w before, e.subscription.id ≠ x.id
  /-- or after it has been removed, -/
  unsubscribed (before after : List Move) (me : String) (id : Nat) (c : String)
    (hms : ms = before ++ .arrange (.unsubscribe (.bus b me) id) :: after)
    (hid : id < ((w.run before).bus b).nextId) :
    ∀ e ∈ observe (entries b c) ((w.run before).act (.arrange (.unsubscribe (.bus b me) id))) after,
      e.subscription.id ≠ id
  /-- or its connection has been closed, -/
  closed (before after : List Move) (me : String) (x : Subscription Sink) (c : String)
    (hms : ms = before ++ .arrange (.close b me) :: after)
    (hopen : ((w.run before).bus b).isOpen me = true)
    (hx : x ∈ ((w.run before).bus b).subscriptions) (howner : x.owner = me) :
    ∀ e ∈ observe (entries b c) ((w.run before).act (.arrange (.close b me))) after,
      e.subscription.id ≠ x.id
  /-- or it has gone in any other way. -/
  gone (before after : List Move) (id : Nat) (c : String) (hms : ms = before ++ after)
    (hid : id < ((w.run before).bus b).nextId)
    (hgone : ∀ s ∈ ((w.run before).bus b).subscriptions, s.id ≠ id) :
    ∀ e ∈ observe (entries b c) (w.run before) after, e.subscription.id ≠ id

/-- **Signals are delivered once, and in order**, from the time on at which a bus has been opened
and nothing is connected to it yet. -/
theorem signals_delivered_once (before : List Move) (b : Nat)
    (hb : b < (empty.run before).buses.size) (hnew : ((empty.run before).bus b).connections = [])
    (ms : List Move) : DeliversOnce b (empty.run before) ms := by
  have hw := orderly_run before
  have h := attended_run b before
  have hqueue : ∀ c, ((empty.run before).bus b).queue c = [] := by
    intro c
    simp [Bus.queue, Bus.drain, hnew]
  generalize empty.run before = w at hb hw h hqueue
  have hcomplete : ∀ c, observe (handed b c) w ms ++ ((w.run ms).bus b).queue c
      = (observe (entries b c) w ms).map Entry.delivery := by
    intro c
    rw [queue_run ms hb h hw c, hqueue, List.nil_append]
  constructor
  · intro c n
    rw [← hcomplete c]
    exact (List.prefix_append_right_inj _).mpr (List.take_prefix n _)
  · exact hcomplete
  · intro c hidle
    rw [← hcomplete c, (h.run hw ms).idle hidle, List.append_nil]
  · intro before after t c _ ht
    rw [act_poll ht, handed_deliver ht, if_pos rfl]
    rfl
  · exact (h.run hw ms).staffed
  · intro before after m me s _ hs
    exact emission_eq hs
  · intro before after m s c _ hs
    refine ⟨?_, fun e => mem_entries hs⟩
    rw [entries, hs, List.map_map]
    exact (h.run hw before).orderly.nodup_takers c s
  · intro before after m c _ hs
    exact entries_of_no_emission hs c
  · intro before mid after x c _ hlater hnot e he
    have holder := entries_older hb h hw he
    have hages := ages_run mid (count_run before hb) (h.run hw before)
      ((later_run before hw).orderly hw)
    rw [run_append] at hlater
    exact Nat.ne_of_lt (Nat.lt_of_lt_of_le holder
      ((hages.subscriptions x hlater).resolve_left hnot))
  · intro before after me id c _ hid e he
    have hbefore := h.run hw before
    have hwbefore := (later_run before hw).orderly hw
    have hages := ages_act (count_run before hb) hbefore.orderly
      (.arrange (.unsubscribe (.bus b me) id))
    exact entries_gone (count_act (count_run before hb) _) (hbefore.act hwbefore _)
      (orderly_act hwbefore _) (Nat.lt_of_lt_of_le hid hages.nextId)
      (unsubscribe_gone _ b me id) he
  · intro before after me x c _ hopen hx howner e he
    have hbefore := h.run hw before
    have hwbefore := (later_run before hw).orderly hw
    have hages := ages_act (count_run before hb) hbefore.orderly (.arrange (.close b me))
    have hid := hbefore.orderly.idsGiven x hx
    exact entries_gone (count_act (count_run before hb) _) (hbefore.act hwbefore _)
      (orderly_act hwbefore _) (Nat.lt_of_lt_of_le hid hages.nextId)
      (close_gone hbefore.orderly hopen hx howner) he
  · intro before after id c _ hid hgone e he
    exact entries_gone (count_run before hb) (h.run hw before)
      ((later_run before hw).orderly hw) hid hgone he

/-! ## 5. A signal that is heard -/

/-- One connection subscribes to what comes from a path, another broadcasts two signals, of which
the second comes from elsewhere, and everything is handed out. -/
def pingMoves : List Move :=
  [.arrange (.connect 0), .arrange (.connect 0),
    .arrange (.subscribe (.bus 0 ":1.2")
      { sender := some ":1.1", path := some "/ping", interface := none, member := none } "heard"),
    .arrange (.broadcast (.bus 0 ":1.1") ⟨"", "/ping", "org.example.Ping", "Pinged", none⟩),
    .arrange (.broadcast (.bus 0 ":1.1") ⟨"", "/pong", "org.example.Ping", "Pinged", none⟩),
    .poll 0, .poll 1]

/-- The subscriber hears the one signal, and nothing is left to do. -/
theorem signals_delivered_once_ping :
    0 < (empty.run [.arrange (.addBus 25000)]).buses.size ∧
      ((empty.run [.arrange (.addBus 25000)]).bus 0).connections = [] ∧
      DeliversOnce 0 (empty.run [.arrange (.addBus 25000)]) pingMoves ∧
      ((empty.run [.arrange (.addBus 25000)]).run pingMoves).ready = [] ∧
      observe (handed 0 ":1.2") (empty.run [.arrange (.addBus 25000)]) pingMoves
        = [(.recorder "heard", ⟨":1.1", "/ping", "org.example.Ping", "Pinged", none⟩)] :=
  ⟨by decide, rfl, signals_delivered_once _ 0 (by decide) rfl pingMoves, by decide +kernel, by rfl⟩

end MessageBus.World
