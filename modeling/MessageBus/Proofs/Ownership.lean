/-
# Who owns what on a bus

Names, objects, queues and subscriptions of a bus belong to connections.  `Bus.ownership_kept` says
of every state that a bus can be in that what belongs to somebody belongs to an open connection, how
names come and go, and what goes when a connection closes.  A connection is open if it was opened
and has not been closed since, so all of this is said about the past (`OpenSince`); and a
destination stands for an open connection only, although the names are looked up without another
check.

Subscriptions are the exception.  Closing removes those of the connection, but `subscribe` does not
ask whether the connection is open, and what it adds for a closed one stays.
`World.subscribers_open` says that this is the only way: as long as nobody subscribes, or makes a
proxy, through a connection that is not open, all subscriptions are those of open connections.
-/
import MessageBus.Proofs.Dealings

namespace MessageBus

namespace Bus

variable {η σ : Type} {b b' : Bus η σ}

/-! ## 1. Names -/

theorem ownName_iff {me name : String} : (∃ b', b.ownName me name = .ok b') ↔
    b.isOpen me = true ∧ (b.names.get? name = none ∨ b.names.get? name = some me) := by
  simp only [ownName_eq_ok]
  constructor
  · rintro ⟨b', hopen, ⟨hfree, -⟩ | ⟨hown, -⟩⟩
    · exact ⟨hopen, Or.inl hfree⟩
    · exact ⟨hopen, Or.inr hown⟩
  · rintro ⟨hopen, hfree | hown⟩
    · exact ⟨_, hopen, Or.inl ⟨hfree, rfl⟩⟩
    · exact ⟨_, hopen, Or.inr ⟨hown, rfl⟩⟩

/-- Whoever takes a name changes this one entry. -/
theorem ownName_entry {me name : String} (h : b.ownName me name = .ok b') :
    b' = { b with names := b'.names } ∧
      ∀ n, b'.names.get? n = if name = n then some me else b.names.get? n := by
  obtain ⟨-, ⟨-, rfl⟩ | ⟨hown, rfl⟩⟩ := ownName_eq_ok.mp h
  · exact ⟨rfl, fun n => Table.get?_insert _ _ _ _⟩
  · refine ⟨rfl, fun n => ?_⟩
    split
    · rename_i heq
      exact heq ▸ hown
    · rfl

theorem releaseName_iff {me name : String} :
    (b.releaseName me name).2 = true ↔ b.names.get? name = some me := by
  unfold releaseName
  split <;> simp_all

/-- Whoever gives a name up changes this one entry, -/
theorem releaseName_entry {me name : String} (h : (b.releaseName me name).2 = true) :
    (b.releaseName me name).1 = { b with names := (b.releaseName me name).1.names } ∧
      ∀ n, (b.releaseName me name).1.names.get? n
        = if name = n then none else b.names.get? n := by
  rw [releaseName, if_pos (releaseName_iff.mp h)]
  exact ⟨rfl, fun n => Table.get?_erase _ _ _⟩

/-- and if it is not one's own, nothing. -/
theorem releaseName_refused {me name : String} (h : (b.releaseName me name).2 = false) :
    (b.releaseName me name).1 = b := by
  have hown : b.names.get? name ≠ some me := fun hown => by
    rw [releaseName_iff.mpr hown] at h
    cases h
  rw [releaseName, if_neg hown]

/-! ## 2. Queues -/

/-- A signal for a connection that is not open is dropped. -/
theorem enqueue_closed {s : Subscription σ} (h : b.isOpen s.owner = false) (m : SignalMessage) :
    enqueue m b s = b := by
  have hmap : b.connections.map (fun c =>
      if c.isOpen && c.name = s.owner then { c with queue := c.queue ++ [(s.sink, m)] } else c)
        = b.connections := by
    refine (List.map_congr_left fun c hc => ?_).trans (List.map_id _)
    have hnot : (c.isOpen && c.name = s.owner) = false := by
      rw [isOpen, List.any_eq_false] at h
      simpa using h c hc
    rw [hnot]
    rfl
  rw [enqueue, hmap]

/-! ## 3. Closing -/

theorem close_of_not_open {me : String} (h : b.isOpen me = false) : b.close me = b := by
  rw [close, h]
  rfl

/-- What is left of a bus when the connection `me` is gone. -/
structure Without (b : Bus η σ) (me : String) (b' : Bus η σ) : Prop where
  isOpen (c : String) : b'.isOpen c = true ↔ b.isOpen c = true ∧ me ≠ c
  names (n : String) : b'.names.get? n = (b.names.get? n).filter (· ≠ me)
  objects (key : ObjectKey) :
    b'.objects.get? key = if key.owner = me then none else b.objects.get? key
  subscriptions : b'.subscriptions = b.subscriptions.filter (·.owner ≠ me)
  /-- What is on its way is still delivered. -/
  queue (c : String) : b'.queue c = b.queue c
  counters : b'.callTimeout = b.callTimeout ∧ b'.nextConnection = b.nextConnection ∧
    b'.nextId = b.nextId

theorem Owned.without (h : b.Owned) {me : String} (hopen : b.isOpen me = true) :
    b.Without me (b.close me) := by
  refine ⟨isOpen_close b me, fun n => ?_, fun key => ?_, ?_, (still_close b me).queue, ?_⟩ <;>
    rw [Bus.close, if_pos hopen]
  · exact h.namesDistinct.get?_filter _ n
  · refine (h.objectsDistinct.get?_filter _ key).trans ?_
    by_cases hkey : key.owner = me
    · simp [hkey]
    · cases b.objects.get? key <;> simp [Option.filter, hkey]
  · exact ⟨rfl, rfl, rfl⟩

/-! ## 4. Ownership -/

/-- Who owns what on the bus `b`, to which the operations `ops` have led. -/
structure Ownership (callTimeout : Nat) (ops : List (Operation η σ)) (b : Bus η σ) : Prop where
  /-- A connection has a queue while it is open, and not before or after. -/
  isOpen (c : String) : b.isOpen c = true ↔ OpenSince callTimeout ops c
  queued (m : SignalMessage) (s : Subscription σ) (h : OpenSince callTimeout ops s.owner) :
    (enqueue m b s).queue s.owner = b.queue s.owner ++ [(s.sink, m)]
  unqueued (m : SignalMessage) (s : Subscription σ) (h : ¬ OpenSince callTimeout ops s.owner) :
    enqueue m b s = b
  /-- Unique names are given once. -/
  namesOnce (before mid after : List (Operation η σ))
    (hops : ops = before ++ .connect :: (mid ++ .connect :: after)) :
    ((empty callTimeout : Bus η σ).run before).connect.2
      ≠ ((empty callTimeout : Bus η σ).run (before ++ .connect :: mid)).connect.2
  /-- Names and objects are those of open connections. -/
  names : ∀ owner ∈ b.names.values, OpenSince callTimeout ops owner
  objects : ∀ key ∈ b.objects.keys, OpenSince callTimeout ops key.owner
  /-- An open connection can take a name that is free or its own, and changes no other entry, -/
  owns (me name : String) : (∃ b', b.ownName me name = .ok b') ↔
    OpenSince callTimeout ops me ∧ (b.names.get? name = none ∨ b.names.get? name = some me)
  owned (me name : String) (b' : Bus η σ) (h : b.ownName me name = .ok b') :
    b' = { b with names := b'.names } ∧
      ∀ n, b'.names.get? n = if name = n then some me else b.names.get? n
  /-- and nothing at all if it cannot. -/
  notOwned (me name : String) (h : ∀ b', b.ownName me name ≠ .ok b') :
    b.apply (.ownName me name) = b
  /-- The owner of a name can give it up, and changes no other entry; nobody else can. -/
  releases (me name : String) :
    (b.releaseName me name).2 = true ↔ b.names.get? name = some me
  released (me name : String) (h : (b.releaseName me name).2 = true) :
    (b.releaseName me name).1 = { b with names := (b.releaseName me name).1.names } ∧
      ∀ n, (b.releaseName me name).1.names.get? n = if name = n then none else b.names.get? n
  notReleased (me name : String) (h : (b.releaseName me name).2 = false) :
    (b.releaseName me name).1 = b
  /-- What is the connection's goes when it closes, and nothing else. -/
  closed (me : String) (h : OpenSince callTimeout ops me) : b.Without me (b.close me)
  notClosed (me : String) (h : ¬ OpenSince callTimeout ops me) : b.close me = b
  closedTwice (me : String) : (b.close me).close me = b.close me
  /-- A name with a colon stands for itself while it is open, another for its owner, -/
  resolves (name c : String) : b.resolve name = some c ↔
    isUniqueName name = true ∧ c = name ∧ OpenSince callTimeout ops name ∨
      isUniqueName name = false ∧ b.names.get? name = some c
  /-- and this is always an open connection. -/
  resolvesOpen (name c : String) (h : b.resolve name = some c) : OpenSince callTimeout ops c

theorem resolve_iff {name c : String} : b.resolve name = some c ↔
    isUniqueName name = true ∧ c = name ∧ b.isOpen name = true ∨
      isUniqueName name = false ∧ b.names.get? name = some c := by
  unfold resolve
  cases isUniqueName name
  · simp
  · cases b.isOpen name <;> simp [eq_comm]

theorem close_close (b : Bus η σ) (me : String) : (b.close me).close me = b.close me := by
  refine close_of_not_open ?_
  rw [← Bool.not_eq_true, isOpen_close]
  exact fun h => h.2 rfl

/-- Connections of different times have different names. -/
theorem connect_ne (callTimeout : Nat) (before mid : List (Operation η σ)) :
    ((empty callTimeout : Bus η σ).run before).connect.2
      ≠ ((empty callTimeout : Bus η σ).run (before ++ .connect :: mid)).connect.2 := by
  have hnew := (orderly_run callTimeout (before ++ .connect :: mid)).connect_new
  rw [run_append, run_cons] at hnew ⊢
  intro heq
  refine hnew (heq ▸ mem_connectionNames_run ?_ mid)
  rw [apply, connectionNames_connect]
  exact List.mem_append_right _ (List.mem_singleton_self _)

theorem ownership_run (callTimeout : Nat) (ops : List (Operation η σ)) :
    Ownership callTimeout ops ((empty callTimeout).run ops) := by
  have hopen := isOpen_run (η := η) (σ := σ) callTimeout ops
  have hnot : ∀ c, ¬ OpenSince callTimeout ops c →
      ((empty callTimeout : Bus η σ).run ops).isOpen c = false := fun c h => by
    rw [← Bool.not_eq_true, hopen]
    exact h
  have howned := owned_run (η := η) (σ := σ) callTimeout ops
  have horderly := orderly_run (η := η) (σ := σ) callTimeout ops
  generalize (empty callTimeout : Bus η σ).run ops = b at hopen hnot howned horderly
  constructor
  · exact hopen
  · intro m s h
    rw [queue_enqueue m s horderly, if_pos ⟨rfl, (hopen _).mpr h⟩]
  · exact fun m s h => enqueue_closed (hnot _ h) m
  · exact fun before mid _ _ => connect_ne callTimeout before mid
  · exact fun owner howner => (hopen owner).mp (howned.names owner howner)
  · exact fun key hkey => (hopen key.owner).mp (howned.objects key hkey)
  · intro me name
    rw [ownName_iff, hopen]
  · exact fun me name b' h => ownName_entry h
  · intro me name h
    cases hown : b.ownName me name with
    | ok b' => exact absurd hown (h b')
    | error e => simp only [apply, hown]; rfl
  · exact fun me name => releaseName_iff
  · exact fun me name h => releaseName_entry h
  · exact fun me name h => releaseName_refused h
  · exact fun me h => howned.without ((hopen me).mpr h)
  · exact fun me h => close_of_not_open (hnot me h)
  · exact close_close b
  · intro name c
    rw [resolve_iff, hopen]
  · intro name c h
    rcases resolve_iff.mp h with ⟨-, rfl, hself⟩ | ⟨-, howner⟩
    · exact (hopen c).mp hself
    · exact (hopen c).mp (howned.names c (Table.mem_values_of_get? howner))

/-- **What belongs to somebody belongs to an open connection**, after all operations on any bus, and
on every bus of a world after all moves. -/
theorem ownership_kept :
    (∀ (η σ : Type) (callTimeout : Nat) (ops : List (Operation η σ)),
      Ownership callTimeout ops ((empty callTimeout).run ops)) ∧
    ∀ (ms : List Move) (n : Nat), ∃ callTimeout ops,
      Ownership callTimeout ops ((World.empty.run ms).bus n) := by
  refine ⟨fun η σ => ownership_run, fun ms n => ?_⟩
  obtain ⟨callTimeout, ops, hbus⟩ := World.reached_by_operations ms n
  exact ⟨callTimeout, ops, hbus ▸ ownership_run callTimeout ops⟩

end Bus

/-! ## 5. Subscriptions -/

namespace World

variable {w : World} {b : Nat}

/-- The subscription that a move makes on the bus `b`. -/
def made (b : Nat) (w : World) : Move → List (Subscription Sink)
  | .arrange (.subscribe (.bus n me) rule label) =>
    if n = b then [⟨(w.bus b).nextId, me, rule, .recorder label⟩] else []
  | .arrange (.addProxy _ (.bus n me) i name path _ _ _) =>
    if n = b then
      [⟨(w.bus b).nextId, me, Proxy.rule { name, path, interface := i.name },
        .proxy w.proxies.size⟩]
    else []
  | _ => []

/-- The subscription that a move makes through a connection that is not open. -/
def late (b : Nat) (w : World) (m : Move) : List (Subscription Sink) :=
  (w.made b m).filter fun s => !(w.bus b).isOpen s.owner

/-- What a move that subscribes does: the subscription that it makes is the last one then. -/
theorem open_or_late_made {m : Move} {old new : List (Subscription Sink)}
    {made : Subscription Sink} (hmade : w.made b m = [made])
    (hnew : ((w.act m).bus b).subscriptions = (w.bus b).subscriptions ++ [made])
    (hopen : ∀ c, ((w.act m).bus b).isOpen c = (w.bus b).isOpen c)
    (ih : ∀ s ∈ (w.bus b).subscriptions, (w.bus b).isOpen s.owner = true ∨ s ∈ old)
    (hold : new = old ++ w.late b m) :
    ∀ s ∈ ((w.act m).bus b).subscriptions,
      ((w.act m).bus b).isOpen s.owner = true ∨ s ∈ new := by
  intro s hs
  rw [hnew, List.mem_append, List.mem_singleton] at hs
  rw [hopen, hold, List.mem_append]
  rcases hs with hs | rfl
  · exact (ih s hs).imp_right Or.inl
  · cases hs : (w.bus b).isOpen s.owner with
    | true => exact Or.inl rfl
    | false => exact Or.inr (Or.inr (by simp [late, hmade, hs]))

/-- **A subscription is that of an open connection, or it was made while the connection was not
open**, by induction on the moves. -/
theorem open_or_late (ms : List Move) (b : Nat) :
    ∀ s ∈ ((empty.run ms).bus b).subscriptions,
      ((empty.run ms).bus b).isOpen s.owner = true ∨ s ∈ observe (late b) empty ms := by
  induction ms using List.reverseRecOn with
  | nil => simp [empty, bus, Table.empty, Table.get?, Table.find, Bus.empty]
  | append_singleton ms m ih =>
    have hordered : ((empty.run ms).bus b).Orderly := by
      obtain ⟨callTimeout, ops, hbus⟩ := reached_by_operations ms b
      exact hbus ▸ Bus.orderly_run callTimeout ops
    have hobserve : observe (late b) empty (ms ++ [m])
        = observe (late b) empty ms ++ (empty.run ms).late b m := by
      rw [observe_append, observe_cons, observe_nil, List.append_nil]
    rw [run_append, run_cons, run_nil]
    generalize observe (late b) empty ms = old at ih hobserve
    generalize observe (late b) empty (ms ++ [m]) = new at hobserve
    -- Where subscriptions at most go, those that stay have the owners that they had.
    have htrims : ∀ {x y : Bus Nat Sink}, x.Orderly → x.Becomes y →
        (∀ s ∈ x.subscriptions, x.isOpen s.owner = true ∨ s ∈ old) →
        ∀ s ∈ y.subscriptions, y.isOpen s.owner = true ∨ s ∈ new := by
      rintro x y hx ⟨ops, hops, rfl⟩ hold s hs
      have htrims := Bus.trims_run ops hx hops
      rcases hold s (htrims.older s hs) with hopen | hlate
      · exact Or.inl (htrims.stays s hs hopen)
      · exact Or.inr (hobserve ▸ List.mem_append_left _ hlate)
    have hunsubscribe : ∀ id, ∀ s ∈ (((empty.run ms).bus b).unsubscribe id).subscriptions,
        ((empty.run ms).bus b).isOpen s.owner = true ∨ s ∈ old := fun id s hs =>
      ih s (List.mem_filter.mp hs).1
    cases dealing_act (orderly_run ms) b m with
    | @opened callTimeout hb =>
      have hbus : ((empty.run ms).act (.arrange (.addBus callTimeout))).bus b
          = .empty callTimeout := by
        rw [hb]
        exact bus_of_setBus rfl
      rw [hbus]
      simp [Bus.empty]
    | aside h => exact htrims hordered h.bus ih
    | subscribe =>
      exact open_or_late_made (if_pos rfl) (by rw [bus_subscribed]; rfl)
        (fun _ => by rw [bus_subscribed]; rfl) ih hobserve
    | @unsubscribe me id =>
      rw [bus_unsubscribed]
      exact htrims ((Bus.still_unsubscribe _ id).orderly hordered) (.refl _) (hunsubscribe id)
    | addProxy =>
      exact open_or_late_made (if_pos rfl) (by rw [bus_addProxy]; rfl)
        (fun _ => by rw [bus_addProxy]; rfl) ih hobserve
    | @dropProxy id p me hp hlink =>
      exact htrims ((Bus.still_unsubscribe _ p.subscription).orderly hordered)
        (bus_dropProxy hp hlink) (hunsubscribe p.subscription)

/-- **All subscriptions are those of open connections**, as long as nobody subscribes, or makes a
proxy, through a connection that is not open. -/
theorem subscribers_open (ms : List Move) (b : Nat) (h : observe (late b) empty ms = []) :
    ∀ s ∈ ((empty.run ms).bus b).subscriptions,
      ((empty.run ms).bus b).isOpen s.owner = true := by
  intro s hs
  refine (open_or_late ms b s hs).resolve_right ?_
  rw [h]
  exact List.not_mem_nil

/-- An interface without members. -/
def bareInterface : Interface := ⟨"org.example.Ping", [], [], [], []⟩

/-- Two connections, one of which subscribes, makes a proxy and closes. -/
def leavingMoves : List Move :=
  [.arrange (.addBus 25000), .arrange (.connect 0), .arrange (.connect 0),
    .arrange (.subscribe (.bus 0 ":1.1") ⟨none, none, none, none⟩ "all"),
    .arrange (.subscribe (.bus 0 ":1.2") ⟨none, none, none, none⟩ "all"),
    .arrange (.addProxy "p" (.bus 0 ":1.1") bareInterface ":1.2" "/ping" none .none .full),
    .arrange (.close 0 ":1.1")]

/-- The other's subscription is left. -/
theorem subscribers_open_leaving :
    observe (late 0) empty leavingMoves = [] ∧
      (∀ s ∈ ((empty.run leavingMoves).bus 0).subscriptions,
        ((empty.run leavingMoves).bus 0).isOpen s.owner = true) ∧
      ((empty.run leavingMoves).bus 0).subscriptions.map (·.owner) = [":1.2"] :=
  ⟨by rfl, subscribers_open leavingMoves 0 (by rfl), by rfl⟩

/-- The same, but then a recorder subscribes through the connection that has closed, a proxy is made
there, and it is closed once more. -/
def lateMoves : List Move :=
  leavingMoves ++
    [.arrange (.subscribe (.bus 0 ":1.1") ⟨none, none, none, none⟩ "late"),
      .arrange (.addProxy "q" (.bus 0 ":1.1") bareInterface ":1.2" "/ping" none .none .full),
      .arrange (.close 0 ":1.1")]

/-- Both subscriptions stay, although their connection is closed. -/
theorem closed_subscriber :
    ((empty.run lateMoves).bus 0).subscriptions.map (·.owner) = [":1.2", ":1.1", ":1.1"] ∧
      ((empty.run lateMoves).bus 0).isOpen ":1.1" = false ∧
      ¬ ∀ (ms : List Move) (b : Nat), ∀ s ∈ ((empty.run ms).bus b).subscriptions,
        ((empty.run ms).bus b).isOpen s.owner = true := by
  have howners : ((empty.run lateMoves).bus 0).subscriptions.map (·.owner)
      = [":1.2", ":1.1", ":1.1"] := by rfl
  have hclosed : ((empty.run lateMoves).bus 0).isOpen ":1.1" = false := by decide +kernel
  refine ⟨howners, hclosed, fun h => ?_⟩
  have hmem : ":1.1" ∈ ((empty.run lateMoves).bus 0).subscriptions.map (·.owner) := by
    rw [howners]
    simp
  obtain ⟨s, hs, howner⟩ := List.mem_map.mp hmem
  have hopen := h lateMoves 0 s hs
  rw [howner, hclosed] at hopen
  cases hopen

end World

end MessageBus
