/-
# The queues of a bus

A signal goes into the queues of connections when it is broadcast and leaves a queue when that is
handed out.  Nothing else that happens on a bus moves a signal, and this module says so operation by
operation.

* A change by which no signal moves leaves every queue as it is (`Bus.Still`).  Names, objects,
subscriptions and whether a connection is open may change.
* A broadcast puts one entry for each subscription that admits it behind what is in the queue of the
subscription's connection, if that is open (`Bus.queue_emit`).  Which subscriptions these are is
said anew (`Bus.Admits`), without the functions that the bus looks for them with.
* Handing out empties one queue (`Bus.queue_drain`).

All of this is about single queues only because a unique name stands for one connection
(`Bus.Orderly`).  The same invariant says that a number stands for one subscription, and what a bus
does with its subscriptions as it ages is `Bus.Ages`: a number that has been given never comes to
stand for another one.
-/
import MessageBus.Proofs.Surroundings

namespace MessageBus.Bus

variable {η σ : Type} {b b' b'' : Bus η σ}

/-! ## 1. Buses in order -/

/-- Different connections have different unique names. -/
theorem uniqueName_inj {m n : Nat} (h : uniqueName m = uniqueName n) : m = n := by
  have hrepr : Nat.repr m = Nat.repr n := (String.append_right_inj _).mp h
  have hdigits : Nat.toDigits 10 m = Nat.toDigits 10 n := String.ofList_injective hrepr
  have hvalue := congrArg (fun cs => Nat.ofDigitChars 10 cs 0) hdigits
  simpa only [Nat.ofDigitChars_ten_toDigits] using hvalue

/-- The unique names of all connections, open or not. -/
def connectionNames (b : Bus η σ) : List String := b.connections.map (·.name)

/-- A unique name stands for one connection, and a number for one subscription. -/
structure Orderly (b : Bus η σ) : Prop where
  namesDistinct : b.connectionNames.Nodup
  namesGiven : ∀ c ∈ b.connectionNames, ∃ n < b.nextConnection, c = uniqueName n
  idsDistinct : (b.subscriptions.map (·.id)).Nodup
  idsGiven : ∀ s ∈ b.subscriptions, s.id < b.nextId

theorem orderly_empty (callTimeout : Nat) : (empty callTimeout : Bus η σ).Orderly where
  namesDistinct := List.nodup_nil
  namesGiven := by simp [connectionNames, empty]
  idsDistinct := List.nodup_nil
  idsGiven := by simp [empty]

/-- What becomes of the subscriptions of a bus: those that come have new numbers. -/
structure Ages (b b' : Bus η σ) : Prop where
  nextId : b.nextId ≤ b'.nextId
  subscriptions : ∀ s ∈ b'.subscriptions, s ∈ b.subscriptions ∨ b.nextId ≤ s.id
  orderly : b.Orderly → b'.Orderly

theorem Ages.refl (b : Bus η σ) : b.Ages b where
  nextId := Nat.le_refl _
  subscriptions := fun _ h => Or.inl h
  orderly := id

theorem Ages.trans (h : b.Ages b') (h' : b'.Ages b'') : b.Ages b'' where
  nextId := Nat.le_trans h.nextId h'.nextId
  subscriptions := by
    intro s hs
    rcases h'.subscriptions s hs with hs | hs
    · exact h.subscriptions s hs
    · exact Or.inr (Nat.le_trans h.nextId hs)
  orderly := fun ho => h'.orderly (h.orderly ho)

/-- A bus ages if no connection comes and subscriptions at most go. -/
theorem Ages.of_frame (hnames : b'.connectionNames = b.connectionNames)
    (hconnection : b'.nextConnection = b.nextConnection) (hid : b.nextId ≤ b'.nextId)
    (hsubscriptions : b'.subscriptions.Sublist b.subscriptions) : b.Ages b' where
  nextId := hid
  subscriptions := fun _ hs => Or.inl (hsubscriptions.subset hs)
  orderly := fun ho =>
    { namesDistinct := by rw [hnames]; exact ho.namesDistinct
      namesGiven := by rw [hnames, hconnection]; exact ho.namesGiven
      idsDistinct := ho.idsDistinct.sublist (hsubscriptions.map _)
      idsGiven := fun s hs => Nat.lt_of_lt_of_le (ho.idsGiven s (hsubscriptions.subset hs)) hid }

/-! ## 2. Queues -/

/-- What is on its way to a connection, first come first. -/
def queue (b : Bus η σ) (c : String) : List (σ × SignalMessage) := (b.drain c).2

/-- No signal moves. -/
structure Still (b b' : Bus η σ) : Prop extends Ages b b' where
  queue : ∀ c, b'.queue c = b.queue c
  names : b'.connectionNames = b.connectionNames

theorem Still.refl (b : Bus η σ) : b.Still b :=
  { Ages.refl b with queue := fun _ => rfl, names := rfl }

theorem Still.trans (h : b.Still b') (h' : b'.Still b'') : b.Still b'' :=
  { h.toAges.trans h'.toAges with
    queue := fun c => (h'.queue c).trans (h.queue c)
    names := h'.names.trans h.names }

/-- Connections stay what they are, and subscriptions at most go. -/
theorem Still.of_frame (hconnections : b'.connections = b.connections)
    (hconnection : b'.nextConnection = b.nextConnection) (hid : b.nextId ≤ b'.nextId)
    (hsubscriptions : b'.subscriptions.Sublist b.subscriptions) : b.Still b' :=
  have hnames : b'.connectionNames = b.connectionNames := by
    rw [connectionNames, hconnections, connectionNames]
  { Ages.of_frame hnames hconnection hid hsubscriptions with
    queue := fun c => by simp only [Bus.queue, drain, hconnections]
    names := hnames }

section Mapped

variable {f : Connection σ → Connection σ}

/-- A change of each connection that keeps their names. -/
theorem connectionNames_map (hf : ∀ x, (f x).name = x.name) (b : Bus η σ) :
    connectionNames { b with connections := b.connections.map f } = b.connectionNames := by
  simp [connectionNames, hf, Function.comp_def]

theorem queue_map (hf : ∀ x, (f x).name = x.name) (b : Bus η σ) (c : String) :
    queue { b with connections := b.connections.map f } c
      = (b.connections.filter (·.name = c)).flatMap fun x => (f x).queue := by
  simp only [queue, drain, List.filter_map, List.flatMap_map, Function.comp_def, hf]

end Mapped

/-- In a bus in order there is at most one connection of a name, and whether the name is that of an
open one is whether this one is open. -/
theorem Orderly.named (h : b.Orderly) (c : String) :
    (b.connections.filter (·.name = c) = [] ∧ b.isOpen c = false) ∨
      ∃ x, b.connections.filter (·.name = c) = [x] ∧ x.name = c ∧ b.isOpen c = x.isOpen := by
  have hopen : b.isOpen c = (b.connections.filter (·.name = c)).any (·.isOpen) := by
    simp only [isOpen, List.any_filter, Bool.and_comm]
  have hdistinct : ((b.connections.filter (·.name = c)).map (·.name)).Nodup :=
    h.namesDistinct.sublist (List.filter_sublist.map _)
  have hname : ∀ x ∈ b.connections.filter (·.name = c), x.name = c := fun x hx =>
    of_decide_eq_true (List.mem_filter.mp hx).2
  generalize b.connections.filter (·.name = c) = l at hopen hdistinct hname
  match l with
  | [] => exact Or.inl ⟨rfl, hopen⟩
  | [x] => exact Or.inr ⟨x, rfl, hname x (by simp), by simpa using hopen⟩
  | x :: y :: l =>
    have heq : x.name = y.name := (hname x (by simp)).trans (hname y (by simp)).symm
    simp [heq] at hdistinct

/-! ## 3. Operations that move no signal -/

theorem still_ownName {me name : String} (h : b.ownName me name = .ok b') : b.Still b' := by
  unfold ownName at h
  obtain ⟨-, -, h⟩ := bind_eq_ok.1 h
  split at h
  · cases h
    exact .of_frame rfl rfl (Nat.le_refl _) (List.Sublist.refl _)
  · split at h
    · cases h
      exact .refl b
    · cases h

theorem still_releaseName (b : Bus η σ) (me name : String) :
    b.Still (b.releaseName me name).1 := by
  unfold releaseName
  split
  · exact .of_frame rfl rfl (Nat.le_refl _) (List.Sublist.refl _)
  · exact .refl b

theorem still_register {me path interface : String} {handler : η} {id : Nat}
    (h : b.register me path interface handler = .ok (b', id)) : b.Still b' := by
  obtain ⟨-, rfl⟩ := register_eq_ok h
  exact .of_frame rfl rfl (Nat.le_succ _) (List.Sublist.refl _)

theorem still_unregister (b : Bus η σ) (id : Nat) : b.Still (b.unregister id) :=
  .of_frame rfl rfl (Nat.le_refl _) (List.Sublist.refl _)

theorem still_unsubscribe (b : Bus η σ) (id : Nat) : b.Still (b.unsubscribe id) :=
  .of_frame rfl rfl (Nat.le_refl _) List.filter_sublist

/-- A new subscription has a new number. -/
theorem still_subscribe (b : Bus η σ) (me : String) (rule : SignalRule) (sink : σ) :
    b.Still (b.subscribe me rule sink).1 where
  nextId := Nat.le_succ _
  subscriptions := by
    intro s hs
    rcases List.mem_append.mp hs with hs | hs
    · exact Or.inl hs
    · rw [List.mem_singleton.mp hs]
      exact Or.inr (Nat.le_refl _)
  orderly := fun ho =>
    { namesDistinct := ho.namesDistinct
      namesGiven := ho.namesGiven
      idsDistinct := by
        simp only [subscribe, List.map_append, List.map_cons, List.map_nil]
        rw [List.nodup_append]
        refine ⟨ho.idsDistinct, by simp, fun i hi j hj heq => ?_⟩
        obtain ⟨s, hs, rfl⟩ := List.mem_map.mp hi
        rw [List.mem_singleton.mp hj] at heq
        exact absurd heq (Nat.ne_of_lt (ho.idsGiven s hs))
      idsGiven := by
        intro s hs
        rcases List.mem_append.mp hs with hs | hs
        · exact Nat.lt_succ_of_lt (ho.idsGiven s hs)
        · rw [List.mem_singleton.mp hs]
          exact Nat.lt_succ_self _ }
  queue := fun _ => rfl
  names := rfl

/-- What is in the queue of a connection stays there when it closes. -/
theorem still_close (b : Bus η σ) (me : String) : b.Still (b.close me) := by
  unfold close
  split
  · have hname : ∀ x : Connection σ,
        (if x.name = me then { x with isOpen := false } else x).name = x.name := by
      intro x
      split <;> rfl
    have hqueue : ∀ x : Connection σ,
        (if x.name = me then { x with isOpen := false } else x).queue = x.queue := by
      intro x
      split <;> rfl
    have hnames := connectionNames_map hname b
    have hqueues : ∀ c, (b.connections.filter (·.name = c)).flatMap (fun x =>
        (if x.name = me then { x with isOpen := false } else x).queue) = b.queue c := by
      intro c
      simp only [hqueue]
      rfl
    exact
      { toAges := .of_frame hnames rfl (Nat.le_refl _) List.filter_sublist
        queue := fun c => (queue_map hname b c).trans (hqueues c)
        names := hnames }
  · exact .refl b

/-! ## 4. Connecting -/

/-- A new connection has a new name and nothing in its queue. -/
theorem queue_connect (b : Bus η σ) (c : String) : b.connect.1.queue c = b.queue c := by
  simp only [queue, drain, connect, List.filter_append, List.flatMap_append, List.filter_cons,
    List.filter_nil]
  split <;> simp

theorem connectionNames_connect (b : Bus η σ) :
    b.connect.1.connectionNames = b.connectionNames ++ [b.connect.2] := by
  simp [connectionNames, connect]

theorem ages_connect (b : Bus η σ) : b.Ages b.connect.1 where
  nextId := Nat.le_refl _
  subscriptions := fun _ h => Or.inl h
  orderly := fun ho =>
    { namesDistinct := by
        rw [connectionNames_connect, List.nodup_append]
        refine ⟨ho.namesDistinct, by simp, fun c hc d hd heq => ?_⟩
        obtain ⟨n, hn, rfl⟩ := ho.namesGiven c hc
        rw [List.mem_singleton.mp hd] at heq
        exact absurd (uniqueName_inj heq) (Nat.ne_of_lt hn)
      namesGiven := by
        intro c hc
        rw [connectionNames_connect, List.mem_append, List.mem_singleton] at hc
        rcases hc with hc | rfl
        · obtain ⟨n, hn, rfl⟩ := ho.namesGiven c hc
          exact ⟨n, Nat.lt_succ_of_lt hn, rfl⟩
        · exact ⟨b.nextConnection, Nat.lt_succ_self _, rfl⟩
      idsDistinct := ho.idsDistinct
      idsGiven := ho.idsGiven }

/-! ## 5. Broadcasting -/

/-- A rule admits a signal: path, interface and member agree where the rule names one, and the
sender is the one that the rule names, by its unique name or by a well-known name that it owns. -/
def Admits (b : Bus η σ) (r : SignalRule) (m : SignalMessage) : Prop :=
  (∀ p ∈ r.path, p = m.path) ∧ (∀ i ∈ r.interface, i = m.interface) ∧
    (∀ n ∈ r.member, n = m.member) ∧
    ∀ name ∈ r.sender, name = m.sender ∨
      isUniqueName name = false ∧ b.names.get? name = some m.sender

instance (b : Bus η σ) (r : SignalRule) (m : SignalMessage) : Decidable (b.Admits r m) :=
  inferInstanceAs (Decidable (_ ∧ _ ∧ _ ∧ _))

/-- The subscriptions through which a signal comes to a connection. -/
def takers (b : Bus η σ) (c : String) (m : SignalMessage) : List (Subscription σ) :=
  if b.isOpen c then b.subscriptions.filter fun s => s.owner = c ∧ b.Admits s.rule m else []

theorem mem_takers {c : String} {m : SignalMessage} {s : Subscription σ} :
    s ∈ b.takers c m ↔
      s ∈ b.subscriptions ∧ s.owner = c ∧ b.isOpen c = true ∧ b.Admits s.rule m := by
  unfold takers
  split <;> simp_all

/-- No subscription takes a signal twice. -/
theorem Orderly.nodup_takers (h : b.Orderly) (c : String) (m : SignalMessage) :
    ((b.takers c m).map (·.id)).Nodup := by
  unfold takers
  split
  · exact h.idsDistinct.sublist (List.filter_sublist.map _)
  · exact List.nodup_nil

theorem allows_iff {field : Option String} {text : String} :
    SignalRule.allows field text = true ↔ ∀ s ∈ field, s = text := by
  cases field <;> simp [SignalRule.allows]

theorem allowsSender_iff {r : SignalRule} {sender : String} :
    b.allowsSender r sender = true ↔ ∀ name ∈ r.sender, name = sender ∨
      isUniqueName name = false ∧ b.names.get? name = some sender := by
  unfold allowsSender
  cases hs : r.sender with
  | none => simp
  | some name =>
    have hresolve : b.resolve name = some sender →
        name = sender ∨ isUniqueName name = false ∧ b.names.get? name = some sender := by
      intro h
      unfold resolve at h
      split at h
      · split at h
        · exact Or.inl (Option.some.inj h)
        · cases h
      · rename_i hname
        exact Or.inr ⟨by simpa using hname, h⟩
    have howner : isUniqueName name = false → b.resolve name = b.names.get? name := by
      intro h
      simp [resolve, h]
    simp only [Bool.or_eq_true, decide_eq_true_eq, Option.mem_some_iff, forall_eq']
    constructor
    · rintro (h | h)
      · exact Or.inl h
      · exact hresolve h
    · rintro (h | ⟨hname, h⟩)
      · exact Or.inl h
      · exact Or.inr ((howner hname).trans h)

/-- **The subscriptions that a bus looks for are those that admit the signal.** -/
theorem wanting_eq (b : Bus η σ) (m : SignalMessage) :
    b.wanting m = b.subscriptions.filter fun s => b.Admits s.rule m := by
  refine List.filter_congr fun s _ => Bool.eq_iff_iff.mpr ?_
  rw [decide_eq_true_eq]
  simp only [SignalRule.matchesRoute, Bool.and_eq_true, allows_iff, allowsSender_iff, Admits,
    and_assoc]

section Enqueue

variable (m : SignalMessage) (s : Subscription σ)

theorem name_enqueue (x : Connection σ) :
    (if x.isOpen && x.name = s.owner then { x with queue := x.queue ++ [(s.sink, m)] }
      else x).name = x.name := by
  split <;> rfl

theorem connectionNames_enqueue (b : Bus η σ) :
    (enqueue m b s).connectionNames = b.connectionNames :=
  connectionNames_map (name_enqueue m s) b

theorem ages_enqueue (b : Bus η σ) : b.Ages (enqueue m b s) :=
  .of_frame (connectionNames_enqueue m s b) rfl (Nat.le_refl _) (List.Sublist.refl _)

theorem isOpen_enqueue (b : Bus η σ) (c : String) : (enqueue m b s).isOpen c = b.isOpen c := by
  simp only [isOpen, enqueue, List.any_map]
  refine congrArg (List.any b.connections) (funext fun x => ?_)
  simp only [Function.comp_apply]
  split <;> rfl

/-- A signal goes behind what is in the queue. -/
theorem queue_enqueue (h : b.Orderly) (c : String) :
    (enqueue m b s).queue c
      = b.queue c ++ if s.owner = c ∧ b.isOpen c = true then [(s.sink, m)] else [] := by
  refine (queue_map (name_enqueue m s) b c).trans ?_
  rcases h.named c with ⟨hnone, hopen⟩ | ⟨x, hone, hname, hopen⟩
  · simp [queue, drain, hnone, hopen]
  · simp only [queue, drain, hone, List.flatMap_singleton, hopen, hname]
    by_cases ho : s.owner = c
    · cases x.isOpen <;> simp [ho]
    · simp [ho, Ne.symm ho]

end Enqueue

theorem foldl_enqueue (m : SignalMessage) (c : String) :
    ∀ (l : List (Subscription σ)) {b : Bus η σ}, b.Orderly →
      b.Ages (l.foldl (enqueue m) b) ∧
      (l.foldl (enqueue m) b).connectionNames = b.connectionNames ∧
      (l.foldl (enqueue m) b).queue c
        = b.queue c ++ (l.filter fun s => s.owner = c ∧ b.isOpen c = true).map (·.sink, m)
  | [], b, _ => ⟨.refl b, rfl, (List.append_nil _).symm⟩
  | s :: l, b, h => by
    have hages := ages_enqueue m s b
    obtain ⟨hl, hnames, hqueue⟩ := foldl_enqueue m c l (hages.orderly h)
    refine ⟨hages.trans hl, hnames.trans (connectionNames_enqueue m s b), ?_⟩
    rw [List.foldl_cons, hqueue, queue_enqueue m s h, isOpen_enqueue, List.append_assoc,
      List.filter_cons]
    by_cases hs : s.owner = c ∧ b.isOpen c = true
    · rw [if_pos hs, if_pos (decide_eq_true hs)]
      rfl
    · rw [if_neg hs, if_neg (fun h => hs (of_decide_eq_true h))]
      rfl

/-- A broadcast succeeds just for an open connection. -/
theorem emit_eq_ok {me : String} {m : SignalMessage} :
    b.emit me m = .ok b' ↔ b.isOpen me = true ∧
      b' = (b.wanting { m with sender := me }).foldl (enqueue { m with sender := me }) b := by
  unfold emit checkOpen
  cases b.isOpen me
  · simp [bind, Except.bind]
  · simp [bind, Except.bind, pure, Except.pure, eq_comm]

/-- **A broadcast puts one entry into the queue for each subscription that admits the signal**,
behind what is there. -/
theorem queue_emit (h : b.Orderly) {me : String} {m : SignalMessage} (he : b.emit me m = .ok b')
    (c : String) :
    b'.queue c = b.queue c
      ++ (b.takers c { m with sender := me }).map fun s => (s.sink, { m with sender := me }) := by
  obtain ⟨-, rfl⟩ := emit_eq_ok.mp he
  obtain ⟨-, -, hqueue⟩ := foldl_enqueue { m with sender := me } c (b.wanting _) h
  rw [hqueue, wanting_eq, List.filter_filter, takers]
  split <;> simp_all

theorem ages_emit (h : b.Orderly) {me : String} {m : SignalMessage} (he : b.emit me m = .ok b') :
    b.Ages b' ∧ b'.connectionNames = b.connectionNames := by
  obtain ⟨-, rfl⟩ := emit_eq_ok.mp he
  obtain ⟨hages, hnames, -⟩ := foldl_enqueue { m with sender := me } me (b.wanting _) h
  exact ⟨hages, hnames⟩

/-! ## 6. Handing out -/

theorem name_drain (c : String) (x : Connection σ) :
    (if x.name = c then { x with queue := [] } else x).name = x.name := by
  split <;> rfl

theorem connectionNames_drain (b : Bus η σ) (c : String) :
    (b.drain c).1.connectionNames = b.connectionNames := connectionNames_map (name_drain c) b

theorem ages_drain (b : Bus η σ) (c : String) : b.Ages (b.drain c).1 :=
  .of_frame (connectionNames_drain b c) rfl (Nat.le_refl _) (List.Sublist.refl _)

/-- **Handing out takes all that is in one queue**, and nothing else. -/
theorem queue_drain (b : Bus η σ) (c d : String) :
    (b.drain c).1.queue d = if c = d then [] else b.queue d := by
  refine (queue_map (name_drain c) b d).trans ?_
  split
  · rename_i heq
    refine List.flatMap_eq_nil_iff.mpr fun x hx => ?_
    have hname : x.name = d := of_decide_eq_true (List.mem_filter.mp hx).2
    rw [if_pos (hname.trans heq.symm)]
  · rename_i hne
    simp only [queue, drain, List.flatMap_def]
    refine congrArg List.flatten (List.map_congr_left fun x hx => ?_)
    have hname : x.name = d := of_decide_eq_true (List.mem_filter.mp hx).2
    rw [if_neg (fun heq => hne (heq.symm.trans hname))]

/-- A connection that something is on its way to is one of those that wait. -/
theorem mem_waiting {c : String} (h : b.queue c ≠ []) : c ∈ b.waiting := by
  obtain ⟨d, hd⟩ := List.exists_mem_of_ne_nil _ h
  obtain ⟨x, hx, hdx⟩ := List.mem_flatMap.mp hd
  obtain ⟨hx, hname⟩ := List.mem_filter.mp hx
  refine List.mem_map.mpr ⟨x, List.mem_filter.mpr ⟨hx, ?_⟩, of_decide_eq_true hname⟩
  cases hq : x.queue with
  | nil =>
    rw [hq] at hdx
    cases hdx
  | cons d l => rfl

/-- Something is on its way to connections only. -/
theorem mem_connectionNames {c : String} (h : b.queue c ≠ []) : c ∈ b.connectionNames := by
  obtain ⟨x, hx, hname⟩ := List.mem_map.mp (mem_waiting h)
  exact List.mem_map.mpr ⟨x, (List.mem_filter.mp hx).1, hname⟩

end MessageBus.Bus
