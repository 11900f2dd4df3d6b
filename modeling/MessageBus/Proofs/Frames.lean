/-
# What leaves calls alone

Most of what happens in a world does not touch the calls that are under way.  This module has two
sorts of such changes, the one within the other.

A change is CALM (`World.Calm`) if no call gets any further by it: the tasks that are there stay,
and so do the invocations and the slots, the tokens, the time and the handlers of each object; no
handler runs.  It may add tasks that hand out queues, and put tasks into the queue, behind those
that are in it.

A calm change is QUIET (`World.Quiet`) if nobody is told of a call, either: the outcomes stay, what
each proxy knows of its calls stays, and the journal gets nothing that is about calls.  It may add
proxies that have made no call.

Every arrangement is quiet (`World.quiet_arrange`), and so is what a poll does besides its own work:
handing out a queue and closing connections that nothing holds.  Each invariant about calls then
needs one lemma for all calm changes, or all quiet ones, and one for each of the few moves that are
about calls.
-/
import MessageBus.Proofs.Order

namespace MessageBus

/-- A loop leaves alone what each of its steps leaves alone. -/
theorem foldl_same {α β γ : Type} (g : β → γ) {f : β → α → β} (hf : ∀ x a, g (f x a) = g x)
    (l : List α) (x : β) : g (l.foldl f x) = g x :=
  List.foldlRecOn l f (motive := fun y => g y = g x) rfl fun y h a _ => (hf y a).trans h

/-- What a proxy knows of its calls: all but its cache, its listeners and its subscription. -/
structure Caller where
  interface : Interface
  link : Link
  target : Target
  timeout : Option Nat
  flags : CallFlags
  convention : Convention
  nextCall : Nat
  pending : Table Nat PendingCall

/-- What the proxy knows of its calls. -/
def Proxy.caller (p : Proxy) : Caller :=
  { interface := p.interface, link := p.link, target := p.target, timeout := p.timeout,
    flags := p.flags, convention := p.convention, nextCall := p.nextCall, pending := p.pending }

/-- It has made no asynchronous call. -/
def Caller.Fresh (c : Caller) : Prop := c.pending = .empty ∧ c.nextCall = 1

/-- What answers the calls of an object. -/
structure Handlers where
  interface : Interface
  sync : Table String SyncHandler
  async : Table String AsyncHandler

/-- What answers the object's calls. -/
def Object.handlers (o : Object) : Handlers := ⟨o.interface, o.service.sync, o.service.async⟩

/-- A handler was run: whose, for which invocation, for which method, on which arguments. -/
structure Handling where
  object : Nat
  invocation : Nat
  method : String
  args : List Value

namespace Event

/-- Whether the event is about a call: a handler or a completion was given something. -/
def ofCall : Event → Bool
  | .handled .. | .kept .. | .replied .. | .finished .. | .answered .. => true
  | .heard .. | .received .. | .asked .. => false

/-- The run of a handler that the event is, if it is one. -/
def handling? : Event → Option Handling
  | .handled object invocation method args => some ⟨object, invocation, method, args⟩
  | _ => none

theorem handling?_of_ofCall {e : Event} (h : e.ofCall = false) : e.handling? = none := by
  cases e <;> first | rfl | cases h

end Event

namespace World

/-- What a proxy knows of its calls. -/
def caller? (w : World) (id : Nat) : Option Caller := (w.proxies.get? id).map (·.caller)

/-- What answers the calls of an object. -/
def handlers? (w : World) (id : Nat) : Option Handlers := (w.objects.get? id).map (·.handlers)

/-- The runs of handlers, in order. -/
def handlings (w : World) : List Handling := w.journal.filterMap Event.handling?

/-! ## 1. Calm changes -/

/-- A change by which no call gets any further. -/
structure Calm (w w' : World) : Prop where
  now : w'.now = w.now
  fired : w'.fired = w.fired
  invocations : w'.invocations = w.invocations
  kept : w'.kept = w.kept
  nextTask : w.nextTask ≤ w'.nextTask
  /-- New tasks only hand out queues. -/
  tasks : ∃ es, w'.tasks.entries = w.tasks.entries ++ es ∧
      ∀ e ∈ es, w.nextTask ≤ e.1 ∧ ∃ b c, e.2 = .deliver b c
  ready : w.ready <+: w'.ready
  handlers : ∀ {id h}, w.handlers? id = some h → w'.handlers? id = some h
  journal : w.journal <+: w'.journal
  handlings : w'.handlings = w.handlings
  orderly : w.Orderly → w'.Orderly

variable {w w' w'' : World}

theorem Calm.refl (w : World) : w.Calm w where
  now := rfl
  fired := rfl
  invocations := rfl
  kept := rfl
  nextTask := Nat.le_refl _
  tasks := ⟨[], (List.append_nil _).symm, by simp⟩
  ready := List.prefix_rfl
  handlers := id
  journal := List.prefix_rfl
  handlings := rfl
  orderly := id

theorem Calm.trans (h : w.Calm w') (h' : w'.Calm w'') : w.Calm w'' where
  now := h'.now.trans h.now
  fired := h'.fired.trans h.fired
  invocations := h'.invocations.trans h.invocations
  kept := h'.kept.trans h.kept
  nextTask := Nat.le_trans h.nextTask h'.nextTask
  tasks := by
    obtain ⟨es, he, hes⟩ := h.tasks
    obtain ⟨es', he', hes'⟩ := h'.tasks
    refine ⟨es ++ es', by rw [he', he, List.append_assoc], fun e hmem => ?_⟩
    rcases List.mem_append.mp hmem with hmem | hmem
    · exact hes e hmem
    · obtain ⟨hle, hx⟩ := hes' e hmem
      exact ⟨Nat.le_trans h.nextTask hle, hx⟩
  ready := h.ready.trans h'.ready
  handlers := fun hh => h'.handlers (h.handlers hh)
  journal := h.journal.trans h'.journal
  handlings := h'.handlings.trans h.handlings
  orderly := fun ho => h'.orderly (h.orderly ho)

/-- Tasks stay, -/
theorem Calm.task (h : w.Calm w') {t : Nat} {x : Task} (ht : w.tasks.get? t = some x) :
    w'.tasks.get? t = some x := by
  obtain ⟨es, he, -⟩ := h.tasks
  rw [Table.get?, he, Table.find_append, ← Table.get?, ht]
  rfl

/-- and new ones only hand out queues. -/
theorem Calm.newTask (h : w.Calm w') {t : Nat} {x : Task} (ht : w'.tasks.get? t = some x) :
    w.tasks.get? t = some x ∨ w.nextTask ≤ t ∧ ∃ b c, x = .deliver b c := by
  obtain ⟨es, he, hes⟩ := h.tasks
  rw [Table.get?, he, Table.find_append] at ht
  rcases Option.or_eq_some_iff.mp ht with ht | ⟨-, ht⟩
  · exact Or.inl ht
  · exact Or.inr (hes _ (Table.mem_of_find ht))

/-- A sum over the tasks stays if those that hand out queues do not count. -/
theorem Calm.weigh_tasks (h : w.Calm w') {f : Task → Nat} (hf : ∀ b c, f (.deliver b c) = 0) :
    w'.tasks.weigh f = w.tasks.weigh f := by
  obtain ⟨es, he, hes⟩ := h.tasks
  have hzero : ∀ n ∈ es.map fun e => f e.2, n = 0 := by
    intro n hn
    obtain ⟨e, hmem, rfl⟩ := List.mem_map.mp hn
    obtain ⟨-, b, c, hx⟩ := hes e hmem
    rw [hx, hf]
  have hsum : (es.map fun e => f e.2).sum = 0 := List.sum_eq_zero_iff_forall_eq_nat.mpr hzero
  simp only [Table.weigh, Table.values, he, List.map_append, List.map_map, Function.comp_def,
    List.sum_append, hsum, Nat.add_zero]

/-- The reply to an invocation stays. -/
theorem Calm.replyTo (h : w.Calm w') (i : Nat) : w'.replyTo i = w.replyTo i := by
  rw [World.replyTo, World.replyTo, h.invocations]

theorem Calm.hasFired (h : w.Calm w') (t : Token) : w'.hasFired t = w.hasFired t := by
  rw [World.hasFired, World.hasFired, h.fired]

/-! ## 2. Quiet changes -/

/-- A calm change by which nobody is told of a call. -/
structure Quiet (w w' : World) : Prop extends Calm w w' where
  outcomes : w'.outcomes = w.outcomes
  caller : ∀ {id c}, w.caller? id = some c → w'.caller? id = some c
  newCaller : ∀ {id c}, w'.caller? id = some c →
    w.caller? id = some c ∨ w.caller? id = none ∧ c.Fresh
  silent : ∃ es, w'.journal = w.journal ++ es ∧ ∀ e ∈ es, e.ofCall = false

theorem Quiet.refl (w : World) : w.Quiet w :=
  { Calm.refl w with
    outcomes := rfl
    caller := id
    newCaller := Or.inl
    silent := ⟨[], (List.append_nil _).symm, by simp⟩ }

theorem Quiet.trans (h : w.Quiet w') (h' : w'.Quiet w'') : w.Quiet w'' :=
  { h.toCalm.trans h'.toCalm with
    outcomes := h'.outcomes.trans h.outcomes
    caller := fun hc => h'.caller (h.caller hc)
    newCaller := by
      intro id c hc
      rcases h'.newCaller hc with hc | ⟨hn, hf⟩
      · exact h.newCaller hc
      · refine Or.inr ⟨?_, hf⟩
        cases hi : w.caller? id with
        | none => rfl
        | some d =>
          rw [h.caller hi] at hn
          cases hn
    silent := by
      obtain ⟨es, he, hes⟩ := h.silent
      obtain ⟨es', he', hes'⟩ := h'.silent
      refine ⟨es ++ es', by rw [he', he, List.append_assoc], fun e hmem => ?_⟩
      rcases List.mem_append.mp hmem with hmem | hmem
      · exact hes e hmem
      · exact hes' e hmem }

/-- Quiet changes one after the other are a quiet change. -/
theorem Quiet.foldl {α : Type} {f : World → α → World} (hf : ∀ (w : World) a, w.Quiet (f w a))
    (l : List α) (w : World) : w.Quiet (l.foldl f w) := by
  refine List.foldlRecOn l f (.refl w) fun v h a _ => ?_
  exact h.trans (hf v a)

/-! ## 3. Records and waking -/

theorem quiet_warn (w : World) (ws : List Warning) : w.Quiet (w.warn ws) :=
  { Quiet.refl w with orderly := fun h => h.congr rfl rfl rfl rfl rfl rfl rfl rfl }

theorem quiet_note (w : World) {e : Event} (he : e.ofCall = false) : w.Quiet (w.note e) :=
  { Quiet.refl w with
    journal := List.prefix_append _ _
    silent := ⟨[e], rfl, by simpa using he⟩
    handlings := by
      simp [handlings, note, Event.handling?_of_ofCall he]
    orderly := fun h => h.congr rfl rfl rfl rfl rfl rfl rfl rfl }

/-- Nothing of a world but its queue changes when a task is put into it. -/
theorem enqueue_eq (w : World) (t : Nat) :
    w.enqueue t = { w with ready := (w.enqueue t).ready } := by
  unfold enqueue
  split <;> rfl

theorem mem_ready_enqueue {t s : Nat} : s ∈ (w.enqueue t).ready ↔ s ∈ w.ready ∨ s = t := by
  unfold enqueue
  split
  · rename_i h
    have ht : t ∈ w.ready := by simpa using h
    constructor
    · exact Or.inl
    · rintro (hs | rfl)
      · exact hs
      · exact ht
  · simp

/-- A task is put behind those that are in the queue. -/
theorem ready_prefix_enqueue (w : World) (t : Nat) : w.ready <+: (w.enqueue t).ready := by
  unfold enqueue
  split
  · exact List.prefix_rfl
  · exact List.prefix_append _ _

/-- Putting a task into the queue that has a number. -/
theorem quiet_enqueue {t : Nat} (ht : t < w.nextTask) : w.Quiet (w.enqueue t) := by
  have hready := ready_prefix_enqueue w t
  rw [enqueue_eq]
  exact
    { Quiet.refl w with
      ready := hready
      orderly := fun h => by
        rw [← enqueue_eq]
        exact h.enqueue ht }

/-- Putting the tasks of some entries into the queue. -/
def enqueueAll (p : Task → Bool) (w : World) (es : List (Nat × Task)) : World :=
  es.foldl (fun w e => if p e.2 then w.enqueue e.1 else w) w

theorem enqueueAll_cons (p : Task → Bool) (w : World) (e : Nat × Task) (es : List (Nat × Task)) :
    enqueueAll p w (e :: es) = enqueueAll p (if p e.2 then w.enqueue e.1 else w) es := rfl

theorem enqueueAll_eq (p : Task → Bool) (es : List (Nat × Task)) (w : World) :
    enqueueAll p w es = { w with ready := (enqueueAll p w es).ready } := by
  induction es generalizing w with
  | nil => rfl
  | cons e es ih =>
    have ih := ih (if p e.2 then w.enqueue e.1 else w)
    rw [enqueueAll_cons]
    split at ih <;> rename_i hp
    · rw [if_pos hp, ih, enqueue_eq w e.1]
    · rw [if_neg hp, ih]

theorem mem_ready_enqueueAll {p : Task → Bool} {s : Nat} {es : List (Nat × Task)} {w : World} :
    s ∈ (enqueueAll p w es).ready ↔ s ∈ w.ready ∨ ∃ x, (s, x) ∈ es ∧ p x = true := by
  induction es generalizing w with
  | nil => simp [enqueueAll]
  | cons e es ih =>
    obtain ⟨t, y⟩ := e
    rw [enqueueAll_cons, ih]
    split <;> rename_i hp
    · rw [mem_ready_enqueue]
      simp only [List.mem_cons, Prod.mk.injEq]
      constructor
      · rintro ((hs | rfl) | ⟨x, hx, hpx⟩)
        · exact Or.inl hs
        · exact Or.inr ⟨y, Or.inl ⟨rfl, rfl⟩, hp⟩
        · exact Or.inr ⟨x, Or.inr hx, hpx⟩
      · rintro (hs | ⟨x, ⟨rfl, -⟩ | hx, hpx⟩)
        · exact Or.inl (Or.inl hs)
        · exact Or.inl (Or.inr rfl)
        · exact Or.inr ⟨x, hx, hpx⟩
    · simp only [List.mem_cons, Prod.mk.injEq]
      constructor
      · rintro (hs | ⟨x, hx, hpx⟩)
        · exact Or.inl hs
        · exact Or.inr ⟨x, Or.inr hx, hpx⟩
      · rintro (hs | ⟨x, ⟨-, rfl⟩ | hx, hpx⟩)
        · exact Or.inl hs
        · exact absurd hpx hp
        · exact Or.inr ⟨x, hx, hpx⟩

/-- Nothing of a world but its queue changes when tasks are woken. -/
theorem wake_eq (w : World) (p : Task → Bool) : w.wake p = { w with ready := (w.wake p).ready } :=
  enqueueAll_eq p w.tasks.entries w

/-- The tasks that stand in the queue after waking: those that stood there, and those woken. -/
theorem mem_ready_wake {p : Task → Bool} {s : Nat} :
    s ∈ (w.wake p).ready ↔ s ∈ w.ready ∨ ∃ x, (s, x) ∈ w.tasks.entries ∧ p x = true :=
  mem_ready_enqueueAll

/-- Waking nobody. -/
theorem enqueueAll_of_none (p : Task → Bool) (es : List (Nat × Task)) (w : World)
    (h : ∀ e ∈ es, p e.2 = false) : enqueueAll p w es = w := by
  induction es with
  | nil => rfl
  | cons e es ih =>
    obtain ⟨he, hes⟩ := List.forall_mem_cons.mp h
    rw [enqueueAll_cons, he]
    exact ih hes

theorem wake_of_none (w : World) {p : Task → Bool} (h : ∀ e ∈ w.tasks.entries, p e.2 = false) :
    w.wake p = w := enqueueAll_of_none p _ w h

theorem orderly_enqueueAll (p : Task → Bool) (es : List (Nat × Task)) {w : World} (h : w.Orderly)
    (hes : ∀ e ∈ es, e.1 < w.nextTask) : (enqueueAll p w es).Orderly := by
  induction es generalizing w with
  | nil => exact h
  | cons e es ih =>
    obtain ⟨he, hes⟩ := List.forall_mem_cons.mp hes
    rw [enqueueAll_cons]
    split
    · refine ih (h.enqueue he) ?_
      rw [enqueue_eq]
      exact hes
    · exact ih h hes

theorem Orderly.wake (h : w.Orderly) (p : Task → Bool) : (w.wake p).Orderly :=
  orderly_enqueueAll p _ h fun _ he => h.tasksBelow _ (List.mem_map.mpr ⟨_, he, rfl⟩)

theorem ready_prefix_enqueueAll (p : Task → Bool) (es : List (Nat × Task)) (w : World) :
    w.ready <+: (enqueueAll p w es).ready := by
  induction es generalizing w with
  | nil => exact List.prefix_rfl
  | cons e es ih =>
    have ih := ih (if p e.2 then w.enqueue e.1 else w)
    rw [enqueueAll_cons]
    refine List.IsPrefix.trans ?_ ih
    split
    · exact ready_prefix_enqueue w e.1
    · exact List.prefix_rfl

theorem quiet_wake (w : World) (p : Task → Bool) : w.Quiet (w.wake p) := by
  have hready := ready_prefix_enqueueAll p w.tasks.entries w
  change w.ready <+: (w.wake p).ready at hready
  rw [wake_eq]
  exact
    { Quiet.refl w with
      ready := hready
      orderly := fun h => by
        rw [← wake_eq]
        exact h.wake p }

/-! ## 4. Tables of the surroundings -/

/-- Changing a bus, on which nothing is registered that was not, or that is no object. -/
theorem quiet_setBus (w : World) (b : Nat) {x : Bus Nat Sink}
    (hx : ∀ r ∈ x.objects.values,
      r ∈ (w.bus b).objects.values ∨ (w.objects.get? r.handler).isSome) : w.Quiet (w.setBus b x) :=
  { Quiet.refl w with
    orderly := fun h => h.setBus fun r hr => (hx r hr).elim (h.registered b r) id }

/-- The same, if nothing is registered that was not. -/
theorem quiet_setBus_of_subset (w : World) (b : Nat) {x : Bus Nat Sink}
    (hx : ∀ r ∈ x.objects.values, r ∈ (w.bus b).objects.values) : w.Quiet (w.setBus b x) :=
  quiet_setBus w b fun r hr => Or.inl (hx r hr)

/-- Changing what does not show in any of the fields that matter to calls. -/
theorem quiet_scripted (w : World) (s : Table Nat Scripted) : w.Quiet { w with scripted := s } :=
  { Quiet.refl w with orderly := fun h => h.congr rfl rfl rfl rfl rfl rfl rfl rfl }

/-- Changing an object, but not what answers its calls. -/
theorem quiet_setObject {id : Nat} {o : Object} (ho : w.objects.get? id = some o) (o' : Object)
    (hh : o'.handlers = o.handlers) : w.Quiet { w with objects := w.objects.insert id o' } :=
  { Quiet.refl w with
    handlers := by
      intro i h hi
      simp only [handlers?, Table.get?_insert] at hi ⊢
      split
      · rename_i heq
        subst heq
        rw [ho] at hi
        rwa [Option.map_some, hh]
      · exact hi
    orderly := fun h => h.insertObject (Nat.le_of_lt (h.objectsBelow.lt_size ho)) o' }

/-- Changing a proxy, but not what it knows of its calls. -/
theorem quiet_setProxy {id : Nat} {p : Proxy} (hp : w.proxies.get? id = some p) (p' : Proxy)
    (hc : p'.caller = p.caller) : w.Quiet { w with proxies := w.proxies.insert id p' } := by
  have hsame : ∀ i, World.caller? { w with proxies := w.proxies.insert id p' } i = w.caller? i := by
    intro i
    simp only [caller?, Table.get?_insert]
    split
    · rename_i heq
      subst heq
      rw [hp, Option.map_some, Option.map_some, hc]
    · rfl
  exact
    { Quiet.refl w with
      caller := fun h => (hsame _).trans h
      newCaller := fun h => Or.inl ((hsame _).symm.trans h)
      orderly := fun h => by
        refine h.insertProxy (Nat.le_of_lt (h.proxiesBelow.lt_size hp)) ?_
        have htarget : p'.target = p.target := congrArg Caller.target hc
        have hinterface : p'.interface = p.interface := congrArg Caller.interface hc
        rw [htarget, hinterface]
        exact h.aimed hp }

end World

end MessageBus
