/-
# What every move keeps

Nothing that has been given is taken back: no invocation goes away, a reply stays what it is, a
token that has fired has fired, time does not run backwards, an object keeps its handlers, and the
journal only grows (`World.Later`).  A move may end or change one task, the one that it polls, and
puts tasks into the queue only behind those that stand in it (`World.Onward`).

Every move is such a change (`World.onward_act`), so that these facts are to hand for whole runs
(`World.later_run`), and a world that is reached from the empty one is orderly
(`World.orderly_run`).

A poll of a request looks at the request and acts on what it sees.  `World.look_cases` says what
looking does: nothing that matters to calls, unless the request is handed over to an object.
-/
import MessageBus.Proofs.Surroundings

namespace MessageBus

/-- The task that a move may end or change. -/
def Move.polled : Move → Option Nat
  | .poll t => some t
  | _ => none

theorem Move.eq_poll {m : Move} {t : Nat} (h : m.polled = some t) : m = .poll t := by
  cases m with
  | poll s => exact congrArg Move.poll (Option.some.inj h)
  | _ => cases h

namespace World

variable {w w' w'' : World}

/-! ## 1. Calm changes around calls -/

/-- Adding to the journal anything but a run of a handler. -/
theorem calm_note (w : World) {e : Event} (he : e.handling? = none) : w.Calm (w.note e) :=
  { Calm.refl w with
    journal := List.prefix_append _ _
    handlings := by simp [handlings, note, he]
    orderly := fun h => h.congr rfl rfl rfl rfl rfl rfl rfl rfl }

theorem calm_outcomes (w : World) (o : Table Nat (Except TransportError Container)) :
    w.Calm { w with outcomes := o } :=
  { Calm.refl w with orderly := fun h => h.congr rfl rfl rfl rfl rfl rfl rfl rfl }

theorem calm_results (w : World) (r : Table String AsyncResult) : w.Calm { w with results := r } :=
  { Calm.refl w with orderly := fun h => h.congr rfl rfl rfl rfl rfl rfl rfl rfl }

/-- Changing a proxy, but not what it calls. -/
theorem calm_setProxy {id : Nat} {p : Proxy} (hp : w.proxies.get? id = some p) (p' : Proxy)
    (htarget : p'.target = p.target) (hinterface : p'.interface = p.interface) :
    w.Calm { w with proxies := w.proxies.insert id p' } :=
  { Calm.refl w with
    orderly := fun h => by
      refine h.insertProxy (Nat.le_of_lt (h.proxiesBelow.lt_size hp)) ?_
      rw [htarget, hinterface]
      exact h.aimed hp }

/-- Telling a completion is calm. -/
theorem calm_complete (w : World) (c : PendingCall) (reply : Except TransportError Container) :
    w.Calm (w.complete c reply) := by
  unfold complete
  split
  · exact calm_note w rfl
  · exact (calm_results w _).trans (calm_note _ rfl)
  · split
    · exact .refl w
    · exact (quiet_warn w _).toCalm

/-- Settling a request is calm. -/
theorem calm_settleRequest (w : World) (task : Nat) (purpose : Purpose)
    (outcome : Except TransportError Container) :
    w.Calm (w.settleRequest task purpose outcome) := by
  unfold settleRequest
  split
  · split
    · exact .refl w
    · rename_i number _ p hp
      have hleave := calm_setProxy hp (p.leave number).1 rfl rfl
      simp only
      split
      · exact hleave.trans (calm_complete _ _ _)
      · exact hleave
  · split
    · exact .refl w
    · exact (quiet_warn w _).toCalm
  · exact calm_outcomes w _

/-- Ending the reading of a property changes the cache only. -/
theorem caller_finishGet (p : Proxy) (name : String) (reply : Except TransportError Container) :
    (p.finishGet name reply).1.caller = p.caller := by
  unfold Proxy.finishGet
  split <;> rfl

theorem caller_finishInit (p : Proxy) (reply : Except TransportError Container) :
    (p.finishInit reply).1.caller = p.caller := by
  unfold Proxy.finishInit
  split <;> rfl

/-- Beginning to write a property changes the cache only. -/
theorem caller_startSet {p p' : Proxy} {name : String} {v : Value} {call : MethodCall}
    (h : p.startSet name v = .ok (p', call)) : p'.caller = p.caller := by
  unfold Proxy.startSet at h
  obtain ⟨q, -, h⟩ := bind_eq_ok.1 h
  obtain ⟨x, -, h⟩ := bind_eq_ok.1 h
  obtain ⟨c, -, h⟩ := bind_eq_ok.1 h
  cases h
  rfl

/-! ## 2. Later and onward -/

/-- Nothing that has been given is taken back. -/
structure Later (w w' : World) : Prop where
  now : w.now ≤ w'.now
  fired : ∀ {t}, w.hasFired t = true → w'.hasFired t = true
  /-- An invocation stays what it is, and so does its reply. -/
  invocation : ∀ {i inv}, w.invocations.get? i = some inv →
      ∃ r, w'.invocations.get? i = some { inv with reply := r } ∧
        (inv.reply ≠ none → r = inv.reply)
  invocations : w.invocations.size ≤ w'.invocations.size
  nextTask : w.nextTask ≤ w'.nextTask
  handlers : ∀ {id h}, w.handlers? id = some h → w'.handlers? id = some h
  journal : w.journal <+: w'.journal
  orderly : w.Orderly → w'.Orderly

theorem Later.refl (w : World) : w.Later w where
  now := Nat.le_refl _
  fired := id
  invocation := fun {_ inv} h => ⟨inv.reply, h, fun _ => rfl⟩
  invocations := Nat.le_refl _
  nextTask := Nat.le_refl _
  handlers := id
  journal := List.prefix_rfl
  orderly := id

theorem Later.trans (h : w.Later w') (h' : w'.Later w'') : w.Later w'' where
  now := Nat.le_trans h.now h'.now
  fired := fun ht => h'.fired (h.fired ht)
  invocation := by
    intro i inv hi
    obtain ⟨r, hi, hr⟩ := h.invocation hi
    obtain ⟨r', hi', hr'⟩ := h'.invocation hi
    refine ⟨r', hi', fun hne => ?_⟩
    have hr := hr hne
    subst hr
    exact hr' hne
  invocations := Nat.le_trans h.invocations h'.invocations
  nextTask := Nat.le_trans h.nextTask h'.nextTask
  handlers := fun hh => h'.handlers (h.handlers hh)
  journal := h.journal.trans h'.journal
  orderly := fun ho => h'.orderly (h.orderly ho)

/-- A reply stays what it is. -/
theorem Later.replyTo (h : w.Later w') {i : Nat} {r : Reply Container}
    (hr : w.replyTo i = some r) : w'.replyTo i = some r := by
  obtain ⟨inv, hi, hinv⟩ := Option.bind_eq_some_iff.mp hr
  obtain ⟨r', hi', hr'⟩ := h.invocation hi
  have heq : r' = inv.reply := hr' (by rw [hinv]; exact Option.some_ne_none r)
  subst heq
  rw [World.replyTo, hi', Option.bind_some]
  exact hinv

/-- A token that has fired has fired. -/
theorem Later.cancelled (h : w.Later w') {c : Option Token}
    (hc : c.any w.hasFired = true) : c.any w'.hasFired = true := by
  cases c with
  | none => cases hc
  | some t => exact h.fired hc

/-- What a task is when it is made.  A request has not been handed over, and if the task has to do
with an invocation, that has just been opened, too; only answers are for any invocation. -/
def Born (w : World) : Task → Prop
  | .handle _ i _ _ | .watch i => w.invocations.size ≤ i
  | .request _ p => p = .unsent
  | _ => True

theorem Born.mono {x : Task} (h : w'.Born x) (hsize : w.invocations.size ≤ w'.invocations.size) :
    w.Born x := by
  cases x with
  | handle object i member body => exact Nat.le_trans hsize h
  | watch i => exact Nat.le_trans hsize h
  | request r p => exact h
  | _ => trivial

/-- Tasks stay, too, except that the task `touched` may have been ended or changed, and those that
have been put into the queue stand behind those that were in it. -/
structure Onward (touched : Option Nat) (w w' : World) : Prop extends Later w w' where
  task : ∀ {t x}, touched ≠ some t → w.tasks.get? t = some x → w'.tasks.get? t = some x
  newTask : ∀ {t x}, touched ≠ some t → w'.tasks.get? t = some x →
      w.tasks.get? t = some x ∨ w.nextTask ≤ t ∧ w.Born x := by exact fun _ h => Or.inl h
  ready : w.ready <+: w'.ready

variable {touched : Option Nat}

theorem Onward.refl (w : World) : w.Onward touched w :=
  { Later.refl w with
    task := fun _ h => h
    newTask := fun _ h => Or.inl h
    ready := List.prefix_rfl }

theorem Onward.trans (h : w.Onward touched w') (h' : w'.Onward touched w'') :
    w.Onward touched w'' :=
  { h.toLater.trans h'.toLater with
    task := fun ht hx => h'.task ht (h.task ht hx)
    newTask := by
      intro t x ht hx
      rcases h'.newTask ht hx with hx | ⟨hle, hb⟩
      · exact h.newTask ht hx
      · exact Or.inr ⟨Nat.le_trans h.nextTask hle, hb.mono h.invocations⟩
    ready := h.ready.trans h'.ready }

theorem Calm.onward (h : w.Calm w') : w.Onward touched w' where
  now := Nat.le_of_eq h.now.symm
  fired := fun {t} ht => by rwa [h.hasFired t]
  invocation := fun {i inv} hi => ⟨inv.reply, by rw [h.invocations, hi], fun _ => rfl⟩
  invocations := Nat.le_of_eq (congrArg Table.size h.invocations.symm)
  nextTask := h.nextTask
  task := fun _ ht => h.task ht
  newTask := by
    intro t x _ ht
    rcases h.newTask ht with ht | ⟨hle, b, c, rfl⟩
    · exact Or.inl ht
    · exact Or.inr ⟨hle, trivial⟩
  ready := h.ready
  handlers := h.handlers
  journal := h.journal
  orderly := h.orderly

/-- A change that touches no task keeps them all, -/
theorem Onward.keeps (h : w.Onward none w') {t : Nat} {x : Task}
    (ht : w.tasks.get? t = some x) : w'.tasks.get? t = some x :=
  h.task (Option.some_ne_none t).symm ht

theorem Onward.makes (h : w.Onward none w') {t : Nat} {x : Task}
    (ht : w'.tasks.get? t = some x) : w.tasks.get? t = some x ∨ w.nextTask ≤ t ∧ w.Born x :=
  h.newTask (Option.some_ne_none t).symm ht

/-- and touches none but one. -/
theorem Onward.touching (h : w.Onward none w') (touched : Option Nat) : w.Onward touched w' :=
  { h.toLater with
    task := fun _ => h.keeps
    newTask := fun _ => h.makes
    ready := h.ready }

/-! ## 3. What the engine does -/

/-- A new task is added under the next number, and put into the queue. -/
theorem spawn_eq (w : World) (x : Task) :
    w.spawn x = { w with
      tasks := w.tasks.insert w.nextTask x
      nextTask := w.nextTask + 1
      ready := (w.spawn x).ready } := enqueue_eq (w.addTask x).1 w.nextTask

/-- A task may be made on the way. -/
theorem Onward.spawn (h : w.Onward touched w') (hw : w'.Orderly) {x : Task} (hx : w'.Knows x)
    (hborn : w.Born x) : w.Onward touched (w'.spawn x) where
  now := by
    rw [spawn_eq]
    exact h.now
  fired := by
    rw [spawn_eq]
    exact h.fired
  invocation := by
    rw [spawn_eq]
    exact h.invocation
  invocations := by
    rw [spawn_eq]
    exact h.invocations
  nextTask := by
    rw [spawn_eq]
    exact Nat.le_succ_of_le h.nextTask
  task := by
    intro t y ht hy
    have hy := h.task ht hy
    rw [spawn_eq, Table.get?_insert, if_neg (Nat.ne_of_gt (hw.task_lt hy))]
    exact hy
  newTask := by
    intro t y ht hy
    rw [spawn_eq, Table.get?_insert] at hy
    split at hy
    · rename_i heq
      subst heq
      cases hy
      exact Or.inr ⟨h.nextTask, hborn⟩
    · exact h.newTask ht hy
  ready := h.ready.trans (ready_prefix_enqueue (w'.addTask x).1 w'.nextTask)
  handlers := by
    rw [spawn_eq]
    exact h.handlers
  journal := by
    rw [spawn_eq]
    exact h.journal
  orderly := fun ho => (h.orderly ho).spawn hx

theorem Orderly.invoke (h : w.Orderly) (sender path interface member : String) :
    (w.invoke sender path interface member).1.Orderly :=
  h.insertInvocation (Nat.le_refl _) fun hi => by
    rw [h.invocationsBelow.get?_size] at hi
    cases hi

theorem onward_invoke (h : w.Orderly) (sender path interface member : String) :
    w.Onward touched (w.invoke sender path interface member).1 :=
  { Onward.refl w with
    invocation := by
      intro i inv hi
      refine ⟨inv.reply, ?_, fun _ => rfl⟩
      simp only [invoke, Table.get?_insert]
      rw [if_neg (Nat.ne_of_gt (h.invocationsBelow.lt_size hi))]
      exact hi
    invocations := by
      simp only [invoke]
      rw [Table.size_insert_new h.invocationsBelow.get?_size]
      exact Nat.le_succ _
    orderly := fun h => h.invoke sender path interface member }

/-- A reply is given to an invocation that has none, and wakes those that wait for it. -/
theorem onward_reply (w : World) (i : Nat) (r : Reply Container) :
    w.Onward touched (w.reply i r) := by
  unfold reply
  split
  · rename_i inv hinv
    split
    · exact .refl w
    · rename_i hnone
      have hset : w.Onward touched
          { w with invocations := w.invocations.insert i { inv with reply := some r } } :=
        { Onward.refl w with
          invocation := by
            intro j inv' hj
            rw [Table.get?_insert]
            split
            · rename_i heq
              subst heq
              rw [hinv] at hj
              cases hj
              refine ⟨some r, rfl, fun hne => absurd ?_ hnone⟩
              exact Option.isSome_iff_ne_none.mpr hne
            · exact ⟨inv'.reply, hj, fun _ => rfl⟩
          invocations := Nat.le_of_eq (Table.size_replace hinv).symm
          orderly := fun h =>
            h.insertInvocation (Nat.le_of_lt (h.invocationsBelow.lt_size hinv)) fun hj => by
              rw [hinv] at hj
              cases hj
              rfl }
      exact hset.trans (quiet_wake _ _).toCalm.onward
  · exact .refl w

theorem onward_conclude (w : World) (i : Nat) (a : Answer) : w.Onward touched (w.conclude i a) := by
  unfold conclude
  split
  · exact onward_reply w _ _
  · split
    · exact (quiet_warn w _).toCalm.onward.trans (onward_reply _ _ _)
    · exact .refl w

theorem onward_keep (w : World) (i : Nat) (args : List Value) :
    w.Onward touched (w.keep i args) := by
  have hslot : w.Onward touched
      { w with kept := w.kept.insert w.kept.size { invocation := i, args, answered := false } } :=
    { Onward.refl w with
      orderly := fun h => h.insertKept (Nat.le_refl _) _ }
  unfold keep
  simp only
  split
  · exact hslot.trans (calm_note _ rfl).onward
  · exact hslot

theorem onward_dispose (h : w.Orderly) (i : Nat) (args : List Value) (d : Disposal) :
    w.Onward touched (w.dispose i args d) := by
  cases d with
  | keep => exact onward_keep w i args
  | answer a => exact onward_conclude w i a
  | answerAfter ms a => exact Onward.spawn (.refl w) h trivial trivial

theorem Orderly.note (h : w.Orderly) (e : Event) : (w.note e).Orderly :=
  h.congr rfl rfl rfl rfl rfl rfl rfl rfl

theorem onward_note (w : World) (e : Event) : w.Onward touched (w.note e) :=
  { Onward.refl w with
    journal := List.prefix_append _ _
    orderly := fun h => h.note e }

theorem onward_handle (h : w.Orderly) (object i : Nat) (member : String) (body : Container) :
    w.Onward touched (w.handle object i member body) := by
  unfold handle
  split
  · exact .refl w
  · split
    · exact (quiet_warn w _).toCalm.onward.trans (onward_reply _ _ _)
    · exact (onward_note w _).trans
        ((quiet_warn _ _).toCalm.onward.trans (onward_reply _ _ _))
    · exact (onward_note w _).trans (onward_dispose (h.note _) _ _ _)

theorem Orderly.handle (h : w.Orderly) (object i : Nat) (member : String) (body : Container) :
    (w.handle object i member body).Orderly :=
  have honward : w.Onward none (w.handle object i member body) :=
    onward_handle h object i member body
  honward.orderly h

theorem onward_answerKept {slot : Nat} {answer : List Value → Answer} {w' : World}
    (ha : w.answerKept slot answer = some w') : w.Onward touched w' := by
  unfold answerKept at ha
  split at ha
  · rename_i k hk
    split at ha
    · cases ha
    · cases ha
      have hslot : w.Onward touched
          { w with kept := w.kept.insert slot { k with answered := true } } :=
        { Onward.refl w with
          orderly := fun h => h.insertKept (Nat.le_of_lt (h.keptBelow.lt_size hk)) _ }
      exact hslot.trans (onward_conclude _ _ _)
  · cases ha

theorem hasFired_fire (w : World) (t s : Token) :
    (w.fire t).hasFired s = (w.hasFired s || decide (s = t)) := by
  unfold fire
  split
  · rename_i h
    by_cases hs : s = t
    · subst hs; simp [h]
    · simp [hs]
  · rw [wake_eq]
    simp [hasFired, List.contains_eq_mem]

theorem onward_fire (w : World) (t : Token) : w.Onward touched (w.fire t) := by
  have hfired : ∀ {s}, w.hasFired s = true → (w.fire t).hasFired s = true := by
    intro s hs
    rw [hasFired_fire, hs]
    rfl
  unfold fire at hfired ⊢
  split
  · exact .refl w
  · rename_i hnot
    rw [if_neg hnot] at hfired
    have hset : w.Onward touched { w with fired := w.fired ++ [t] } :=
      { Onward.refl w with
        fired := fun {s} hs => by
          have := hfired hs
          rwa [(quiet_wake _ _).hasFired] at this
        orderly := fun h => h.congr rfl rfl rfl rfl rfl rfl rfl rfl }
    exact hset.trans (quiet_wake _ _).toCalm.onward

theorem onward_moveTo (w : World) {t : Nat} (ht : w.now ≤ t) : w.Onward touched (w.moveTo t) := by
  have hset : w.Onward touched { w with now := t } :=
    { Onward.refl w with
      now := ht
      orderly := fun h => h.congr rfl rfl rfl rfl rfl rfl rfl rfl }
  exact hset.trans (quiet_wake _ _).toCalm.onward

/-- The task that is polled ends, -/
theorem onward_endTask (w : World) (t : Nat) : w.Onward (some t) (w.endTask t) :=
  { Later.refl w with
    task := fun {s x} hs ht => by
      rw [endTask, Table.get?_erase, if_neg (fun heq => hs (congrArg some heq))]
      exact ht
    newTask := fun {s x} hs ht => by
      rw [endTask, Table.get?_erase, if_neg (fun heq => hs (congrArg some heq))] at ht
      exact Or.inl ht
    ready := List.prefix_rfl
    orderly := fun h => h.endTask t }

/-- or it is changed. -/
theorem onward_replaceTask {t : Nat} {x y : Task} (ht : w.tasks.get? t = some x)
    (hy : w.Knows y) : w.Onward (some t) { w with tasks := w.tasks.insert t y } :=
  { Later.refl w with
    task := fun {s z} hs hz => by
      rw [Table.get?_insert, if_neg (fun heq => hs (congrArg some heq))]
      exact hz
    newTask := fun {s z} hs hz => by
      rw [Table.get?_insert, if_neg (fun heq => hs (congrArg some heq))] at hz
      exact Or.inl hz
    ready := List.prefix_rfl
    orderly := fun h => h.replaceTask ht hy }

/-! ## 4. Looking at a request -/

/-- The way of a call that is not on the properties interface, when it is found. -/
theorem route_eq_object {b : Nat} {me : String} {call : MethodCall} {cancel : Option Token}
    {object : Nat} : w.route b me call cancel = .ok (.object object) ↔
      (w.bus b).isOpen me = true ∧ cancel.any w.hasFired = false ∧
        ∃ owner, (w.bus b).resolve call.destination = some owner ∧
          call.interface ≠ propertiesInterface ∧
          (w.bus b).handler? ⟨owner, call.path, call.interface⟩ = some object := by
  unfold route Bus.checkOpen
  by_cases hopen : (w.bus b).isOpen me
  · by_cases hcancel : cancel.any w.hasFired
    · simp [hopen, hcancel, bind, Except.bind]
    · cases hres : (w.bus b).resolve call.destination with
      | none => simp [hopen, hcancel, bind, Except.bind]
      | some owner =>
        by_cases hprops : call.interface = propertiesInterface
        · simp [hopen, hcancel, hprops, bind, Except.bind, pure, Except.pure]
        · cases hobj : (w.bus b).handler? ⟨owner, call.path, call.interface⟩ with
          | none => simp [hopen, hcancel, hprops, hobj, bind, Except.bind]
          | some o => simp [hopen, hcancel, hprops, hobj, bind, Except.bind, pure, Except.pure]
  · simp [hopen, bind, Except.bind]

/-- What a call is routed to is an object. -/
theorem Orderly.routed (h : w.Orderly) {b : Nat} {me : String} {call : MethodCall}
    {cancel : Option Token} {object : Nat}
    (hr : w.route b me call cancel = .ok (.object object)) : (w.objects.get? object).isSome := by
  obtain ⟨-, -, owner, -, -, hobj⟩ := route_eq_object.mp hr
  obtain ⟨r, hreg, rfl⟩ := Option.map_eq_some_iff.mp hobj
  exact h.registered b r (Table.mem_values_of_get? hreg)

/-- The world after a request has been handed to an object: there is an invocation for it, and a
task that calls a handler. -/
def handedTo (w : World) (me : String) (r : Request) (object : Nat) : World :=
  (w.invoke me r.call.path r.call.interface r.call.member).1.spawn
    (.handle object w.invocations.size r.call.member r.call.body)

/-- The time until which a request on a bus waits that is handed over now. -/
def deadlineOf (w : World) (b : Nat) (r : Request) : Nat :=
  w.now + r.timeout.getD (w.bus b).callTimeout

theorem handedTo_eq (w : World) (me : String) (r : Request) (object : Nat) :
    w.handedTo me r object =
      { w with
        invocations := w.invocations.insert w.invocations.size
          { sender := me, path := r.call.path, interface := r.call.interface,
            member := r.call.member, reply := none }
        tasks := w.tasks.insert w.nextTask
          (.handle object w.invocations.size r.call.member r.call.body)
        nextTask := w.nextTask + 1
        ready := (w.handedTo me r object).ready } := spawn_eq _ _

/-- A request that finds an object is handed to it, and looked at. -/
theorem issueBus_object {b : Nat} {me : String} {r : Request} {object : Nat}
    (hr : w.route b me r.call r.cancel = .ok (.object object)) :
    w.issueBus b me r = (w.handedTo me r object,
      (w.handedTo me r object).lookReply r w.invocations.size (w.deadlineOf b r)) := by
  have hnow : (w.handedTo me r object).now = w.now := by rw [handedTo_eq]
  have hbus : (w.handedTo me r object).bus b = w.bus b := by rw [handedTo_eq]; rfl
  unfold issueBus
  rw [hr]
  change (w.handedTo me r object, (w.handedTo me r object).lookReply r w.invocations.size
    ((w.handedTo me r object).now
      + r.timeout.getD ((w.handedTo me r object).bus b).callTimeout)) = _
  rw [hnow, hbus]
  rfl

theorem quiet_nextReply (w : World) (id : Nat) : w.Quiet (w.nextReply id).1 := by
  unfold nextReply
  split
  · exact .refl w
  · split
    · exact .refl w
    · exact quiet_scripted w _

theorem quiet_issueScripted (w : World) (id : Nat) (r : Request) :
    w.Quiet (w.issueScripted id r).1 := by
  have hnext := (quiet_ask w id (.call r.call r.flags r.timeout r.cancel.isSome)).trans
    (quiet_nextReply _ id)
  unfold issueScripted
  simp only
  split <;> rename_i heq <;> rw [heq] at hnext
  · exact hnext
  · split
    · exact hnext
    · exact hnext

/-- **Looking at a request** is quiet, unless it is handed to an object. -/
theorem look_cases (w : World) (r : Request) (p : Progress) :
    w.Quiet (w.look r p).1 ∨ ∃ b me object, p = .unsent ∧ r.link = .bus b me ∧
      w.route b me r.call r.cancel = .ok (.object object) ∧
      w.look r p = (w.handedTo me r object,
        (w.handedTo me r object).lookReply r w.invocations.size (w.deadlineOf b r)) := by
  cases p with
  | unsent =>
    cases hlink : r.link with
    | bus b me =>
      have hlook : w.look r .unsent = w.issueBus b me r := by rw [look, hlink]
      cases hr : w.route b me r.call r.cancel with
      | error e =>
        refine Or.inl ?_
        rw [hlook, issueBus, hr]
        exact .refl w
      | ok route =>
        cases route with
        | properties owner =>
          refine Or.inl ?_
          rw [hlook, issueBus, hr]
          exact quiet_answerProperties w b owner r.call
        | object object =>
          exact Or.inr ⟨b, me, object, rfl, rfl, hr, hlook.trans (issueBus_object hr)⟩
    | scripted id =>
      refine Or.inl ?_
      rw [look, hlink]
      exact quiet_issueScripted w id r
  | awaitReply i d => exact Or.inl (.refl w)
  | delayed due o => exact Or.inl (.refl w)
  | awaitCancel => exact Or.inl (.refl w)

/-- A request goes on waiting for its reply only if nothing has come. -/
theorem lookReply_eq_inr {r : Request} {i d : Nat} {p : Progress} :
    w.lookReply r i d = .inr p ↔
      w.replyTo i = none ∧ r.cancel.any w.hasFired = false ∧ w.now < d ∧ p = .awaitReply i d := by
  unfold lookReply
  cases hr : w.replyTo i with
  | some reply => cases reply <;> simp
  | none =>
    by_cases hc : r.cancel.any w.hasFired
    · simp [hc]
    · by_cases hd : d ≤ w.now
      · simp only [hc, hd, Bool.false_eq_true, if_false, if_true, reduceCtorEq, false_iff]
        omega
      · simp only [hc, hd, Bool.false_eq_true, if_false, Sum.inr.injEq, true_and]
        constructor
        · rintro rfl
          exact ⟨by omega, rfl⟩
        · rintro ⟨-, rfl⟩
          rfl

theorem lookScripted_eq_inr {r : Request} {o : ScriptedOutcome} {p : Progress}
    (h : w.lookScripted r o = .inr p) :
    ∃ t, r.cancel = some t ∧ w.hasFired t = false ∧ p = .awaitCancel := by
  unfold lookScripted at h
  split at h
  · cases h
  · split at h
    · cases h
    · rename_i t ht
      split at h
      · cases h
      · rename_i hf
        cases h
        exact ⟨t, ht, Bool.eq_false_iff.mpr hf, rfl⟩

theorem lookDelayed_eq_inr {r : Request} {due : Nat} {o : ScriptedOutcome} {p : Progress}
    (h : w.lookDelayed r due o = .inr p) : p = .delayed due o ∨ p = .awaitCancel := by
  unfold lookDelayed at h
  split at h
  · obtain ⟨t, -, -, rfl⟩ := lookScripted_eq_inr h
    exact Or.inr rfl
  · cases h
    exact Or.inl rfl

/-- A request that has been looked at waits for the reply that it has waited for, or for the reply
to an invocation that was opened for it. -/
theorem look_awaits {r : Request} {p : Progress} {v : World} {i d : Nat}
    (h : w.look r p = (v, .inr (.awaitReply i d))) :
    p = .awaitReply i d ∨
      p = .unsent ∧ w.invocations.size = i ∧ ∃ me object, v = w.handedTo me r object := by
  have hscripted : ∀ {v : World} {o}, v.lookScripted r o ≠ .inr (.awaitReply i d) := by
    intro v o hl
    obtain ⟨t, -, -, heq⟩ := lookScripted_eq_inr hl
    cases heq
  have hdelayed : ∀ {v : World} {due o}, v.lookDelayed r due o ≠ .inr (.awaitReply i d) := by
    intro v due o hl
    rcases lookDelayed_eq_inr hl with heq | heq <;> cases heq
  cases p with
  | unsent =>
    simp only [look] at h
    split at h
    · rename_i b me _
      cases hr : w.route b me r.call r.cancel with
      | error e =>
        rw [issueBus, hr] at h
        cases h
      | ok route =>
        cases route with
        | properties owner =>
          rw [issueBus, hr] at h
          cases h
        | object object =>
          rw [issueBus_object hr] at h
          obtain ⟨-, -, -, heq⟩ := lookReply_eq_inr.mp (Prod.mk.inj h).2
          cases heq
          exact Or.inr ⟨rfl, rfl, me, object, (Prod.mk.inj h).1.symm⟩
    · unfold issueScripted at h
      simp only at h
      split at h
      · cases h
      · split at h
        · exact absurd (Prod.mk.inj h).2 hdelayed
        · exact absurd (Prod.mk.inj h).2 hscripted
  | awaitReply j e =>
    obtain ⟨-, -, -, heq⟩ := lookReply_eq_inr.mp (Prod.mk.inj h).2
    cases heq
    exact Or.inl rfl
  | delayed due o => exact absurd (Prod.mk.inj h).2 hdelayed
  | awaitCancel => exact absurd (Prod.mk.inj h).2 hscripted

theorem onward_handedTo (h : w.Orderly) {b : Nat} {me : String} {r : Request} {object : Nat}
    (hr : w.route b me r.call r.cancel = .ok (.object object)) :
    w.Onward touched (w.handedTo me r object) := by
  refine (onward_invoke h me r.call.path r.call.interface r.call.member).spawn (h.invoke _ _ _ _)
    ⟨h.routed hr, ?_⟩ (Nat.le_refl _)
  exact ⟨_, Table.get?_insert_self _ _ _, rfl⟩

theorem onward_look (h : w.Orderly) (r : Request) (p : Progress) :
    w.Onward touched (w.look r p).1 := by
  rcases look_cases w r p with hq | ⟨b, me, object, -, -, hr, hlook⟩
  · exact hq.toCalm.onward
  · rw [hlook]
    exact onward_handedTo h hr

/-- A request that goes on waiting knows the invocation for whose reply it waits. -/
theorem knows_look (h : w.Orderly) {t : Nat} {r : Request} {p q : Progress} {v : World}
    (ht : w.tasks.get? t = some (.request r p)) (hlook : w.look r p = (v, .inr q)) :
    v.Knows (.request r q) := by
  have honward : w.Onward none (w.look r p).1 := onward_look h r p
  cases q with
  | awaitReply i d =>
    rcases look_awaits hlook with rfl | ⟨rfl, rfl, me, object, rfl⟩
    · obtain ⟨inv, hi⟩ := h.known ht
      obtain ⟨reply, hi', -⟩ := honward.invocation hi
      rw [hlook] at hi'
      exact ⟨_, hi'⟩
    · rw [handedTo_eq]
      exact ⟨_, Table.get?_insert_self _ _ _⟩
  | _ => trivial

/-! ## 5. Polls and moves -/

theorem onward_runTask (h : w.Orderly) {t : Nat} {x : Task} (ht : w.tasks.get? t = some x) :
    w.Onward (some t) (w.runTask t x) := by
  have hend := onward_endTask w t
  cases x with
  | deliver bus connection => exact (quiet_deliver w bus connection).toCalm.onward
  | handle object i member body =>
    exact hend.trans (onward_handle (h.endTask t) object i member body)
  | request r p =>
    have hlook : w.Onward none (w.look r p).1 := onward_look h r p
    have ht' : (w.look r p).1.tasks.get? t = some (.request r p) := hlook.keeps ht
    simp only [runTask]
    split <;> rename_i heq <;> rw [heq] at hlook ht'
    · exact (hlook.touching _).trans
        ((calm_settleRequest _ _ _ _).onward.trans (onward_endTask _ t))
    · exact (hlook.touching _).trans (onward_replaceTask ht' (knows_look h ht heq))
  | answer i a due =>
    simp only [runTask]
    split
    · exact hend.trans (onward_conclude _ i a)
    · exact .refl w
  | fire token due =>
    simp only [runTask]
    split
    · exact hend.trans (onward_fire _ token)
    · exact .refl w
  | watch i =>
    simp only [runTask]
    split
    · exact hend.trans (calm_note _ rfl).onward
    · exact .refl w

/-- The world in which a task has been taken from the queue. -/
def taken (w : World) (t : Nat) : World := { w with ready := w.ready.erase t }

theorem Orderly.taken (h : w.Orderly) (t : Nat) : (w.taken t).Orderly := h.unready t

/-- The world in which the task that a move polls has been taken from the queue. -/
def unqueue (w : World) : Move → World
  | .poll t => w.taken t
  | _ => w

theorem unqueue_eq (w : World) (m : Move) :
    w.unqueue m = { w with ready := (w.unqueue m).ready } := by
  cases m <;> rfl

theorem Orderly.unqueue (h : w.Orderly) (m : Move) : (w.unqueue m).Orderly := by
  cases m with
  | poll t => exact h.unready t
  | _ => exact h

/-- The sorts of moves.  One that is not about calls is calm; a request is made, or a token is to
fire later, as a new task; tokens fire; a call is handed to an object; a slot is answered; a task is
polled; time passes. -/
inductive Effect (w : World) : Move → World → Prop where
  | calm {m : Move} {w' : World} (hm : m.polled = none) (h : w.Calm w') : w.Effect m w'
  | spawn {m : Move} {v : World} {x : Task} (hm : m.polled = none) (h : w.Calm v)
      (hx : (∃ r, x = .request r .unsent) ∨ ∃ token due, x = .fire token due) :
      w.Effect m (v.spawn x)
  | fire {m : Move} (hm : m.polled = none) (tokens : List Token) :
      w.Effect m (tokens.foldl World.fire w)
  | call {object : Nat} {o : Object} (ho : w.objects.get? object = some o)
      (sender path member : String) (body : Container) :
      w.Effect (.call object sender path member body)
        (Session.callDirectly w object o sender path member body).1
  | answer {slot : Nat} {answer : List Value → Answer} {w' : World}
      (h : w.answerKept slot answer = some w') : w.Effect (.answer slot answer) w'
  | poll {t : Nat} {x : Task} (ht : w.tasks.get? t = some x) :
      w.Effect (.poll t) ((w.taken t).runTask t x).closeUnheld
  /-- The queue may name a task that has ended. -/
  | stale {t : Nat} (ht : w.tasks.get? t = none) : w.Effect (.poll t) (w.taken t)
  | pass (ms : Nat) : w.Effect (.pass ms) (w.moveTo (w.now + ms))

theorem Effect.withProxy {m : Move} (hm : m.polled = none) {id : Nat} {f : Proxy → World}
    (hf : ∀ p, w.proxies.get? id = some p → w.Effect m (f p)) : w.Effect m (w.withProxy id f) := by
  unfold World.withProxy
  cases hp : w.proxies.get? id with
  | none => exact .calm hm (.refl w)
  | some p => exact hf p hp

/-- Every move is of one of the sorts. -/
theorem effect_act (h : w.Orderly) (m : Move) : w.Effect m (w.act m) := by
  cases m with
  | arrange a => exact .calm rfl (quiet_arrange h a).toCalm
  | callAsync proxy m args =>
    refine .withProxy rfl fun p hp => ?_
    unfold callMethodAsync
    split
    · exact .calm rfl (.refl w)
    · rename_i c _
      exact .spawn rfl (calm_setProxy hp (p.enter m c).1 rfl rfl) (Or.inl ⟨_, rfl⟩)
  | setProperty proxy name v =>
    refine .withProxy rfl fun p hp => ?_
    unfold setProperty
    split
    · exact .calm rfl (.refl w)
    · rename_i p' call hstart
      exact .spawn rfl (quiet_setProxy hp p' (caller_startSet hstart)).toCalm (Or.inl ⟨_, rfl⟩)
  | ask r => exact .spawn rfl (.refl w) (Or.inl ⟨_, rfl⟩)
  | takeOutcome task => exact .calm rfl (calm_outcomes w _)
  | endGet proxy name task =>
    have hdrop : w.Calm (w.dropOutcome task) := calm_outcomes w _
    simp only [act, withProxy]
    split
    · cases hp : (w.dropOutcome task).proxies.get? proxy with
      | none => exact .calm rfl hdrop
      | some p =>
        exact .calm rfl (hdrop.trans (quiet_setProxy hp _ (caller_finishGet p name _)).toCalm)
    · exact .calm rfl (.refl w)
  | endInit proxy task =>
    have hdrop : w.Calm (w.dropOutcome task) := calm_outcomes w _
    simp only [act, withProxy]
    split
    · cases hp : (w.dropOutcome task).proxies.get? proxy with
      | none => exact .calm rfl hdrop
      | some p => exact .calm rfl (hdrop.trans (quiet_setProxy hp _ (caller_finishInit p _)).toCalm)
    · exact .calm rfl (.refl w)
  | cancelPending proxy => exact .withProxy rfl fun p _ => .fire rfl _
  | call object sender path member body =>
    simp only [act, withObject]
    cases ho : w.objects.get? object with
    | none => exact .calm rfl (.refl w)
    | some o => exact .call ho sender path member body
  | answer slot answer =>
    simp only [act]
    cases ha : w.answerKept slot answer with
    | none => exact .calm rfl (.refl w)
    | some w' => exact .answer ha
  | fire token => exact .fire rfl [token]
  | fireAfter token ms => exact .spawn rfl (.refl w) (Or.inr ⟨_, _, rfl⟩)
  | poll t =>
    simp only [act, poll]
    split
    · rename_i x hx
      exact .poll hx
    · rename_i hx
      exact .stale hx
  | pass ms => exact .pass ms

/-- A call without a connection: the invocation is opened, handed over, and watched. -/
theorem callDirectly_eq (w : World) (id : Nat) (o : Object) (sender path member : String)
    (body : Container) :
    (Session.callDirectly w id o sender path member body).1
      = ((w.invoke sender path o.interface.name member).1.handle id w.invocations.size member
          body).spawn (.watch w.invocations.size) := rfl

theorem onward_callDirectly (h : w.Orderly) (id : Nat) (o : Object)
    (sender path member : String) (body : Container) :
    w.Onward touched (Session.callDirectly w id o sender path member body).1 := by
  have hw := h.invoke sender path o.interface.name member
  have hhandle : World.Onward touched _
      ((w.invoke sender path o.interface.name member).1.handle id w.invocations.size member body) :=
    onward_handle hw id w.invocations.size member body
  obtain ⟨reply, hinv, -⟩ := hhandle.invocation (Table.get?_insert_self _ _ _)
  exact ((onward_invoke h _ _ _ _).trans hhandle).spawn
    (hw.handle id w.invocations.size member body) ⟨_, hinv⟩ (Nat.le_refl _)

theorem onward_foldl_fire (ts : List Token) (w : World) : w.Onward touched (ts.foldl fire w) := by
  refine List.foldlRecOn ts fire (.refl w) fun v h t _ => ?_
  exact h.trans (onward_fire v t)

/-- A move that polls no task takes none from the queue. -/
theorem unqueue_of_not_poll {m : Move} (hm : m.polled = none) : w.unqueue m = w := by
  cases m <;> first | rfl | cases hm

/-- **Every move goes onward**, and touches no task but the one that it polls. -/
theorem onward_act (h : w.Orderly) (m : Move) : (w.unqueue m).Onward m.polled (w.act m) := by
  have he := effect_act h m
  generalize w.act m = w' at he ⊢
  cases he with
  | calm hm hc =>
    rw [unqueue_of_not_poll hm]
    exact hc.onward
  | spawn hm hc hx =>
    rw [unqueue_of_not_poll hm]
    rcases hx with ⟨r, rfl⟩ | ⟨token, due, rfl⟩
    · exact hc.onward.spawn (hc.orderly h) trivial rfl
    · exact hc.onward.spawn (hc.orderly h) trivial trivial
  | fire hm tokens =>
    rw [unqueue_of_not_poll hm]
    exact onward_foldl_fire tokens w
  | @call object o ho sender path member body =>
    exact onward_callDirectly h object o sender path member body
  | answer ha => exact onward_answerKept ha
  | @poll t x ht =>
    exact (onward_runTask (h.taken t) ht).trans (quiet_closeUnheld _).toCalm.onward
  | stale ht => exact .refl _
  | pass ms => exact onward_moveTo w (Nat.le_add_right _ _)

/-- The poll of a task that is there. -/
theorem act_poll {t : Nat} {x : Task} (ht : w.tasks.get? t = some x) :
    w.act (.poll t) = ((w.taken t).runTask t x).closeUnheld := by
  simp only [act, poll, ht, taken]

/-- No move takes back what has been given. -/
theorem later_act (h : w.Orderly) (m : Move) : w.Later (w.act m) := by
  have honward := (onward_act h m).toLater
  rw [unqueue_eq] at honward
  exact { honward with orderly := fun h => (onward_act h m).orderly (h.unqueue m) }

/-- **Order is kept** by every move. -/
theorem orderly_act (h : w.Orderly) (m : Move) : (w.act m).Orderly := (later_act h m).orderly h

/-- No run takes back what has been given. -/
theorem later_run (ms : List Move) {w : World} (h : w.Orderly) : w.Later (w.run ms) := by
  induction ms generalizing w with
  | nil => exact .refl w
  | cons m ms ih => exact (later_act h m).trans (ih (orderly_act h m))

/-- A world that is reached from the empty one is orderly. -/
theorem orderly_run (ms : List Move) : (empty.run ms).Orderly :=
  run_keeps (P := Orderly) (fun _ m h => orderly_act h m) ms orderly_empty

/-- A move keeps every task but the one that it polls, -/
theorem task_act (h : w.Orderly) {m : Move} {t : Nat} (hm : m.polled ≠ some t) {x : Task}
    (ht : w.tasks.get? t = some x) : (w.act m).tasks.get? t = some x := by
  have honward := onward_act h m
  rw [unqueue_eq] at honward
  exact honward.task hm ht

/-- and gives new tasks new numbers. -/
theorem newTask_act (h : w.Orderly) {m : Move} {t : Nat} (hm : m.polled ≠ some t) {x : Task}
    (ht : (w.act m).tasks.get? t = some x) :
    w.tasks.get? t = some x ∨ w.nextTask ≤ t ∧ w.Born x := by
  have honward := onward_act h m
  rw [unqueue_eq] at honward
  exact honward.newTask hm ht

/-- A task that nobody polls stays. -/
theorem task_run {t : Nat} {x : Task} (ms : List Move) {w : World} (h : w.Orderly)
    (hms : ∀ m ∈ ms, m.polled ≠ some t) (ht : w.tasks.get? t = some x) :
    (w.run ms).tasks.get? t = some x := by
  induction ms generalizing w with
  | nil => exact ht
  | cons m ms ih =>
    obtain ⟨hm, hms⟩ := List.forall_mem_cons.mp hms
    exact ih (orderly_act h m) hms (task_act h hm ht)

end World

end MessageBus
