/-
# Cancelling the pending calls of a proxy

To cancel its pending calls a proxy fires the tokens that are kept with them, and does nothing else:
no entry is taken out, and nobody is told.  Firing wakes the calls that wait, and what becomes of a
call is decided by its own task, when that is polled next.  At that moment the call comes to just one
outcome (`World.verdict`).

* One that has not been handed over is refused, and no handler is called for it.
* One that waits gets its reply if that is there, and else word of its token.  It was handed to the
  object before its token fired, so that its handler runs all the same.

In either case the entry is taken out and its completion is given the outcome, once
(`World.Dismissed`).  And no other call is touched: a request on a bus is told that it was cancelled
only when its own token has fired (`World.cancelled_own`), and which tokens fire can be read off the
moves (`MessageBus.Proofs.Firing`).  The main result is `World.cancel_exact`.
-/
import MessageBus.Proofs.Changes
import MessageBus.Proofs.Firing
import MessageBus.Proofs.Handing
import MessageBus.Proofs.Transparency

namespace MessageBus

/-- No service answers that a call was cancelled. -/
theorem Service.answerProperties_ne_cancelled (s : Service) (i : Interface) (cells : Cells)
    (member : String) (args : List Value) :
    (s.answerProperties i cells member args).outcome ≠ .error .cancelled := by
  have hpacked : ∀ x : Except PackError Container,
      x.mapError TransportError.ofPack ≠ .error .cancelled := by
    intro x hx
    cases x <;> cases hx
  have hget : ∀ name x, replyGet name x ≠ .error .cancelled := by
    intro name x hx
    unfold replyGet at hx
    split at hx
    · exact hpacked _ hx
    · cases hx
    · cases hx
  unfold answerProperties
  split
  · exact hget _ _
  · split <;> (intro h; cases h)
  · exact hpacked _
  all_goals (intro h; cases h)

namespace Proxy

/-- The token `s` is kept with a pending call. -/
def Holds (p : Proxy) (s : Token) : Prop := ∃ n c, p.pending.get? n = some c ∧ c.cancel = some s

theorem mem_pendingTokens {p : Proxy} (hp : p.pending.Distinct) {s : Token} :
    s ∈ p.pendingTokens ↔ p.Holds s := by
  constructor
  · intro hs
    obtain ⟨c, hc, hcancel⟩ := List.mem_filterMap.mp hs
    obtain ⟨⟨n, c⟩, hmem, rfl⟩ := List.mem_map.mp hc
    exact ⟨n, c, hp.get?_of_mem hmem, hcancel⟩
  · rintro ⟨n, c, hc, hcancel⟩
    exact List.mem_filterMap.mpr ⟨c, Table.mem_values_of_get? hc, hcancel⟩

end Proxy

namespace Submission

/-- The call, come to an outcome. -/
def settledWith (a : Submission) (o : Except TransportError Container) : Settlement :=
  { proxy := a.proxy, number := a.number, request := a.request, call := some a.call, outcome := o }

end Submission

namespace World

variable {w : World} {t b : Nat} {me : String} {r : Request} {q : Progress}

/-! ## 1. What a request comes to whose token has fired -/

/-- Why a call is refused that is handed over when its token has fired. -/
def refusal (w : World) (b : Nat) (me : String) : TransportError :=
  if (w.bus b).isOpen me then .cancelled else .disconnected

/-- What a request through the connection `me` of a bus comes to when its token has fired. -/
def verdict (w : World) (b : Nat) (me : String) : Progress → Except TransportError Container
  | .awaitReply i _ =>
    match w.replyTo i with
    | some reply => reply.mapError .remote
    | none => .error .cancelled
  | _ => .error (w.refusal b me)

theorem refused_of_fired (hw : w.Orderly) (ht : w.tasks.get? t = some (.request r .unsent))
    (hlink : r.link = .bus b me) (hfired : r.cancel.any w.hasFired = true) :
    w.Refused t (w.refusal b me) := by
  refine refused_of_route hw ht hlink ?_
  unfold refusal
  cases hopen : (w.bus b).isOpen me with
  | true => exact route_cancelled hopen hfired
  | false => exact route_closed hopen

/-- **A request whose token has fired is settled** when it is polled. -/
theorem outcomeOf_fired (hw : w.Orderly) (ht : w.tasks.get? t = some (.request r q))
    (hlink : r.link = .bus b me) (hfired : r.cancel.any w.hasFired = true)
    (hq : q = .unsent ∨ ∃ i d, q = .awaitReply i d) : w.outcomeOf t = some (w.verdict b me q) := by
  rcases hq with rfl | ⟨i, d, rfl⟩
  · have hsettled := (refused_of_fired hw ht hlink hfired).settled
    rw [settled_poll] at hsettled
    exact Option.toList_eq_singleton_iff.mp hsettled
  · rw [outcomeOf_waiting ht, come, verdict]
    cases w.replyTo i with
    | none => exact if_pos hfired
    | some reply => cases reply <;> rfl

/-! ## 2. Who is told that a request was cancelled -/

/-- The way of a call is not barred by a token that has not fired. -/
theorem fired_of_route {call : MethodCall} {cancel : Option Token}
    (h : w.route b me call cancel = .error .cancelled) : cancel.any w.hasFired = true := by
  cases hopen : (w.bus b).isOpen me with
  | false =>
    rw [route_closed hopen] at h
    cases h
  | true =>
    refine Classical.byContradiction fun hfired => ?_
    have hfired : cancel.any w.hasFired = false := Bool.not_eq_true _ ▸ hfired
    simp only [route, Bus.checkOpen, hopen, hfired, if_true, Bool.false_eq_true, if_false] at h
    simp only [bind, Except.bind, pure, Except.pure] at h
    split at h
    · cases h
    · split at h
      · cases h
      · split at h <;> cases h

/-- No object answers that a call was cancelled. -/
theorem answerProperties_ne_cancelled (w : World) (b : Nat) (owner : String) (call : MethodCall) :
    (w.answerProperties b owner call).2 ≠ .error .cancelled := by
  unfold answerProperties
  split
  · intro h
    cases h
  · split
    · intro h
      cases h
    · exact Service.answerProperties_ne_cancelled _ _ _ _ _

/-- What has come is that the token has fired only if it has. -/
theorem fired_of_come {i d : Nat} (h : w.come r i d = some (.error .cancelled)) :
    r.cancel.any w.hasFired = true := by
  unfold come at h
  split at h
  · cases h
  · cases h
  · split at h
    · assumption
    · split at h <;> cases h

/-- **A request on a bus is told that it was cancelled** only when its own token has fired. -/
theorem cancelled_own (hw : w.Orderly) (ht : w.tasks.get? t = some (.request r q))
    (hlink : r.link = .bus b me) (hq : q = .unsent ∨ ∃ i d, q = .awaitReply i d)
    (ho : w.outcomeOf t = some (.error .cancelled)) :
    ∃ s, r.cancel = some s ∧ w.hasFired s = true := by
  refine (Option.any_eq_true _ _).mp ?_
  rcases hq with rfl | ⟨i, d, rfl⟩
  · cases hroute : w.route b me r.call r.cancel with
    | error e =>
      have hsettled := (refused_of_route hw ht hlink hroute).settled
      rw [settled_poll, ho] at hsettled
      cases hsettled
      exact fired_of_route hroute
    | ok route =>
      cases route with
      | properties owner =>
        have hroute : (w.taken t).route b me r.call r.cancel = .ok (.properties owner) := hroute
        obtain ⟨r', q', ht', hl⟩ := outcomeOf_eq_some.mp ho
        rw [ht] at ht'
        cases ht'
        simp only [look, hlink, issueBus, hroute, Sum.inl.injEq] at hl
        exact absurd hl (answerProperties_ne_cancelled _ _ _ _)
      | object object =>
        rw [outcomeOf_routed hw ht hlink hroute] at ho
        exact fired_of_come ho
  · rw [outcomeOf_waiting ht] at ho
    exact fired_of_come ho

/-! ## 3. The calls that are pending -/

/-- A call goes through the connection of its proxy, with the token that is kept with it. -/
theorem submitted_run (ms : List Move) {a : Submission} (ha : a ∈ observe submissions empty ms) :
    a.request.cancel = a.call.cancel ∧
      ∃ p, (empty.run ms).proxies.get? a.proxy = some p ∧ p.link = a.request.link := by
  obtain ⟨before, m, after, rfl, hm⟩ := mem_observe ha
  obtain ⟨id, p, method, args, c, -, hp, -, -, hone⟩ := submitting (List.ne_nil_of_mem hm)
  rw [hone] at hm
  cases List.mem_singleton.mp hm
  obtain ⟨p', hp', -, hlink, -⟩ := proxy_run (m :: after) (orderly_run before) hp
  rw [run_append]
  exact ⟨rfl, p', hp', hlink⟩

/-- **A pending call** is one that was accepted, and there is a task that makes it. -/
theorem pending_submitted (ms : List Move) {id n : Nat} {p : Proxy} {c : PendingCall}
    (hp : (empty.run ms).proxies.get? id = some p) (hc : p.pending.get? n = some c) :
    ∃ a ∈ observe submissions empty ms, a.key = (id, n) ∧ a.call = c ∧ a.request.link = p.link ∧
      ∃ t q, (empty.run ms).tasks.get? t = some (.request a.request q) := by
  have h := ledger_of_run ms
  have hentries : p.pending.entries = (remaining _ _ id).map Submission.entry :=
    h.pending (c := p.caller) (by rw [caller?, hp, Option.map_some])
  have hmem := Table.mem_entries_of_get? hc
  rw [hentries] at hmem
  obtain ⟨a, ha, heq⟩ := List.mem_map.mp hmem
  obtain ⟨hacc, rfl, hopen⟩ := mem_remaining.mp ha
  cases heq
  obtain ⟨t, ht⟩ := h.made a hacc hopen
  obtain ⟨x, hx, hcall⟩ := Option.bind_eq_some_iff.mp ht
  obtain ⟨q, k, rfl, -⟩ := Task.call?_eq_some hcall
  obtain ⟨p', hp', hlink⟩ := (submitted_run ms hacc).2
  cases hp.symm.trans hp'
  exact ⟨a, hacc, rfl, rfl, hlink.symm, t, q, hx⟩

section Ledger

variable {A : List Submission} {C : List Settlement} {a : Submission}

theorem Ledger.calling_of_task (h : w.Ledger A C) (ha : a ∈ A)
    (ht : w.tasks.get? t = some (.request a.request q)) : w.calling t = some a.request := by
  have hkey : a.request.purpose.key? = some a.key := by rw [h.purposes a ha]; rfl
  rw [calling, ht, Option.bind_some, Task.call?_request hkey]

/-- A call has not been completed while there is a task that makes it, -/
theorem Ledger.open_of_task (h : w.Ledger A C) (ha : a ∈ A)
    (ht : w.tasks.get? t = some (.request a.request q)) : a.key ∉ C.map Settlement.key := by
  obtain ⟨a', ha', hrequest, hopen⟩ := h.making (h.calling_of_task ha ht)
  rw [h.key_eq ha ha' (congrArg Request.purpose hrequest.symm)]
  exact hopen

/-- is completed by the poll that settles the task, with its own entry, -/
theorem Ledger.settlements_poll (h : w.Ledger A C) (hw : w.Orderly) (ha : a ∈ A)
    (ht : w.tasks.get? t = some (.request a.request q)) {o : Except TransportError Container}
    (ho : w.outcomeOf t = some o) : settlements w (.poll t) = [a.settledWith o] := by
  obtain ⟨a', ha', hrequest, -, hone, -⟩ := h.completing hw (h.calling_of_task ha ht) ho
  have hkey := h.key_eq ha' ha (congrArg Request.purpose hrequest)
  cases List.inj_on_of_nodup_map h.distinct ha' ha hkey
  exact hone

/-- and is not completed again. -/
theorem Ledger.not_again (h : w.Ledger A C) (hw : w.Orderly) {k : Nat × Nat}
    (hk : k ∈ C.map Settlement.key) (ms : List Move) :
    k ∉ (observe settlements w ms).map Settlement.key := by
  have honce := (ledger_run ms hw h).once
  rw [List.map_append, List.nodup_append] at honce
  exact fun hmem => honce.2.2 k hk k hmem rfl

end Ledger

/-! ## 4. A call whose token has fired -/

/-- A list in which no settlement is that of a call has none of them left for it. -/
theorem filter_key_eq_nil {C : List Settlement} {k : Nat × Nat} (h : k ∉ C.map Settlement.key) :
    C.filter (·.key = k) = [] := by
  refine List.filter_eq_nil_iff.mpr fun s hs hkey => h ?_
  exact List.mem_map.mpr ⟨s, hs, of_decide_eq_true hkey⟩

/-- The call `a` has been recalled: it is made by the task `t`, through the connection `me` of the
bus `b`, it has come as far as `q`, and its token has fired. -/
structure Recalled (w : World) (A : List Submission) (C : List Settlement) (a : Submission)
    (b : Nat) (me : String) (t : Nat) (q : Progress) : Prop where
  sound : w.Sound
  ledger : w.Ledger A C
  accepted : a ∈ A
  task : w.tasks.get? t = some (.request a.request q)
  link : a.request.link = .bus b me
  fired : a.request.cancel.any w.hasFired = true
  place : q = .unsent ∨ ∃ i d, q = .awaitReply i d

section Recalled

variable {A : List Submission} {C : List Settlement} {a : Submission}

/-- Nothing changes until its task is polled. -/
theorem Recalled.run (h : w.Recalled A C a b me t q) {mid : List Move}
    (hmid : ∀ m ∈ mid, Move.polled m ≠ some t) :
    (w.run mid).Recalled (A ++ observe submissions w mid) (C ++ observe settlements w mid) a b me
      t q where
  sound := h.sound.run mid
  ledger := ledger_run mid h.sound.orderly h.ledger
  accepted := List.mem_append_left _ h.accepted
  task := task_run mid h.sound.orderly hmid h.task
  link := h.link
  fired := (later_run mid h.sound.orderly).cancelled h.fired
  place := h.place

/-- The task stands in the queue. -/
theorem Recalled.queued (h : w.Recalled A C a b me t q) : t ∈ w.ready := by
  refine h.sound.awake t _ (by simp) h.task ?_
  rcases h.place with rfl | ⟨i, d, rfl⟩
  · exact Or.inl rfl
  · obtain ⟨s, hs, hfired⟩ := (Option.any_eq_true _ _).mp h.fired
    exact Or.inr (Or.inr (Or.inr ⟨s, decide_eq_true hs, hfired⟩))

theorem Recalled.outcome (h : w.Recalled A C a b me t q) :
    w.outcomeOf t = some (w.verdict b me q) :=
  outcomeOf_fired h.sound.orderly h.task h.link h.fired h.place

/-- It has not been completed, -/
theorem Recalled.waits (h : w.Recalled A C a b me t q) {mid : List Move}
    (hmid : ∀ m ∈ mid, Move.polled m ≠ some t) :
    (observe settlements w mid).filter (·.key = a.key) = [] := by
  have h' := h.run hmid
  have hopen := h'.ledger.open_of_task h'.accepted h'.task
  rw [List.map_append, List.mem_append, not_or] at hopen
  exact filter_key_eq_nil hopen.2

/-- and the poll of its task completes it, once. -/
theorem Recalled.completed (h : w.Recalled A C a b me t q) (after : List Move) :
    (observe settlements w (.poll t :: after)).filter (·.key = a.key)
      = [a.settledWith (w.verdict b me q)] := by
  have hw := h.sound.orderly
  have hpoll := h.ledger.settlements_poll hw h.accepted h.task h.outcome
  have hdone := ledger_act h.ledger hw (.poll t)
  rw [hpoll] at hdone
  have hmem : a.key ∈ (C ++ [a.settledWith (w.verdict b me q)]).map Settlement.key :=
    List.mem_map.mpr ⟨_, List.mem_append_right _ (List.mem_singleton_self _), rfl⟩
  have hthis : [a.settledWith (w.verdict b me q)].filter (·.key = a.key)
      = [a.settledWith (w.verdict b me q)] :=
    List.filter_cons_of_pos (decide_eq_true rfl)
  have hrest := filter_key_eq_nil (hdone.not_again (orderly_act hw _) hmem after)
  rw [observe_cons, hpoll, List.filter_append, hthis, hrest, List.append_nil]

/-- Its completion is given the outcome. -/
theorem Recalled.told (h : w.Recalled A C a b me t q) :
    (w.act (.poll t)).told = w.told ++ a.call.tells (w.verdict b me q) :=
  h.ledger.told_poll h.sound.orderly h.accepted h.task h.outcome

/-- The task has been polled when nothing can run. -/
theorem Recalled.polled (h : w.Recalled A C a b me t q) {after : List Move}
    (hidle : (w.run after).ready = []) :
    ∃ mid rest, after = mid ++ .poll t :: rest ∧ ∀ m ∈ mid, Move.polled m ≠ some t := by
  have hmem : Move.poll t ∈ after := Classical.byContradiction fun hnone => by
    have hqueued := (h.run fun m hm heq => hnone (Move.eq_poll heq ▸ hm)).queued
    rw [hidle] at hqueued
    cases hqueued
  obtain ⟨mid, rest, rfl, hfirst⟩ := List.eq_append_cons_of_mem hmem
  exact ⟨mid, rest, rfl, fun m hm heq => hfirst (Move.eq_poll heq ▸ hm)⟩

end Recalled

/-- **The turn of a task comes** that stands in the queue, when tasks run first come first served. -/
theorem turn_of_queued (hw : w.Orderly) (ht : t ∈ w.ready) :
    ∃ mid, (∀ m ∈ mid, Move.polled m ≠ some t) ∧ w.runFor mid.length = w.run mid ∧
      (w.run mid).ready.head? = some t := by
  obtain ⟨front, back, hready, hfront⟩ := List.eq_append_cons_of_mem ht
  have hprefix : front ++ [t] <+: w.ready := ⟨back, by rw [hready]; simp⟩
  clear hready
  -- What is polled comes off the front, and what is woken goes behind `t`.
  induction front generalizing w with
  | nil =>
    obtain ⟨rest, hready⟩ := hprefix
    exact ⟨[], by simp, rfl, by rw [run_nil, ← hready]; rfl⟩
  | cons s front ih =>
    obtain ⟨hne, hfront⟩ := List.ne_and_not_mem_of_not_mem_cons hfront
    have hready : w.ready = s :: (w.ready.erase s) := by
      obtain ⟨rest, hready⟩ := hprefix
      rw [← hready, List.cons_append, List.cons_append, List.erase_cons_head]
    have hstill : front ++ [t] <+: (w.act (.poll s)).ready := by
      refine List.IsPrefix.trans ?_ (onward_act hw (.poll s)).ready
      rw [hready] at hprefix
      exact (List.cons_prefix_cons.mp hprefix).2
    obtain ⟨mid, hmid, hrun, hhead⟩ :=
      ih (orderly_act hw (.poll s)) (hstill.mem (by simp)) hfront hstill
    refine ⟨.poll s :: mid, List.forall_mem_cons.mpr ⟨?_, hmid⟩, ?_, hhead⟩
    · exact fun heq => hne (Option.some.inj heq).symm
    · rw [List.length_cons, runFor, hready]
      exact hrun

section Dismissed

variable (ms : List Move) (a : Submission) (b : Nat) (me : String) (t : Nat)

/-- What becomes of a call at the other side that has come as far as `q` when its token fires. -/
inductive Standing : Progress → Prop where
  /-- It is refused when it is handed over, and no handler runs. -/
  | unsent
      (refused : ∀ mid, (∀ m ∈ mid, Move.polled m ≠ some t) →
        ((empty.run ms).run mid).Refused t (((empty.run ms).run mid).refusal b me)) :
      Standing .unsent
  /-- It was handed over, and by the time when nothing can run it has reached the object once, and
  the handler has run once that the object has for it. -/
  | issued (object : Nat) {i d : Nat}
      (handed : ∀ after, ((empty.run ms).run after).ready = [] →
        observe (handing i) empty (ms ++ after)
          = [(object, a.request.call.member, a.request.call.body)])
      (ran : ∀ after, ((empty.run ms).run after).ready = [] →
        ∃ o, ((empty.run ms).run after).handlers? object = some o ∧
          ((empty.run ms).run after).handlingsFor i
            = o.runs object i a.request.call.member a.request.call.body) :
      Standing (.awaitReply i d)

/-- How the call `a` ends, which the task `t` makes through the connection `me` of the bus `b`, when
its token has fired in the run `ms`. -/
structure Dismissed (q : Progress) : Prop where
  task : (empty.run ms).tasks.get? t = some (.request a.request q)
  standing : Standing ms a b me t q
  /-- Until its task is polled it stands in the queue, and has not been completed. -/
  queued : ∀ mid, (∀ m ∈ mid, Move.polled m ≠ some t) → t ∈ ((empty.run ms).run mid).ready
  waits : ∀ mid, (∀ m ∈ mid, Move.polled m ≠ some t) →
    (observe settlements (empty.run ms) mid).filter (·.key = a.key) = []
  /-- The first poll completes it, -/
  completed : ∀ mid after, (∀ m ∈ mid, Move.polled m ≠ some t) →
    (observe settlements (empty.run ms) (mid ++ .poll t :: after)).filter (·.key = a.key)
      = [a.settledWith (((empty.run ms).run mid).verdict b me q)]
  /-- and gives the outcome to its own completion. -/
  told : ∀ mid, (∀ m ∈ mid, Move.polled m ≠ some t) →
    (((empty.run ms).run mid).act (.poll t)).told
      = ((empty.run ms).run mid).told ++ a.call.tells (((empty.run ms).run mid).verdict b me q)
  /-- There has been one when nothing can run, -/
  polled : ∀ after, ((empty.run ms).run after).ready = [] →
    ∃ mid rest, after = mid ++ .poll t :: rest ∧ ∀ m ∈ mid, Move.polled m ≠ some t
  /-- and its turn comes when tasks run first come first served. -/
  turn : ∃ mid, (∀ m ∈ mid, Move.polled m ≠ some t) ∧
    (empty.run ms).runFor mid.length = (empty.run ms).run mid ∧
    ((empty.run ms).run mid).ready.head? = some t

end Dismissed

/-- **A call whose token has fired ends** with its next poll. -/
theorem dismissed_run (ms : List Move) {a : Submission} (ha : a ∈ observe submissions empty ms)
    (ht : (empty.run ms).tasks.get? t = some (.request a.request q))
    (hlink : a.request.link = .bus b me)
    (hfired : a.request.cancel.any (empty.run ms).hasFired = true) : Dismissed ms a b me t q := by
  have h : (empty.run ms).Recalled _ _ a b me t q :=
    { sound := sound_empty.run ms
      ledger := ledger_of_run ms
      accepted := ha
      task := ht
      link := hlink
      fired := hfired
      place := place_run ms ht hlink }
  refine ⟨ht, ?_, fun mid hmid => (h.run hmid).queued, fun mid hmid => h.waits hmid, ?_,
    fun mid hmid => (h.run hmid).told, fun after hidle => h.polled hidle,
    turn_of_queued h.sound.orderly h.queued⟩
  · rcases progress_run ms ht hlink with rfl | ⟨object, i, d, rfl, hissued⟩
    · refine .unsent fun mid hmid => ?_
      have h' := h.run hmid
      exact refused_of_fired h'.sound.orderly h'.task hlink h'.fired
    · have hthere : ∀ after, Issued (ms ++ after) t a.request b me object i d := hissued.append
      refine .issued object (fun after hidle => ?_) fun after hidle => ?_
      · rw [← run_append] at hidle
        exact (hthere after).handed hlink hidle
      · rw [← run_append] at hidle ⊢
        exact (hthere after).ran hlink hidle
  · intro mid after hmid
    rw [observe_append, List.filter_append, h.waits hmid, List.nil_append]
    exact (h.run hmid).completed after

/-! ## 5. The account -/

/-- What cancelling the pending calls of the proxy `p`, of number `id`, comes to after the run
`before`, whatever happens then. -/
structure CancelExact (before : List Move) (id : Nat) (p : Proxy) : Prop where
  /-- The tokens fire that calls hold which are pending at that moment, and no others. -/
  fires : ∀ s, (empty.run (before ++ [.cancelPending id])).hasFired s = true ↔
    (empty.run before).hasFired s = true ∨ p.Holds s
  /-- Tasks are woken by that, and nothing else happens. -/
  only : empty.run (before ++ [.cancelPending id])
    = { empty.run before with
        fired := (empty.run (before ++ [.cancelPending id])).fired
        ready := (empty.run (before ++ [.cancelPending id])).ready }
  /-- Each call of this proxy and of any other that is pending at that moment ends, if its token has
  fired. -/
  ends : ∀ y p' n c b me, (empty.run before).proxies.get? y = some p' → p'.link = .bus b me →
    p'.pending.get? n = some c →
    c.cancel.any (empty.run (before ++ [.cancelPending id])).hasFired = true →
    ∃ a ∈ observe submissions empty before, a.key = (y, n) ∧ a.call = c ∧
      ∃ t q, Dismissed (before ++ [.cancelPending id]) a b me t q
  /-- Completions are given what calls are settled with, and nothing else. -/
  told : ∀ after, (empty.run (before ++ .cancelPending id :: after)).told
    = (observe settlements empty (before ++ .cancelPending id :: after)).flatMap Settlement.tells
  /-- A request of anybody, made at any time, is told that it was cancelled only if it has a token,
  and this is one of those, or had fired before, or has been fired by another move since. -/
  others : ∀ after t r q b me,
    (empty.run (before ++ .cancelPending id :: after)).tasks.get? t = some (.request r q) →
    r.link = .bus b me →
    (empty.run (before ++ .cancelPending id :: after)).outcomeOf t = some (.error .cancelled) →
    ∃ s, r.cancel = some s ∧
      (p.Holds s ∨ (empty.run before).hasFired s = true ∨
        s ∈ observe firings (empty.run (before ++ [.cancelPending id])) after)

/-- **Cancelling the pending calls of a proxy is exact.** -/
theorem cancel_exact (before : List Move) {id : Nat} {p : Proxy}
    (hp : (empty.run before).proxies.get? id = some p) : CancelExact before id p := by
  have hact : empty.run (before ++ [.cancelPending id])
      = p.pendingTokens.foldl fire (empty.run before) := by
    rw [run_append, run_cons, run_nil, act, withProxy, hp, Option.elim_some, cancelPending]
  have hdistinct : p.pending.Distinct :=
    (ledger_of_run before).distinct_pending (c := p.caller) (by rw [caller?, hp, Option.map_some])
  have hfires : ∀ s, (empty.run (before ++ [.cancelPending id])).hasFired s = true ↔
      (empty.run before).hasFired s = true ∨ p.Holds s := fun s => by
    rw [hact, hasFired_foldl_fire, Proxy.mem_pendingTokens hdistinct]
  have honly := foldl_fire_eq p.pendingTokens (empty.run before)
  rw [← hact] at honly
  refine ⟨hfires, honly, ?_, fun after => (ledger_of_run _).told, ?_⟩
  · intro y p' n c b me hp' hlink hc hfired
    obtain ⟨a, ha, hkey, rfl, hproxy, t, q, ht⟩ := pending_submitted before hp' hc
    refine ⟨a, ha, hkey, rfl, t, q, dismissed_run _ ?_ ?_ (hproxy.trans hlink) ?_⟩
    · rw [observe_append]
      exact List.mem_append_left _ ha
    · rw [honly]
      exact ht
    · rw [(submitted_run before ha).1]
      exact hfired
  · intro after t r q b me ht hlink ho
    obtain ⟨s, hs, hfired⟩ := cancelled_own (orderly_run _) ht hlink (place_run _ ht hlink) ho
    refine ⟨s, hs, ?_⟩
    have hsplit : before ++ .cancelPending id :: after
        = (before ++ [.cancelPending id]) ++ after := by
      rw [List.append_assoc, List.cons_append, List.nil_append]
    rw [hsplit, run_append, hasFired_run after (orderly_run _), hfires, or_assoc] at hfired
    tauto

/-! ## 6. Three calls, of which two are cancelled -/

/-- Three calls of a proxy, the first two with the same token; the first has been handed over. -/
def echoCalls : List Move :=
  echoProxy ++
    [.callAsync 0 echo [.value (.string "one"), .cancel ⟨"stop"⟩, .reply "one"],
      .callAsync 0 echo [.value (.string "two"), .cancel ⟨"stop"⟩, .reply "two"],
      .callAsync 0 echo [.value (.string "three"), .reply "three"],
      .poll 2]

/-- The first two are cancelled, one that waits and one that has not been handed over. -/
theorem cancel_exact_echo :
    ∃ p, (empty.run echoCalls).proxies.get? 0 = some p ∧ p.link = .bus 0 ":1.2" ∧
      p.pending.size = 3 ∧ p.pendingTokens = [⟨"stop"⟩, ⟨"stop"⟩] ∧
      ((empty.run echoCalls).tasks.get? 2).any (·.awaitsReply 0) = true ∧
      ((empty.run echoCalls).tasks.get? 3).any (·.isPrompt) = true ∧
      CancelExact echoCalls 0 p :=
  ⟨_, rfl, rfl, by rfl, by rfl, by decide +kernel, by decide +kernel, cancel_exact echoCalls rfl⟩

end World

end MessageBus
