/-
# A call that a synchronous handler serves

A synchronous handler has its result when it is called.  So the poll of the task that calls it gives
the invocation its reply at once, and for the call behind the invocation there are two states: the
task still stands in the queue, and there is neither a run of the handler nor a reply; or the
handler has run, once, and its reply is there for good (`World.Served`).

What the call comes to is then the reply, or word of its token or of its deadline, and it comes to
one of them by the time when nothing can run (`World.came_routed`, `World.settled_served`).
-/
import MessageBus.Proofs.Calls
import MessageBus.Proofs.Dispatching

namespace MessageBus.World

variable {w w' : World}

/-! ## 1. The handler runs once -/

/-- The runs of handlers for the invocation `i`. -/
def handlingsFor (w : World) (i : Nat) : List Handling :=
  w.handlings.filter fun e => decide (e.invocation = i)

/-- The handler has run for the invocation `i`, just as `run` says, and the reply to it is
`reply`. -/
structure Served (w : World) (i : Nat) (run : Handling) (reply : Reply Container) : Prop where
  ran : w.handlingsFor i = [run]
  replied : w.replyTo i = some reply

theorem Sound.length_handlingsFor (h : w.Sound) (i : Nat) : (w.handlingsFor i).length ≤ 1 := by
  have honce := h.once i
  have hle := tally_le_one (i < w.invocations.size)
  rw [handled, List.countP_eq_length_filter] at honce
  rw [handlingsFor]
  omega

/-- Runs of handlers are not forgotten. -/
theorem Later.handlingsFor (h : w.Later w') (i : Nat) : w.handlingsFor i <+: w'.handlingsFor i :=
  (h.journal.filterMap Event.handling?).filter _

/-- What has been served stays so. -/
theorem Served.run {i : Nat} {run : Handling} {reply : Reply Container}
    (hs : w.Served i run reply) (h : w.Sound) (ms : List Move) :
    (w.run ms).Served i run reply := by
  have hlater := later_run ms h.orderly
  refine ⟨?_, hlater.replyTo hs.replied⟩
  have hfront := hlater.handlingsFor i
  have hlength := (h.run ms).length_handlingsFor i
  rw [hs.ran] at hfront
  exact (hfront.eq_of_length_le hlength).symm

/-- While its task is there, no handler has run for an invocation, and it has no reply. -/
theorem Sound.unserved (h : w.Sound) {t object i : Nat} {member : String} {body : Container}
    (ht : w.tasks.get? t = some (.handle object i member body)) :
    w.handlingsFor i = [] ∧ w.replyTo i = none := by
  constructor
  · have hhands : (Task.handle object i member body).hands = some i := rfl
    have hend := handled_endTask h.orderly ht i
    have hone := Nat.le_trans (h.once i) (tally_le_one _)
    rw [tally_true hhands] at hend
    have hnone : (w.endTask t).handled i = 0 := by omega
    have hcount := (Nat.add_eq_zero_iff.mp hnone).1
    rw [List.countP_eq_length_filter] at hcount
    exact List.eq_nil_of_length_eq_zero hcount
  · obtain ⟨inv, hinv, hnone⟩ := (h.owing.endTask h.orderly ht).inHand
    have hinv : w.invocations.get? i = some inv := hinv
    rw [replyTo, hinv, Option.bind_some, hnone]

section Sync

variable {hd object i : Nat} {o : Handlers} {m : Method} {f : SyncHandler} {body : Container}

/-- The poll of its task serves an invocation. -/
theorem served_poll (h : w.Sound) (ht : w.tasks.get? hd = some (.handle object i m.name body))
    (ho : w.handlers? object = some o) (hm : o.interface.method? m.name = some m)
    (hbody : body.tags = m.input) (hf : o.sync.get? m.name = some f) :
    (w.act (.poll hd)).Served i ⟨object, i, m.name, body.values⟩
      (replyOf m (f body.values)).result := by
  obtain ⟨o', ho', hdispatched⟩ := dispatched_poll h.orderly h.owing ht
  rw [ho] at ho'
  cases ho'
  obtain ⟨hran, hok, herror⟩ := hdispatched.sync hm hbody hf
  obtain ⟨hnone, -⟩ := h.unserved ht
  constructor
  · rw [handlingsFor, hran, List.filter_append, ← handlingsFor, hnone]
    simp
  · cases hresult : f body.values with
    | ok r => exact hok hresult
    | error e => exact herror hresult

/-- **The handler runs once**: the task that calls it is there, or the invocation has been
served. -/
theorem served_run (ho : w.handlers? object = some o) (hm : o.interface.method? m.name = some m)
    (hbody : body.tags = m.input) (hf : o.sync.get? m.name = some f) (ms : List Move) {w' : World}
    (h : w'.Sound) (hlater : w.Later w')
    (ht : w'.tasks.get? hd = some (.handle object i m.name body)) :
    (w'.run ms).tasks.get? hd = some (.handle object i m.name body) ∨
      (w'.run ms).Served i ⟨object, i, m.name, body.values⟩ (replyOf m (f body.values)).result := by
  induction ms generalizing w' with
  | nil => exact Or.inl ht
  | cons n ms ih =>
    by_cases hn : n.polled = some hd
    · obtain rfl := Move.eq_poll hn
      have hserved := served_poll h ht (hlater.handlers ho) hm hbody hf
      exact Or.inr (hserved.run (h.act _) ms)
    · exact ih (h.act n) (hlater.trans (later_act h.orderly n)) (task_act h.orderly hn ht)

end Sync

/-! ## 2. What the call comes to -/

/-- What has come for a request whose invocation is served with `reply`: this reply, and then the
handler has run, or word of its token or its deadline. -/
inductive Came (w : World) (r : Request) (i d : Nat) (done : Handling) (reply : Reply Container) :
    Except TransportError Container → Prop where
  | reply (h : w.Served i done reply) : w.Came r i d done reply (reply.mapError .remote)
  | cancelled (h : r.cancel.any w.hasFired = true) : w.Came r i d done reply (.error .cancelled)
  | timeout (h : d ≤ w.now) : w.Came r i d done reply (.error .timeout)

section Came

variable {r : Request} {i d : Nat} {done : Handling} {reply : Reply Container}
variable {o : Except TransportError Container}

/-- What has come has come. -/
theorem Came.run (hc : w.Came r i d done reply o) (h : w.Sound) (ms : List Move) :
    (w.run ms).Came r i d done reply o := by
  have hlater := later_run ms h.orderly
  cases hc with
  | reply hs => exact .reply (hs.run h ms)
  | cancelled hf => exact .cancelled (hlater.cancelled hf)
  | timeout hd => exact .timeout (Nat.le_trans hd hlater.now)

/-- What a request sees has come. -/
theorem came_of_come (hreply : ∀ x, w.replyTo i = some x → w.Served i done reply)
    (hc : w.come r i d = some o) : w.Came r i d done reply o := by
  have hserved : ∀ {x}, w.replyTo i = some x → w.Served i done reply ∧ x = reply := by
    intro x hx
    have hs := hreply x hx
    exact ⟨hs, Option.some.inj (hx.symm.trans hs.replied)⟩
  unfold come at hc
  split at hc
  · rename_i c hx
    obtain ⟨hs, rfl⟩ := hserved hx
    cases hc
    exact .reply hs
  · rename_i e hx
    obtain ⟨hs, rfl⟩ := hserved hx
    cases hc
    exact .reply hs
  · split at hc
    · rename_i hf
      cases hc
      exact .cancelled hf
    · split at hc
      · rename_i hd
        cases hc
        exact .timeout hd
      · cases hc

end Came

section Routed

variable {t object b : Nat} {me : String} {r : Request} {o : Handlers} {m : Method}
  {f : SyncHandler}

/-- A call that is handed to an object whose handler is synchronous waits to be served, or has
been. -/
theorem served_routed (h : w.Sound) (ht : w.tasks.get? t = some (.request r .unsent))
    (hlink : r.link = .bus b me) (hr : w.route b me r.call r.cancel = .ok (.object object))
    (hmember : r.call.member = m.name) (ho : w.handlers? object = some o)
    (hm : o.interface.method? m.name = some m) (hbody : r.call.body.tags = m.input)
    (hf : o.sync.get? m.name = some f) (after : List Move) :
    (w.run (.poll t :: after)).tasks.get? w.nextTask
        = some (.handle object w.invocations.size m.name r.call.body) ∨
      (w.run (.poll t :: after)).Served w.invocations.size
        ⟨object, w.invocations.size, m.name, r.call.body.values⟩
        (replyOf m (f r.call.body.values)).result := by
  obtain ⟨hhandle, -, -⟩ := handle_routed h.orderly ht hlink hr
  rw [hmember] at hhandle
  exact served_run ho hm hbody hf after (h.act _) (later_act h.orderly _) hhandle

/-- **What such a call comes to** is the reply of its handler, or word of its token or deadline. -/
theorem came_routed (h : w.Sound) (ht : w.tasks.get? t = some (.request r .unsent))
    (hlink : r.link = .bus b me) (hr : w.route b me r.call r.cancel = .ok (.object object))
    (hmember : r.call.member = m.name) (ho : w.handlers? object = some o)
    (hm : o.interface.method? m.name = some m) (hbody : r.call.body.tags = m.input)
    (hf : o.sync.get? m.name = some f) (after : List Move)
    {x : Except TransportError Container} (hx : x ∈ observe (settled t) w (.poll t :: after)) :
    (w.run (.poll t :: after)).Came r w.invocations.size (w.deadlineOf b r)
      ⟨object, w.invocations.size, m.name, r.call.body.values⟩
      (replyOf m (f r.call.body.values)).result x := by
  rw [settled_routed h.orderly ht hlink hr] at hx
  obtain ⟨before, n, rest, hsplit, hseen⟩ := mem_observe (List.mem_of_mem_take hx)
  have hpolled : n.polled = some t := Classical.byContradiction fun hn => by
    rw [seen_of_ne hn] at hseen
    cases hseen
  obtain rfl := Move.eq_poll hpolled
  rw [seen_poll, Option.mem_toList] at hseen
  rw [hsplit, run_append]
  refine Came.run (came_of_come (fun y hy => ?_) hseen) (h.run before) _
  cases before with
  | nil =>
    rw [run_nil, replyTo, h.orderly.invocationsBelow.get?_size] at hy
    cases hy
  | cons first before =>
    cases (List.cons.inj hsplit).1
    rcases served_routed h ht hlink hr hmember ho hm hbody hf before with htask | hs
    · rw [((h.run _).unserved htask).2] at hy
      cases hy
    · exact hs

/-- It has come to one of them when nothing can run. -/
theorem settled_served (h : w.Sound) (ht : w.tasks.get? t = some (.request r .unsent))
    (hlink : r.link = .bus b me) (hr : w.route b me r.call r.cancel = .ok (.object object))
    (hmember : r.call.member = m.name) (ho : w.handlers? object = some o)
    (hm : o.interface.method? m.name = some m) (hbody : r.call.body.tags = m.input)
    (hf : o.sync.get? m.name = some f) (after : List Move)
    (hidle : (w.run (.poll t :: after)).ready = []) :
    ∃ x, observe (settled t) w (.poll t :: after) = [x] := by
  have hgoes := goes_routed h ht hlink hr after
  refine hgoes.completed hidle ?_
  rcases served_routed h ht hlink hr hmember ho hm hbody hf after with htask | hs
  · have hmem := (h.run (.poll t :: after)).awake _ _ (by simp) htask (Or.inl rfl)
    rw [hidle] at hmem
    cases hmem
  · rw [come, hs.replied]
    cases (replyOf m (f r.call.body.values)).result <;> exact Option.some_ne_none _

end Routed

end MessageBus.World
