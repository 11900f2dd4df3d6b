/-
# Asynchronous calls are completed once

A proxy numbers the asynchronous calls that it accepts, keeps an entry for each, and has a task make
the call.  The poll that settles the task takes the entry out and gives the outcome to the
completion in it.  So three things have to agree at any time: the counter, the entries, and the
tasks.

What they agree on is the history.  `World.submissions` and `World.settlements` read off a run which
calls were accepted and which have been completed, and `World.Ledger` says how the state follows
from these two lists: the entries are the accepted calls that have not been completed, in the order
in which they were made, each of them has just one task, and completions have been given what is
listed.  A submission adds to the one list, a poll that settles a call to the other
(`World.Ledger.submit`, `World.Ledger.settle`), and any other move is untold.  The main result is
`World.calls_complete_once`.
-/
import MessageBus.Proofs.Untold

namespace MessageBus

/-! ## 1. What happens to calls -/

/-- An asynchronous call that a proxy has accepted. -/
structure Submission where
  proxy : Nat
  number : Nat
  request : Request
  /-- What the proxy keeps of it. -/
  call : PendingCall

namespace Submission

/-- The proxy and the number of the call. -/
def key (a : Submission) : Nat × Nat := (a.proxy, a.number)

/-- The entry of the call with its proxy. -/
def entry (a : Submission) : Nat × PendingCall := (a.number, a.call)

end Submission

/-- What the completion of a call is given when the call comes to an outcome. -/
def PendingCall.tells (c : PendingCall) (o : Except TransportError Container) : List Event :=
  match c.completion with
  | .reply handler => [.replied handler (readReply c.method o)]
  | .finish handler => [.finished handler { method := c.method, reply := o }]
  | .log => []

/-- An asynchronous call that has come to an outcome. -/
structure Settlement where
  proxy : Nat
  number : Nat
  request : Request
  /-- The entry that the proxy had for it. -/
  call : Option PendingCall
  outcome : Except TransportError Container

namespace Settlement

/-- The proxy and the number of the call. -/
def key (s : Settlement) : Nat × Nat := (s.proxy, s.number)

/-- What the completion in the entry is given. -/
def tells (s : Settlement) : List Event := s.call.elim [] (·.tells s.outcome)

/-- It is the accepted call `a` that has come to an outcome: its own request, and its own entry. -/
structure Settles (s : Settlement) (a : Submission) : Prop where
  key : s.key = a.key
  request : s.request = a.request
  call : s.call = some a.call

end Settlement

/-- The accepted calls of a proxy that have not been completed, in order. -/
def remaining (accepted : List Submission) (completed : List Settlement) (id : Nat) :
    List Submission :=
  accepted.filter fun a => a.proxy = id ∧ a.key ∉ completed.map Settlement.key

theorem mem_remaining {A : List Submission} {C : List Settlement} {id : Nat} {a : Submission} :
    a ∈ remaining A C id ↔ a ∈ A ∧ a.proxy = id ∧ a.key ∉ C.map Settlement.key := by
  rw [remaining, List.mem_filter, decide_eq_true_eq]

/-- A new call remains, if it has not been completed. -/
theorem remaining_append {A : List Submission} {C : List Settlement} {a : Submission}
    (ha : a.key ∉ C.map Settlement.key) (id : Nat) :
    remaining (A ++ [a]) C id = remaining A C id ++ if a.proxy = id then [a] else [] := by
  rw [remaining, List.filter_append, remaining]
  congr 1
  simp only [List.filter_cons, List.filter_nil, ha, not_false_eq_true, and_true,
    decide_eq_true_eq]

/-- A call that is completed remains no more. -/
theorem remaining_completed (A : List Submission) (C : List Settlement) (s : Settlement)
    (id : Nat) :
    remaining A (C ++ [s]) id = (remaining A C id).filter fun a => a.key ≠ s.key := by
  simp only [remaining, List.filter_filter]
  refine List.filter_congr fun a _ => ?_
  rw [← Bool.decide_and]
  refine decide_eq_decide.mpr ?_
  simp only [List.map_append, List.map_cons, List.map_nil, List.mem_append, List.mem_singleton,
    not_or]
  constructor
  · rintro ⟨hproxy, hopen, hne⟩
    exact ⟨hne, hproxy, hopen⟩
  · rintro ⟨hne, hproxy, hopen⟩
    exact ⟨hproxy, hopen, hne⟩

/-- The numbers of the calls that remain of a proxy are different. -/
theorem nodup_remaining {A : List Submission} (hA : (A.map Submission.key).Nodup)
    (C : List Settlement) (id : Nat) : ((remaining A C id).map Submission.number).Nodup := by
  have hkeys : ((remaining A C id).map Submission.key).Nodup :=
    hA.sublist (List.filter_sublist.map _)
  have heq : (remaining A C id).map Submission.key
      = ((remaining A C id).map Submission.number).map (Prod.mk id) := by
    rw [List.map_map]
    refine List.map_congr_left fun a ha => ?_
    obtain ⟨-, hproxy, -⟩ := mem_remaining.mp ha
    exact Prod.ext hproxy rfl
  rw [heq] at hkeys
  exact List.Pairwise.of_map (Prod.mk id) (fun _ _ hne heq => hne (congrArg (Prod.mk id) heq)) hkeys

namespace World

/-- The calls that a move makes proxies accept. -/
def submissions (w : World) : Move → List Submission
  | .callAsync id m args =>
    match w.proxies.get? id with
    | some p =>
      match prepare m .async p.convention args with
      | .ok c =>
        [{ proxy := id
           number := p.nextCall
           request := callRequest p m c (.complete id p.nextCall)
           call := ⟨m, c.cancel, c.completion⟩ }]
      | .error _ => []
    | none => []
  | _ => []

/-- The asynchronous calls that a move completes. -/
def settlements (w : World) : Move → List Settlement
  | .poll t =>
    match w.calling t, w.outcomeOf t with
    | some r, some outcome =>
      match r.purpose with
      | .complete proxy number =>
        [{ proxy
           number
           request := r
           call := (w.proxies.get? proxy).bind (·.pending.get? number)
           outcome }]
      | _ => []
    | _, _ => []
  | _ => []

/-- How a world follows from the calls that were accepted and completed. -/
structure Ledger (w : World) (A : List Submission) (C : List Settlement) : Prop where
  numbered : ∀ a ∈ A, ∃ c, w.caller? a.proxy = some c ∧ a.number < c.nextCall
  purposes : ∀ a ∈ A, a.request.purpose = .complete a.proxy a.number
  distinct : (A.map Submission.key).Nodup
  pending : ∀ {id c}, w.caller? id = some c →
    c.pending.entries = (remaining A C id).map Submission.entry
  own : ∀ s ∈ C, ∃ a ∈ A, s.Settles a
  once : (C.map Settlement.key).Nodup
  /-- A task makes a call that has been accepted and not completed, -/
  making : ∀ {t r}, w.calling t = some r → ∃ a ∈ A, a.request = r ∧ a.key ∉ C.map Settlement.key
  /-- no other task makes it, -/
  single : ∀ {s t r r'}, w.calling s = some r → w.calling t = some r' → r.purpose = r'.purpose →
    s = t
  /-- and for each such call there is a task. -/
  made : ∀ a ∈ A, a.key ∉ C.map Settlement.key → ∃ t, w.calling t = some a.request
  told : w.told = C.flatMap Settlement.tells

theorem ledger_empty : empty.Ledger [] [] where
  numbered := by simp
  purposes := by simp
  distinct := List.nodup_nil
  pending := by
    intro id c hc
    cases hc
  own := by simp
  once := List.nodup_nil
  making := by
    intro t r ht
    cases ht
  single := by
    intro s t r r' hs
    cases hs
  made := by simp
  told := rfl

variable {w w' : World} {A : List Submission} {C : List Settlement}

/-! ## 2. Moves that tell nobody anything -/

theorem Ledger.untold (h : w.Ledger A C) (hu : w.Untold w') : w'.Ledger A C where
  numbered := by
    intro a ha
    obtain ⟨c, hc, hlt⟩ := h.numbered a ha
    exact ⟨c, hu.caller hc, hlt⟩
  purposes := h.purposes
  distinct := h.distinct
  pending := by
    intro id c hc
    rcases hu.newCaller hc with hc | ⟨hnone, hfresh, -⟩
    · exact h.pending hc
    · have hempty : remaining A C id = [] := by
        refine List.eq_nil_iff_forall_not_mem.mpr fun a ha => ?_
        obtain ⟨hacc, rfl, -⟩ := mem_remaining.mp ha
        obtain ⟨d, hd, -⟩ := h.numbered a hacc
        rw [hnone] at hd
        cases hd
      rw [hfresh, hempty]
      rfl
  own := h.own
  once := h.once
  making := by
    intro t r ht
    rw [hu.calling] at ht
    exact h.making ht
  single := by
    intro s t r r' hs ht
    rw [hu.calling] at hs ht
    exact h.single hs ht
  made := by
    intro a ha hopen
    obtain ⟨t, ht⟩ := h.made a ha hopen
    exact ⟨t, (hu.calling t).trans ht⟩
  told := hu.told.trans h.told

/-- Outcomes that are laid by for somebody are of no account. -/
theorem Ledger.outcomes (h : w.Ledger A C) (o : Table Nat (Except TransportError Container)) :
    World.Ledger { w with outcomes := o } A C :=
  ⟨h.numbered, h.purposes, h.distinct, h.pending, h.own, h.once, h.making, h.single, h.made, h.told⟩

/-! ## 3. Submissions -/

/-- A number that has not been given is not among those of the accepted calls. -/
theorem Ledger.new (h : w.Ledger A C) {id : Nat} {c : Caller} (hc : w.caller? id = some c) :
    ∀ a ∈ A, a.key ≠ (id, c.nextCall) := by
  intro a ha heq
  obtain ⟨hproxy, hnumber⟩ := Prod.mk.inj heq
  obtain ⟨d, hd, hlt⟩ := h.numbered a ha
  rw [hproxy, hc] at hd
  cases hd
  omega

/-- It is not among those of the completed ones, either. -/
theorem Ledger.not_completed (h : w.Ledger A C) {k : Nat × Nat} (hk : ∀ a ∈ A, a.key ≠ k) :
    k ∉ C.map Settlement.key := by
  intro hmem
  obtain ⟨s, hs, rfl⟩ := List.mem_map.mp hmem
  obtain ⟨a, ha, hsettles⟩ := h.own s hs
  exact hk a ha hsettles.key.symm

/-- The numbers of a proxy's entries are those of its calls that remain. -/
theorem Ledger.keys (h : w.Ledger A C) {id : Nat} {c : Caller} (hc : w.caller? id = some c) :
    c.pending.keys = (remaining A C id).map Submission.number := by
  rw [Table.keys, h.pending hc, List.map_map]
  rfl

/-- Accepted calls that are made for one purpose are the same call. -/
theorem Ledger.key_eq (h : w.Ledger A C) {a b : Submission} (ha : a ∈ A) (hb : b ∈ A)
    (heq : a.request.purpose = b.request.purpose) : a.key = b.key := by
  rw [h.purposes a ha, h.purposes b hb] at heq
  obtain ⟨hproxy, hnumber⟩ := Purpose.complete.inj heq
  exact Prod.ext hproxy hnumber

section Submitted

variable (w : World) (p : Proxy) (m : Method) (c : PreparedCall) (r : Request) (id : Nat)

/-- What the proxies know after a submission, -/
theorem caller_submitted (j : Nat) :
    World.caller? ((w.setProxy id (p.enter m c).1).spawn (.request r .unsent)) j
      = if id = j then some (p.enter m c).1.caller else w.caller? j := by
  rw [spawn_eq]
  simp only [caller?, setProxy, Table.get?_insert]
  split <;> rfl

/-- and which tasks make calls. -/
theorem calling_submitted {r : Request} {id : Nat} (hr : r.purpose = .complete id p.nextCall)
    (t : Nat) :
    World.calling ((w.setProxy id (p.enter m c).1).spawn (.request r .unsent)) t
      = if w.nextTask = t then some r else w.calling t := by
  rw [spawn_eq]
  simp only [calling, setProxy, Table.get?_insert]
  split
  · rw [Option.bind_some, Task.call?_request (k := (id, p.nextCall)) (by rw [hr]; rfl)]
  · rfl

end Submitted

/-- The entry of a call goes behind those that the proxy has. -/
theorem Ledger.entries_enter (h : w.Ledger A C) {p : Proxy} {id : Nat}
    (hc : w.caller? id = some p.caller) (m : Method) (c : PreparedCall) :
    (p.enter m c).1.pending.entries = (remaining A C id).map Submission.entry
      ++ [(p.nextCall, ⟨m, c.cancel, c.completion⟩)] := by
  have hfree : p.pending.get? p.nextCall = none := by
    refine Table.get?_eq_none_iff.mpr fun hmem => ?_
    have hkeys : p.pending.keys = (remaining A C id).map Submission.number := h.keys hc
    rw [hkeys] at hmem
    obtain ⟨a, ha, hnumber⟩ := List.mem_map.mp hmem
    obtain ⟨ha, hproxy, -⟩ := mem_remaining.mp ha
    exact h.new hc a ha (Prod.ext hproxy hnumber)
  have hentries : p.pending.entries = (remaining A C id).map Submission.entry := h.pending hc
  change (p.pending.insert p.nextCall _).entries = _
  rw [Table.entries_insert_new hfree, hentries]

/-- No task makes a call under the number that a proxy gives next. -/
theorem Ledger.unmade (h : w.Ledger A C) {p : Proxy} {id : Nat}
    (hc : w.caller? id = some p.caller) {t : Nat} {s : Request} (ht : w.calling t = some s) :
    s.purpose ≠ .complete id p.nextCall := by
  intro heq
  obtain ⟨a, ha, rfl, -⟩ := h.making ht
  rw [h.purposes a ha] at heq
  obtain ⟨hproxy, hnumber⟩ := Purpose.complete.inj heq
  exact h.new hc a ha (Prod.ext hproxy hnumber)

/-- **A submission** adds one accepted call. -/
theorem Ledger.submit (h : w.Ledger A C) (hw : w.Orderly) {id : Nat} {p : Proxy}
    (hp : w.proxies.get? id = some p) (m : Method) (c : PreparedCall) :
    World.Ledger ((w.setProxy id (p.enter m c).1).spawn
      (.request (callRequest p m c (.complete id p.nextCall)) .unsent))
      (A ++ [{ proxy := id, number := p.nextCall,
               request := callRequest p m c (.complete id p.nextCall),
               call := ⟨m, c.cancel, c.completion⟩ }]) C := by
  have hcaller : w.caller? id = some p.caller := by rw [caller?, hp, Option.map_some]
  have hnew : ∀ a ∈ A, a.key ≠ (id, p.nextCall) := h.new hcaller
  have hopen := h.not_completed hnew
  generalize hr : callRequest p m c (.complete id p.nextCall) = r
  have hpurpose : r.purpose = .complete id p.nextCall := by rw [← hr]; rfl
  have hcallers := caller_submitted w p m c r id
  have hcalling := calling_submitted w p m c hpurpose
  exact
    { numbered := by
        intro a ha
        rw [hcallers]
        rcases List.mem_append.mp ha with ha | ha
        · obtain ⟨d, hd, hlt⟩ := h.numbered a ha
          split
          · rename_i heq
            rw [← heq, hcaller] at hd
            cases hd
            exact ⟨_, rfl, Nat.lt_succ_of_lt hlt⟩
          · exact ⟨d, hd, hlt⟩
        · cases List.mem_singleton.mp ha
          exact ⟨_, if_pos rfl, Nat.lt_succ_self _⟩
      purposes := by
        intro a ha
        rcases List.mem_append.mp ha with ha | ha
        · exact h.purposes a ha
        · cases List.mem_singleton.mp ha
          exact hpurpose
      distinct := by
        rw [List.map_append, List.map_cons, List.map_nil, List.nodup_append]
        refine ⟨h.distinct, List.pairwise_singleton _ _, fun k hk k' hk' heq => ?_⟩
        cases List.mem_singleton.mp hk'
        subst heq
        obtain ⟨a, ha, heq⟩ := List.mem_map.mp hk
        exact hnew a ha heq
      pending := by
        intro j d hd
        rw [hcallers] at hd
        rw [remaining_append hopen]
        split at hd
        · rename_i heq
          subst heq
          cases hd
          rw [if_pos rfl, List.map_append]
          exact h.entries_enter hcaller m c
        · rename_i hne
          rw [if_neg hne, List.append_nil]
          exact h.pending hd
      own := by
        intro s hs
        obtain ⟨a, ha, hsettles⟩ := h.own s hs
        exact ⟨a, List.mem_append_left _ ha, hsettles⟩
      once := h.once
      making := by
        intro t r' ht
        rw [hcalling] at ht
        split at ht
        · cases ht
          exact ⟨_, List.mem_append_right _ (List.mem_singleton_self _), rfl, hopen⟩
        · obtain ⟨a, ha, hrest⟩ := h.making ht
          exact ⟨a, List.mem_append_left _ ha, hrest⟩
      single := by
        intro s t s' t' hs ht heq
        rw [hcalling] at hs ht
        split at hs <;> split at ht
        · omega
        · cases hs
          exact absurd (heq.symm.trans hpurpose) (h.unmade hcaller ht)
        · cases ht
          exact absurd (heq.trans hpurpose) (h.unmade hcaller hs)
        · exact h.single hs ht heq
      made := by
        intro a ha hremains
        rcases List.mem_append.mp ha with ha | ha
        · obtain ⟨t, ht⟩ := h.made a ha hremains
          refine ⟨t, ?_⟩
          rw [hcalling, if_neg]
          · exact ht
          · rintro rfl
            rw [calling, hw.task_free (Nat.le_refl _)] at ht
            cases ht
        · cases List.mem_singleton.mp ha
          exact ⟨w.nextTask, by rw [hcalling, if_pos rfl]⟩
      told := by
        rw [spawn_eq]
        exact h.told }

/-! ## 4. Settlements -/

/-- A proxy has one entry under a number. -/
theorem Ledger.distinct_pending (h : w.Ledger A C) {id : Nat} {c : Caller}
    (hc : w.caller? id = some c) : c.pending.Distinct := by
  rw [Table.Distinct, h.keys hc]
  exact nodup_remaining h.distinct C id

/-- A call that a task makes has its entry with its proxy. -/
theorem Ledger.entry (h : w.Ledger A C) {t : Nat} {r : Request} (ht : w.calling t = some r) :
    ∃ a ∈ A, a.request = r ∧ a.key ∉ C.map Settlement.key ∧
      ∃ p, w.proxies.get? a.proxy = some p ∧ p.pending.get? a.number = some a.call := by
  obtain ⟨a, ha, hrequest, hopen⟩ := h.making ht
  obtain ⟨c, hc, -⟩ := h.numbered a ha
  obtain ⟨p, hp, rfl⟩ := Option.map_eq_some_iff.mp hc
  refine ⟨a, ha, hrequest, hopen, p, hp, ?_⟩
  have hentries : p.pending.entries = (remaining A C a.proxy).map Submission.entry := h.pending hc
  have hdistinct : p.pending.Distinct := h.distinct_pending hc
  refine hdistinct.get?_of_mem ?_
  rw [hentries]
  exact List.mem_map.mpr ⟨a, mem_remaining.mpr ⟨ha, rfl, hopen⟩, rfl⟩

/-- Telling a completion changes no proxy and no task. -/
theorem complete_eq (w : World) (c : PendingCall) (o : Except TransportError Container) :
    (w.complete c o).proxies = w.proxies ∧ (w.complete c o).tasks = w.tasks ∧
      (w.complete c o).outcomes = w.outcomes := by
  unfold complete
  split
  · exact ⟨rfl, rfl, rfl⟩
  · exact ⟨rfl, rfl, rfl⟩
  · split <;> exact ⟨rfl, rfl, rfl⟩

/-- It is given the outcome. -/
theorem told_complete (w : World) (c : PendingCall) (o : Except TransportError Container) :
    (w.complete c o).told = w.told ++ c.tells o := by
  unfold complete PendingCall.tells
  cases c.completion with
  | reply handler => exact List.filter_append _ _
  | finish handler => exact List.filter_append _ _
  | log =>
    simp only
    split <;> exact (List.append_nil _).symm

/-- Settling a call takes its entry out, and gives the outcome to the completion in it. -/
theorem settleRequest_complete {t id number : Nat} {p : Proxy} {c : PendingCall}
    (hp : w.proxies.get? id = some p) (hc : p.pending.get? number = some c)
    (o : Except TransportError Container) :
    w.settleRequest t (.complete id number) o
      = (w.setProxy id (p.leave number).1).complete c o := by
  simp only [settleRequest, hp, Proxy.leave, hc]
  rfl

section Settled

variable (w : World) (p : Proxy) (c : PendingCall) (o : Except TransportError Container)
  (id number t : Nat)

/-- What the proxies know after a settlement, -/
theorem caller_settled (j : Nat) :
    World.caller? (((w.setProxy id (p.leave number).1).complete c o).endTask t) j
      = if id = j then some (p.leave number).1.caller else w.caller? j := by
  rw [caller?, endTask, (complete_eq _ c o).1]
  simp only [setProxy, Table.get?_insert, caller?]
  split <;> rfl

/-- and which tasks make calls. -/
theorem calling_settled (j : Nat) :
    World.calling (((w.setProxy id (p.leave number).1).complete c o).endTask t) j
      = if t = j then none else w.calling j := by
  rw [calling, endTask, (complete_eq _ c o).2.1]
  simp only [setProxy, Table.get?_erase, calling]
  split <;> rfl

end Settled

/-- The entry of a call is taken out, and the others stay. -/
theorem Ledger.entries_leave (h : w.Ledger A C) {p : Proxy} {id : Nat}
    (hc : w.caller? id = some p.caller) (number : Nat) :
    (p.leave number).1.pending.entries
      = ((remaining A C id).filter fun b => b.key ≠ (id, number)).map Submission.entry := by
  have hentries : p.pending.entries = (remaining A C id).map Submission.entry := h.pending hc
  change (p.pending.entries.filter fun e => decide (e.1 ≠ number)) = _
  rw [hentries, List.filter_map]
  refine congrArg _ (List.filter_congr fun b hb => ?_)
  obtain ⟨-, hproxy, -⟩ := mem_remaining.mp hb
  refine decide_eq_decide.mpr (not_congr ⟨fun hnumber => Prod.ext hproxy hnumber, fun heq => ?_⟩)
  exact (Prod.mk.inj heq).2

/-- **A settlement** adds one completed call, the one whose task has come to the outcome. -/
theorem Ledger.settle (h : w.Ledger A C) {t : Nat} {a : Submission} (ha : a ∈ A)
    (ht : w.calling t = some a.request) (hopen : a.key ∉ C.map Settlement.key) {p : Proxy}
    (hp : w.proxies.get? a.proxy = some p) (o : Except TransportError Container) :
    World.Ledger (((w.setProxy a.proxy (p.leave a.number).1).complete a.call o).endTask t) A
      (C ++ [{ proxy := a.proxy, number := a.number, request := a.request, call := some a.call,
               outcome := o }]) := by
  generalize hs : (Settlement.mk a.proxy a.number a.request (some a.call) o) = s
  have hkey : s.key = a.key := by rw [← hs]; rfl
  have hcaller : w.caller? a.proxy = some p.caller := by rw [caller?, hp, Option.map_some]
  have hcallers := caller_settled w p a.call o a.proxy a.number t
  have hcalling := calling_settled w p a.call o a.proxy a.number t
  have hmem : ∀ {k}, k ∉ (C ++ [s]).map Settlement.key ↔
      k ∉ C.map Settlement.key ∧ k ≠ a.key := by
    intro k
    rw [List.map_append, List.mem_append, not_or, List.map_cons, List.map_nil, List.mem_singleton,
      hkey]
  exact
    { numbered := by
        intro b hb
        obtain ⟨d, hd, hlt⟩ := h.numbered b hb
        rw [hcallers]
        split
        · rename_i heq
          rw [← heq, hcaller] at hd
          cases hd
          exact ⟨_, rfl, hlt⟩
        · exact ⟨d, hd, hlt⟩
      purposes := h.purposes
      distinct := h.distinct
      pending := by
        intro j d hd
        rw [hcallers] at hd
        rw [remaining_completed, hkey]
        split at hd
        · rename_i heq
          subst heq
          cases hd
          exact h.entries_leave hcaller a.number
        · rename_i hne
          rw [List.filter_eq_self.mpr]
          · exact h.pending hd
          · intro b hb
            obtain ⟨-, hproxy, -⟩ := mem_remaining.mp hb
            exact decide_eq_true fun heq => hne ((Prod.mk.inj heq).1.symm.trans hproxy)
      own := by
        intro b hb
        rcases List.mem_append.mp hb with hb | hb
        · exact h.own b hb
        · cases List.mem_singleton.mp hb
          exact ⟨a, ha, by rw [← hs]; exact ⟨rfl, rfl, rfl⟩⟩
      once := by
        rw [List.map_append, List.map_cons, List.map_nil, List.nodup_append]
        refine ⟨h.once, List.pairwise_singleton _ _, fun k hk k' hk' heq => ?_⟩
        cases List.mem_singleton.mp hk'
        rw [heq, hkey] at hk
        exact hopen hk
      making := by
        intro j r hj
        rw [hcalling] at hj
        split at hj
        · cases hj
        · rename_i hne
          obtain ⟨b, hb, hrequest, hbopen⟩ := h.making hj
          refine ⟨b, hb, hrequest, hmem.mpr ⟨hbopen, fun heq => hne ?_⟩⟩
          refine h.single ht hj ?_
          obtain ⟨hproxy, hnumber⟩ := Prod.mk.inj heq
          rw [h.purposes a ha, ← hrequest, h.purposes b hb, hproxy, hnumber]
      single := by
        intro i j r r' hi hj
        rw [hcalling] at hi hj
        split at hi
        · cases hi
        · split at hj
          · cases hj
          · exact h.single hi hj
      made := by
        intro b hb hremains
        obtain ⟨hbopen, hne⟩ := hmem.mp hremains
        obtain ⟨j, hj⟩ := h.made b hb hbopen
        refine ⟨j, ?_⟩
        rw [hcalling, if_neg]
        · exact hj
        · rintro rfl
          rw [ht] at hj
          exact hne (h.key_eq hb ha (congrArg Request.purpose (Option.some.inj hj).symm))
      told := by
        have htold :
            World.told (((w.setProxy a.proxy (p.leave a.number).1).complete a.call o).endTask t)
              = w.told ++ a.call.tells o := told_complete _ a.call o
        rw [htold, h.told, List.flatMap_append, ← hs, List.flatMap_singleton]
        rfl }

/-! ## 5. Every move keeps the ledger -/

/-- A poll that does not come to the outcome of a call completes none. -/
theorem settlements_of_not_calling {t : Nat} (ht : w.calling t = none) :
    settlements w (.poll t) = [] := by
  rw [settlements, ht]

theorem settlements_of_waiting {t : Nat} (ho : w.outcomeOf t = none) :
    settlements w (.poll t) = [] := by
  rw [settlements, ho]
  split
  · rename_i heq
    cases heq
  · rfl

theorem settlements_of_not_poll {m : Move} (hm : m.polled = none) : settlements w m = [] := by
  cases m <;> first | rfl | cases hm

/-- **The poll that completes a call**: its entry is taken out, and then its completion is given the
outcome. -/
theorem Ledger.completing (h : w.Ledger A C) (hw : w.Orderly) {t : Nat} {r : Request}
    {o : Except TransportError Container} (ht : w.calling t = some r)
    (ho : w.outcomeOf t = some o) :
    ∃ a ∈ A, a.request = r ∧ a.key ∉ C.map Settlement.key ∧
      settlements w (.poll t) = [{ proxy := a.proxy, number := a.number, request := a.request,
                                   call := some a.call, outcome := o }] ∧
      ∃ v p, w.Untold v ∧ v.proxies.get? a.proxy = some p ∧
        w.act (.poll t)
          = (((v.setProxy a.proxy (p.leave a.number).1).complete a.call o).endTask t).closeUnheld :=
        by
  obtain ⟨a, ha, rfl, hopen, p, hp, hc⟩ := h.entry ht
  have hpurpose := h.purposes a ha
  obtain ⟨r, q, htask, hl⟩ := outcomeOf_eq_some.mp ho
  have hr : r = a.request := by
    rw [calling, htask, Option.bind_some, Task.call?] at ht
    split at ht
    · exact Option.some.inj ht
    · cases ht
  subst hr
  have htaken : w.Untold (w.taken t) := { Untold.refl w with }
  have hlook := htaken.trans (untold_look (hw.taken t) a.request q)
  have hold : w.caller? a.proxy = some p.caller := by rw [caller?, hp, Option.map_some]
  have hcaller := hlook.caller hold
  obtain ⟨p', hp', heq⟩ := Option.map_eq_some_iff.mp hcaller
  have hc' : p'.pending.get? a.number = some a.call := by
    have hpending : p'.pending = p.pending := congrArg Caller.pending heq
    rw [hpending]
    exact hc
  refine ⟨a, ha, rfl, hopen, ?_, _, p', hlook, hp', ?_⟩
  · simp only [settlements, ht, ho, hpurpose, hp, Option.bind_some, hc]
  · rw [act_settle htask hl, hpurpose, settleRequest_complete hp' hc']

theorem ledger_poll (h : w.Ledger A C) (hw : w.Orderly) (t : Nat) :
    (w.act (.poll t)).Ledger A (C ++ settlements w (.poll t)) := by
  cases ho : w.outcomeOf t with
  | none =>
    rw [settlements_of_waiting ho, List.append_nil]
    exact h.untold (untold_poll hw ho)
  | some o =>
    cases ht : w.calling t with
    | some r =>
      obtain ⟨a, ha, rfl, hopen, hsettled, v, p, hv, hp, hact⟩ := h.completing hw ht ho
      rw [hsettled, hact]
      have hcalling : v.calling t = some a.request := (hv.calling t).trans ht
      exact ((h.untold hv).settle ha hcalling hopen hp o).untold (quiet_closeUnheld _).untold
    | none =>
      -- The request belongs to somebody who waits, or writes a property in the background.
      obtain ⟨r, q, htask, hl⟩ := outcomeOf_eq_some.mp ho
      have htaken : w.Untold (w.taken t) := { Untold.refl w with }
      have honward : (w.taken t).Onward none ((w.taken t).look r q).1 :=
        onward_look (hw.taken t) r q
      have hthere := honward.keeps htask
      have hv := h.untold (htaken.trans (untold_look (hw.taken t) r q))
      have hnone : (Task.request r q).call? = none := by
        rw [calling, htask, Option.bind_some] at ht
        exact ht
      rw [settlements_of_not_calling ht, List.append_nil, act_settle htask hl]
      generalize ((w.taken t).look r q).1 = v at hv hthere
      refine Ledger.untold ?_ (quiet_closeUnheld _).untold
      cases hpurpose : r.purpose with
      | complete id number =>
        rw [Task.call?, hpurpose] at hnone
        cases hnone
      | write property =>
        simp only [settleRequest]
        split
        · exact hv.untold (untold_endTask hthere hnone)
        · exact (hv.untold (quiet_warn v _).untold).untold (untold_endTask hthere hnone)
      | answer => exact (hv.outcomes _).untold (untold_endTask hthere hnone)

/-- A proxy that is not there accepts nothing, and nothing is accepted that cannot be prepared. -/
theorem submissions_callAsync {id : Nat} {p : Proxy} (hp : w.proxies.get? id = some p) (m : Method)
    (args : List Argument) :
    (∃ e, prepare m .async p.convention args = .error e ∧
      w.callMethodAsync id p m args = (w, .error e) ∧ submissions w (.callAsync id m args) = []) ∨
    ∃ c, prepare m .async p.convention args = .ok c ∧
      w.callMethodAsync id p m args
        = ((w.setProxy id (p.enter m c).1).spawn
            (.request (callRequest p m c (.complete id p.nextCall)) .unsent), .ok p.nextCall) ∧
      submissions w (.callAsync id m args)
        = [{ proxy := id, number := p.nextCall,
             request := callRequest p m c (.complete id p.nextCall),
             call := ⟨m, c.cancel, c.completion⟩ }] := by
  cases hc : prepare m .async p.convention args with
  | error e =>
    refine Or.inl ⟨e, rfl, ?_, ?_⟩
    · rw [callMethodAsync, hc]
    · simp only [submissions, hp, hc]
  | ok c =>
    refine Or.inr ⟨c, rfl, ?_, ?_⟩
    · rw [callMethodAsync, hc]
      rfl
    · simp only [submissions, hp, hc]

/-- A move that polls nothing and makes no proxy accept a call tells nobody anything; it may give up
an outcome that was laid by. -/
theorem untold_act (hw : w.Orderly) {m : Move} (hm : m.polled = none)
    (hnone : submissions w m = []) :
    ∃ v, (v = w ∨ ∃ task, v = w.dropOutcome task) ∧ v.Untold (w.act m) := by
  cases m with
  | arrange a => exact ⟨w, Or.inl rfl, (quiet_arrange hw a).untold⟩
  | callAsync id m args =>
    refine ⟨w, Or.inl rfl, ?_⟩
    simp only [act, withProxy]
    cases hp : w.proxies.get? id with
    | none => exact .refl w
    | some p =>
      rcases submissions_callAsync hp m args with ⟨e, -, hcall, -⟩ | ⟨c, -, -, hone⟩
      · rw [Option.elim_some, hcall]
        exact .refl w
      · rw [hone] at hnone
        cases hnone
  | setProperty id name v =>
    refine ⟨w, Or.inl rfl, ?_⟩
    simp only [act, withProxy]
    cases hp : w.proxies.get? id with
    | none => exact .refl w
    | some p =>
      simp only [Option.elim_some, setProperty]
      split
      · exact .refl w
      · rename_i p' call hstart
        have hset := quiet_setProxy hp p' (caller_startSet hstart)
        exact hset.untold.trans (untold_spawn (hset.orderly hw) rfl)
  | ask r => exact ⟨w, Or.inl rfl, untold_spawn hw rfl⟩
  | takeOutcome task => exact ⟨_, Or.inr ⟨task, rfl⟩, .refl _⟩
  | endGet id name task =>
    simp only [act, withProxy]
    split
    · refine ⟨_, Or.inr ⟨task, rfl⟩, ?_⟩
      cases hp : (w.dropOutcome task).proxies.get? id with
      | none => exact .refl _
      | some p => exact (quiet_setProxy hp _ (caller_finishGet p name _)).untold
    · exact ⟨w, Or.inl rfl, .refl w⟩
  | endInit id task =>
    simp only [act, withProxy]
    split
    · refine ⟨_, Or.inr ⟨task, rfl⟩, ?_⟩
      cases hp : (w.dropOutcome task).proxies.get? id with
      | none => exact .refl _
      | some p => exact (quiet_setProxy hp _ (caller_finishInit p _)).untold
    · exact ⟨w, Or.inl rfl, .refl w⟩
  | cancelPending id =>
    refine ⟨w, Or.inl rfl, ?_⟩
    simp only [act, withProxy]
    cases hp : w.proxies.get? id with
    | none => exact .refl w
    | some p => exact untold_foldl_fire _ w
  | call object sender path member body =>
    refine ⟨w, Or.inl rfl, ?_⟩
    simp only [act, withObject]
    cases ho : w.objects.get? object with
    | none => exact .refl w
    | some o =>
      have hinvoke : w.Untold (w.invoke sender path o.interface.name member).1 :=
        { Untold.refl w with }
      have hw' := hw.invoke sender path o.interface.name member
      rw [Option.elim_some, callDirectly_eq]
      exact (hinvoke.trans (untold_handle hw' _ _ _ _)).trans
        (untold_spawn (hw'.handle _ _ _ _) rfl)
  | answer slot answer =>
    refine ⟨w, Or.inl rfl, ?_⟩
    simp only [act]
    cases ha : w.answerKept slot answer with
    | none => exact .refl w
    | some w' => exact untold_answerKept ha
  | fire token => exact ⟨w, Or.inl rfl, untold_fire w token⟩
  | fireAfter token ms => exact ⟨w, Or.inl rfl, untold_spawn hw rfl⟩
  | poll t => cases hm
  | pass ms => exact ⟨w, Or.inl rfl, untold_moveTo w _⟩

/-- The other moves that poll nothing are the submissions that are accepted. -/
theorem submitting {m : Move} (hsome : submissions w m ≠ []) :
    ∃ id p method args c, m = .callAsync id method args ∧ w.proxies.get? id = some p ∧
      prepare method .async p.convention args = .ok c ∧
      w.act m = (w.setProxy id (p.enter method c).1).spawn
        (.request (callRequest p method c (.complete id p.nextCall)) .unsent) ∧
      submissions w m = [{ proxy := id, number := p.nextCall,
                           request := callRequest p method c (.complete id p.nextCall),
                           call := ⟨method, c.cancel, c.completion⟩ }] := by
  cases m with
  | callAsync id method args =>
    cases hp : w.proxies.get? id with
    | none =>
      rw [submissions, hp] at hsome
      exact absurd rfl hsome
    | some p =>
      rcases submissions_callAsync hp method args with ⟨e, -, -, hnone⟩ | ⟨c, hc, hcall, hone⟩
      · exact absurd hnone hsome
      · refine ⟨id, p, method, args, c, rfl, hp, hc, ?_, hone⟩
        simp only [act, withProxy, hp, Option.elim_some, hcall]
  | _ => exact absurd rfl hsome

/-- **Every move keeps the ledger**, with what it makes proxies accept and what it completes. -/
theorem ledger_act (h : w.Ledger A C) (hw : w.Orderly) (m : Move) :
    (w.act m).Ledger (A ++ submissions w m) (C ++ settlements w m) := by
  cases hm : m.polled with
  | some t =>
    cases m with
    | poll s =>
      change (w.act (.poll s)).Ledger (A ++ []) _
      rw [List.append_nil]
      exact ledger_poll h hw s
    | _ => cases hm
  | none =>
    rw [settlements_of_not_poll hm, List.append_nil]
    by_cases hnone : submissions w m = []
    · obtain ⟨v, hv, huntold⟩ := untold_act hw hm hnone
      rw [hnone, List.append_nil]
      refine Ledger.untold ?_ huntold
      rcases hv with rfl | ⟨task, rfl⟩
      · exact h
      · exact h.outcomes _
    · obtain ⟨id, p, method, args, c, -, hp, -, hact, hone⟩ := submitting hnone
      rw [hact, hone]
      exact h.submit hw hp method c

/-- **The ledger of a run**: how its world follows from what was accepted and completed. -/
theorem ledger_run (ms : List Move) {w : World} {A : List Submission} {C : List Settlement}
    (hw : w.Orderly) (h : w.Ledger A C) :
    (w.run ms).Ledger (A ++ observe submissions w ms) (C ++ observe settlements w ms) := by
  induction ms generalizing w A C with
  | nil => simpa using h
  | cons m ms ih =>
    have ih := ih (orderly_act hw m) (ledger_act h hw m)
    rw [List.append_assoc, List.append_assoc] at ih
    exact ih

theorem ledger_of_run (ms : List Move) :
    (empty.run ms).Ledger (observe submissions empty ms) (observe settlements empty ms) := by
  simpa using ledger_run ms orderly_empty ledger_empty

/-! ## 6. The account of a run -/

/-- How the asynchronous calls of proxies stand in `w`, when `A` have been accepted and `C` have
been completed. -/
structure CallsOnce (w : World) (A : List Submission) (C : List Settlement) : Prop where
  /-- No two calls of a proxy have the same number. -/
  distinct : (A.map Submission.key).Nodup
  /-- The entries of a proxy are its accepted calls that have not been completed, -/
  pending : ∀ id p, w.proxies.get? id = some p →
    p.pending.entries = (remaining A C id).map Submission.entry
  /-- as many as were accepted and not completed. -/
  count : ∀ id p, w.proxies.get? id = some p →
    p.pending.size + (C.filter fun s => s.proxy = id).length
      = (A.filter fun a => a.proxy = id).length
  /-- A call is completed at most once, -/
  once : (C.map Settlement.key).Nodup
  /-- with the outcome of its own request, -/
  own : ∀ s ∈ C, ∃ a ∈ A, s.Settles a
  /-- and it is what the completion of this call is given that completions have been given. -/
  told : w.told = C.flatMap Settlement.tells
  /-- When no task makes a call of the proxy any more, nothing is pending, and each accepted call
  has been completed once. -/
  drained : ∀ id, (∀ t r q n, w.tasks.get? t = some (.request r q) → r.purpose ≠ .complete id n) →
    (∀ p, w.proxies.get? id = some p → p.pending.size = 0) ∧
      ∀ a ∈ A, a.proxy = id → (C.filter fun s => s.key = a.key).length = 1
  /-- A call that can be prepared is accepted, under the next number, -/
  accepted : ∀ id p m args c, w.proxies.get? id = some p →
    prepare m .async p.convention args = .ok c →
    (w.callMethodAsync id p m args).2 = .ok p.nextCall ∧
      submissions w (.callAsync id m args)
        = [{ proxy := id, number := p.nextCall,
             request := callRequest p m c (.complete id p.nextCall),
             call := ⟨m, c.cancel, c.completion⟩ }]
  /-- and any other changes nothing at all. -/
  rejected : ∀ id p m args e, w.proxies.get? id = some p →
    prepare m .async p.convention args = .error e →
    w.callMethodAsync id p m args = (w, .error e) ∧ submissions w (.callAsync id m args) = []
  /-- A poll that completes a call gives the outcome to its completion when the entry is out. -/
  completing : ∀ t, ∀ s ∈ settlements w (.poll t), ∃ (c : PendingCall) (v : World),
    s.call = some c ∧ (∃ p, v.proxies.get? s.proxy = some p ∧ p.pending.get? s.number = none) ∧
    w.act (.poll t) = ((v.complete c s.outcome).endTask t).closeUnheld

/-- The accepted calls of a proxy are those that remain and those that have been completed. -/
theorem Ledger.length_remaining (h : w.Ledger A C) (id : Nat) :
    (remaining A C id).length + (C.filter fun s => s.proxy = id).length
      = (A.filter fun a => a.proxy = id).length := by
  have haccepted : ((A.filter fun a => a.proxy = id).map Submission.key).Nodup :=
    h.distinct.sublist (List.filter_sublist.map _)
  have hsplit : ((remaining A C id).map Submission.key
      ++ (C.filter fun s => s.proxy = id).map Settlement.key).Nodup := by
    rw [List.nodup_append]
    refine ⟨h.distinct.sublist (List.filter_sublist.map _),
      h.once.sublist (List.filter_sublist.map _), fun k hk k' hk' heq => ?_⟩
    obtain ⟨a, ha, rfl⟩ := List.mem_map.mp hk
    obtain ⟨s, hs, rfl⟩ := List.mem_map.mp hk'
    obtain ⟨-, -, hopen⟩ := mem_remaining.mp ha
    rw [heq] at hopen
    exact hopen (List.mem_map.mpr ⟨s, (List.mem_filter.mp hs).1, rfl⟩)
  have hperm : ((A.filter fun a => a.proxy = id).map Submission.key).Perm
      ((remaining A C id).map Submission.key
        ++ (C.filter fun s => s.proxy = id).map Settlement.key) := by
    refine (List.perm_ext_iff_of_nodup haccepted hsplit).mpr fun k => ?_
    rw [List.mem_append]
    constructor
    · intro hk
      obtain ⟨a, ha, rfl⟩ := List.mem_map.mp hk
      obtain ⟨ha, hproxy⟩ := List.mem_filter.mp ha
      have hproxy : a.proxy = id := of_decide_eq_true hproxy
      by_cases hopen : a.key ∈ C.map Settlement.key
      · obtain ⟨s, hs, hkey⟩ := List.mem_map.mp hopen
        refine Or.inr (List.mem_map.mpr ⟨s, List.mem_filter.mpr ⟨hs, decide_eq_true ?_⟩, hkey⟩)
        exact (Prod.mk.inj hkey).1.trans hproxy
      · exact Or.inl (List.mem_map.mpr ⟨a, mem_remaining.mpr ⟨ha, hproxy, hopen⟩, rfl⟩)
    · rintro (hk | hk)
      · obtain ⟨a, ha, rfl⟩ := List.mem_map.mp hk
        obtain ⟨ha, hproxy, -⟩ := mem_remaining.mp ha
        exact List.mem_map.mpr ⟨a, List.mem_filter.mpr ⟨ha, decide_eq_true hproxy⟩, rfl⟩
      · obtain ⟨s, hs, rfl⟩ := List.mem_map.mp hk
        obtain ⟨hs, hproxy⟩ := List.mem_filter.mp hs
        obtain ⟨a, ha, hsettles⟩ := h.own s hs
        refine List.mem_map.mpr ⟨a, List.mem_filter.mpr ⟨ha, decide_eq_true ?_⟩, hsettles.key.symm⟩
        exact (Prod.mk.inj hsettles.key).1.symm.trans (of_decide_eq_true hproxy)
  have hlength := hperm.length_eq
  rw [List.length_append, List.length_map, List.length_map, List.length_map] at hlength
  exact hlength.symm

/-- What is pending with a proxy, as a number. -/
theorem Ledger.size_pending (h : w.Ledger A C) {id : Nat} {p : Proxy}
    (hp : w.proxies.get? id = some p) : p.pending.size = (remaining A C id).length := by
  have hentries : p.pending.entries = (remaining A C id).map Submission.entry :=
    h.pending (c := p.caller) (by rw [caller?, hp, Option.map_some])
  rw [Table.size, hentries, List.length_map]

/-- A call that no task makes has been completed. -/
theorem Ledger.drained (h : w.Ledger A C) {id : Nat}
    (hnone : ∀ t r q n, w.tasks.get? t = some (.request r q) → r.purpose ≠ .complete id n) :
    remaining A C id = [] := by
  refine List.eq_nil_iff_forall_not_mem.mpr fun a ha => ?_
  obtain ⟨hacc, rfl, hopen⟩ := mem_remaining.mp ha
  obtain ⟨t, ht⟩ := h.made a hacc hopen
  obtain ⟨x, htask, hcall⟩ := Option.bind_eq_some_iff.mp ht
  obtain ⟨q, k, rfl, -⟩ := Task.call?_eq_some hcall
  exact hnone t _ q a.number htask (h.purposes a hacc)

/-- A call that has been completed has been completed once. -/
theorem Ledger.count_completed (h : w.Ledger A C) {k : Nat × Nat}
    (hk : k ∈ C.map Settlement.key) : (C.filter fun s => s.key = k).length = 1 := by
  have hcount := h.once.count (a := k)
  rw [if_pos hk, List.count_eq_countP, List.countP_map, List.countP_eq_length_filter] at hcount
  refine Eq.trans (congrArg List.length (List.filter_congr fun s _ => ?_)) hcount
  exact (Bool.beq_eq_decide_eq _ _).symm

/-- **Asynchronous calls are completed exactly once**, in whatever order calls are made, settled and
cancelled, time passes and proxies come and go. -/
theorem calls_complete_once (ms : List Move) :
    (empty.run ms).CallsOnce (observe submissions empty ms) (observe settlements empty ms) := by
  have hw := orderly_run ms
  have h : (empty.run ms).Ledger (observe submissions empty ms) (observe settlements empty ms) := by
    simpa using ledger_run ms orderly_empty ledger_empty
  generalize empty.run ms = w at hw h
  generalize observe submissions empty ms = A at h
  generalize observe settlements empty ms = C at h
  constructor
  · exact h.distinct
  · intro id p hp
    exact h.pending (by rw [caller?, hp, Option.map_some])
  · intro id p hp
    rw [h.size_pending hp]
    exact h.length_remaining id
  · exact h.once
  · exact h.own
  · exact h.told
  · intro id hnone
    have hdrained := h.drained hnone
    refine ⟨fun p hp => by rw [h.size_pending hp, hdrained]; rfl, fun a ha hproxy => ?_⟩
    refine h.count_completed (Classical.byContradiction fun hopen => ?_)
    have hmem : a ∈ remaining A C id := mem_remaining.mpr ⟨ha, hproxy, hopen⟩
    rw [hdrained] at hmem
    cases hmem
  · intro id p m args c hp hc
    rcases submissions_callAsync hp m args with ⟨e, he, -⟩ | ⟨c', hc', hcall, hone⟩
    · rw [hc] at he
      cases he
    · rw [hc] at hc'
      cases hc'
      exact ⟨congrArg Prod.snd hcall, hone⟩
  · intro id p m args e hp he
    rcases submissions_callAsync hp m args with ⟨e', he', hcall, hnone⟩ | ⟨c, hc, -⟩
    · rw [he] at he'
      cases he'
      exact ⟨hcall, hnone⟩
    · rw [he] at hc
      cases hc
  · intro t s hs
    cases ht : w.calling t with
    | none =>
      rw [settlements_of_not_calling ht] at hs
      cases hs
    | some r =>
      cases ho : w.outcomeOf t with
      | none =>
        rw [settlements_of_waiting ho] at hs
        cases hs
      | some o =>
        obtain ⟨a, -, -, -, hone, v, p, -, hp, hact⟩ := h.completing hw ht ho
        rw [hone] at hs
        cases List.mem_singleton.mp hs
        refine ⟨a.call, v.setProxy a.proxy (p.leave a.number).1, rfl,
          ⟨(p.leave a.number).1, ?_, ?_⟩, hact⟩
        · exact Table.get?_insert_self _ _ _
        · exact (Table.get?_erase _ _ _).trans (if_pos rfl)

end World

end MessageBus
