/-
# Requests that have been handed over

A request on a bus stands in one of two places.  It has not been handed over; or it was handed to
an object, by the poll that opened an invocation for it, and waits for the reply to that one
(`World.progress_run`).  So a task that waits tells which moment of the run its call was issued at
(`World.Issued`).

Whatever becomes of the caller after that, the call is handed to the object once, by the time when
nothing can run (`World.Issued.handed`).  A handler runs then if the object has one for the call, and
once (`World.Issued.ran`), since the runs of handlers for an invocation are just those that come of
what is handed over for it (`World.handlingsFor_run`).
-/
import MessageBus.Proofs.Serving
import Mathlib.Data.List.Induction

namespace MessageBus

/-- The runs of handlers that a call of `member` with a body leads to, for the invocation `i`: one,
unless the call is refused. -/
def Handlers.runs (o : Handlers) (object i : Nat) (member : String) (body : Container) :
    List Handling :=
  match o.interface.method? member with
  | some m =>
    if body.tags = m.input ∧ ((o.sync.get? m.name).isSome ∨ (o.async.get? m.name).isSome) then
      [⟨object, i, m.name, body.values⟩]
    else []
  | none => []

/-- All of them are for this invocation. -/
theorem Handlers.invocation_of_mem_runs {o : Handlers} {object i : Nat} {member : String}
    {body : Container} {e : Handling} (h : e ∈ o.runs object i member body) : e.invocation = i := by
  unfold runs at h
  split at h
  · split at h
    · cases List.mem_singleton.mp h
      rfl
    · cases h
  · cases h

theorem Handlers.filter_runs (o : Handlers) (object i j : Nat) (member : String)
    (body : Container) :
    (o.runs object j member body).filter (fun e => decide (e.invocation = i))
      = if j = i then o.runs object j member body else [] := by
  split
  · rename_i heq
    refine List.filter_eq_self.mpr fun e he => decide_eq_true ?_
    exact (invocation_of_mem_runs he).trans heq
  · rename_i hne
    refine List.filter_eq_nil_iff.mpr fun e he hi => hne ?_
    exact (invocation_of_mem_runs he).symm.trans (of_decide_eq_true hi)

namespace World

variable {w w' : World} {t b object i d : Nat} {me : String} {r : Request}

/-! ## 1. The poll that hands a request over -/

/-- A request on a bus that goes on waiting after its first poll was handed to an object. -/
theorem look_unsent_waits {q : Progress} (hlink : r.link = .bus b me)
    (h : (w.look r .unsent).2 = .inr q) :
    ∃ object, w.route b me r.call r.cancel = .ok (.object object) ∧
      q = .awaitReply w.invocations.size (w.deadlineOf b r) := by
  rw [look, hlink] at h
  cases hroute : w.route b me r.call r.cancel with
  | error e =>
    simp only [issueBus, hroute] at h
    cases h
  | ok route =>
    cases route with
    | properties owner =>
      simp only [issueBus, hroute] at h
      cases h
    | object object =>
      simp only [issueBus_object hroute] at h
      obtain ⟨-, -, -, rfl⟩ := lookReply_eq_inr.mp h
      exact ⟨object, rfl, rfl⟩

/-- The request `r` of the task `t` was handed to an object in the run `ms`, as the invocation `i`,
and waits for the reply until `d`. -/
def Issued (ms : List Move) (t : Nat) (r : Request) (b : Nat) (me : String) (object i d : Nat) :
    Prop :=
  ∃ before after, ms = before ++ .poll t :: after ∧
    (empty.run before).tasks.get? t = some (.request r .unsent) ∧
    (empty.run before).route b me r.call r.cancel = .ok (.object object) ∧
    (empty.run before).invocations.size = i ∧ (empty.run before).deadlineOf b r = d

theorem Issued.append {ms : List Move} (h : Issued ms t r b me object i d) (ns : List Move) :
    Issued (ms ++ ns) t r b me object i d := by
  obtain ⟨before, after, rfl, hrest⟩ := h
  exact ⟨before, after ++ ns, by rw [List.append_assoc, List.cons_append], hrest⟩

/-- **Where a request on a bus stands**: it has not been handed over, or it was handed to an object,
and waits. -/
theorem progress_run (ms : List Move) {q : Progress}
    (ht : (empty.run ms).tasks.get? t = some (.request r q)) (hlink : r.link = .bus b me) :
    q = .unsent ∨ ∃ object i d, q = .awaitReply i d ∧ Issued ms t r b me object i d := by
  induction ms using List.reverseRecOn generalizing q with
  | nil => cases ht
  | append_singleton ms m ih =>
    have hw := orderly_run ms
    have hold : (empty.run ms).tasks.get? t = some (.request r q) →
        q = .unsent ∨ ∃ object i d, q = .awaitReply i d ∧ Issued (ms ++ [m]) t r b me object i d :=
      fun ht => (ih ht).imp_right fun ⟨object, i, d, hq, hissued⟩ =>
        ⟨object, i, d, hq, hissued.append [m]⟩
    rw [run_append, run_cons, run_nil] at ht
    by_cases hm : m.polled = some t
    · obtain rfl := Move.eq_poll hm
      cases hx : (empty.run ms).tasks.get? t with
      | none =>
        have hstale : ((empty.run ms).act (.poll t)).tasks = (empty.run ms).tasks := by
          simp only [act, poll, hx]
        rw [hstale] at ht
        exact hold ht
      | some x =>
        rw [act_poll hx] at ht
        rcases (quiet_closeUnheld _).toCalm.newTask ht with ht | ⟨-, c, n, heq⟩
        · rcases polled_stays (hw.taken t) hx ht with ⟨heq, -, -⟩ | ⟨c, n, rfl, heq⟩ |
            ⟨r', p, q', v, rfl, heq, hlook, -⟩
          · exact hold (by rw [hx, heq])
          · cases heq
          · cases heq
            rcases ih hx with rfl | ⟨object, i, d, rfl, hissued⟩
            · -- This is the poll that hands it over.
              obtain ⟨object, hroute, rfl⟩ :=
                look_unsent_waits (w := (empty.run ms).taken t) hlink (congrArg Prod.snd hlook)
              exact Or.inr ⟨object, _, _, rfl, ms, [], rfl, hx, hroute, rfl, rfl⟩
            · obtain ⟨-, hl⟩ := Prod.mk.inj hlook
              obtain ⟨-, -, -, rfl⟩ := lookReply_eq_inr.mp hl
              exact Or.inr ⟨object, i, d, rfl, hissued.append _⟩
        · cases heq
    · rcases newTask_act hw hm ht with ht | ⟨-, hborn⟩
      · exact hold ht
      · exact Or.inl hborn

theorem place_run (ms : List Move) {q : Progress}
    (ht : (empty.run ms).tasks.get? t = some (.request r q)) (hlink : r.link = .bus b me) :
    q = .unsent ∨ ∃ i d, q = .awaitReply i d := by
  refine (progress_run ms ht hlink).imp_right ?_
  rintro ⟨-, i, d, hq, -⟩
  exact ⟨i, d, hq⟩

/-! ## 2. The handlers that run for an invocation -/

/-- A dispatch runs the handlers that the object has for the call. -/
theorem Dispatched.handlings {o : Handlers} {member : String} {body : Container}
    (h : w.Dispatched w' o object i member body) :
    w'.handlings = w.handlings ++ o.runs object i member body := by
  unfold Handlers.runs
  split
  · rename_i m hm
    by_cases hbody : body.tags = m.input
    · cases hs : o.sync.get? m.name with
      | some f =>
        rw [if_pos ⟨hbody, Or.inl rfl⟩]
        exact (h.sync hm hbody hs).1
      | none =>
        cases ha : o.async.get? m.name with
        | some f =>
          rw [if_pos ⟨hbody, Or.inr rfl⟩]
          exact (h.async hm hbody hs ha).1
        | none =>
          rw [if_neg (by simp), List.append_nil]
          exact (h.unhandled hm hbody hs ha).1
    · rw [if_neg fun hboth => hbody hboth.1, List.append_nil]
      exact (h.mistyped hm hbody).1
  · rename_i hm
    rw [List.append_nil]
    exact (h.undeclared hm).1

/-- The runs of handlers for the invocation `i` that come of what is handed over: an object, the
member and the body. -/
def runsFor (w : World) (i : Nat) (x : Nat × String × Container) : List Handling :=
  (w.handlers? x.1).elim [] fun o => o.runs x.1 i x.2.1 x.2.2

/-- A move runs handlers for an invocation as it hands it over, and not otherwise. -/
theorem handlingsFor_act (h : w.Sound) (hi : i < w.invocations.size) (m : Move) {v : World}
    (hv : (w.act m).Later v) :
    (w.act m).handlingsFor i = w.handlingsFor i ++ (handing i w m).flatMap (v.runsFor i) := by
  have hw := h.orderly
  have hlater := (later_act hw m).trans hv
  by_cases hserves : ∃ s obj j member body, m = .poll s ∧
      w.tasks.get? s = some (.handle obj j member body)
  · obtain ⟨s, obj, j, member, body, rfl, hs⟩ := hserves
    obtain ⟨o, ho, hdispatched⟩ := dispatched_poll hw h.owing hs
    rw [handlingsFor, hdispatched.handlings, List.filter_append, Handlers.filter_runs]
    simp only [handing, hs]
    split
    · rename_i heq
      subst heq
      rw [List.flatMap_singleton, runsFor, hlater.handlers ho]
      rfl
    · rfl
  · have hnone : handing i w m = [] := by
      cases m with
      | poll s =>
        simp only [handing]
        split
        · rename_i obj j member body hs
          exact absurd ⟨s, obj, j, member, body, rfl, hs⟩ hserves
        · rfl
      | _ => rfl
    rw [hnone, List.flatMap_nil, List.append_nil]
    rcases handlings_act hw m with hsame | hpoll | ⟨obj, sender, path, member, body, rfl⟩
    · rw [handlingsFor, hsame]
      rfl
    · exact absurd hpoll hserves
    · -- A call without a connection is for an invocation that has just been opened.
      cases ho : w.handlers? obj with
      | none =>
        have hobject : w.objects.get? obj = none := Option.map_eq_none_iff.mp ho
        have hstill : w.act (.call obj sender path member body) = w := by
          simp only [act, withObject, hobject, Option.elim_none]
        rw [hstill]
      | some o =>
        have hdispatched := dispatched_call hw ho sender path member body
        rw [handlingsFor, hdispatched.handlings, List.filter_append, Handlers.filter_runs,
          if_neg (Nat.ne_of_gt hi), List.append_nil]
        rfl

/-- **The runs of handlers for an invocation** are those that come of what is handed over for
it. -/
theorem handlingsFor_run (ms : List Move) {w : World} (h : w.Sound)
    (hi : i < w.invocations.size) {v : World} (hv : (w.run ms).Later v) :
    (w.run ms).handlingsFor i
      = w.handlingsFor i ++ (observe (handing i) w ms).flatMap (v.runsFor i) := by
  induction ms generalizing w with
  | nil => exact (List.append_nil _).symm
  | cons m ms ih =>
    have hw := h.orderly
    have hi' := Nat.lt_of_lt_of_le hi (later_act hw m).invocations
    have hlater := (later_run ms (orderly_act hw m)).trans hv
    rw [run_cons, ih (h.act m) hi' hv, handlingsFor_act h hi m hlater, observe_cons,
      List.flatMap_append, List.append_assoc]

/-! ## 3. A request that was handed over -/

/-- Nothing is handed over for an invocation before it has been opened. -/
theorem handing_unopened (ms : List Move) (hw : w.Orderly)
    (hi : (w.run ms).invocations.size ≤ i) : observe (handing i) w ms = [] := by
  refine List.eq_nil_iff_forall_not_mem.mpr fun x hx => ?_
  obtain ⟨before, m, after, rfl, hm⟩ := mem_observe hx
  have hw' := (later_run before hw).orderly hw
  cases m with
  | poll s =>
    simp only [handing] at hm
    split at hm
    · rename_i obj j member body hs
      split at hm
      · rename_i heq
        subst heq
        obtain ⟨-, inv, hinv, -⟩ := hw'.known hs
        have hlt := hw'.invocationsBelow.lt_size hinv
        have hle := (later_run (.poll s :: after) hw').invocations
        rw [run_append] at hi
        omega
      · cases hm
    · cases hm
  | _ => cases hm

/-- **A request that was handed over reaches the object once**, by the time when nothing can run. -/
theorem Issued.handed {ms : List Move} (h : Issued ms t r b me object i d)
    (hlink : r.link = .bus b me) (hidle : (empty.run ms).ready = []) :
    observe (handing i) empty ms = [(object, r.call.member, r.call.body)] := by
  obtain ⟨before, after, rfl, ht, hroute, rfl, rfl⟩ := h
  rw [run_append] at hidle
  rw [observe_append, handing_unopened before orderly_empty (Nat.le_refl _), List.nil_append]
  rcases (goes_routed (sound_empty.run before) ht hlink hroute after).handed with hone | ⟨-, hmem, -⟩
  · exact hone
  · rw [hidle] at hmem
    cases hmem

/-- **The handler runs once**, if the object has one for the call. -/
theorem Issued.ran {ms : List Move} (h : Issued ms t r b me object i d)
    (hlink : r.link = .bus b me) (hidle : (empty.run ms).ready = []) :
    ∃ o, (empty.run ms).handlers? object = some o ∧
      (empty.run ms).handlingsFor i = o.runs object i r.call.member r.call.body := by
  have hhanded := h.handed hlink hidle
  obtain ⟨before, after, rfl, ht, hroute, rfl, rfl⟩ := h
  have hw := orderly_run before
  have hu := (sound_empty.run before).act (.poll t)
  obtain ⟨hhandle, hinv, -⟩ := handle_routed hw ht hlink hroute
  obtain ⟨o, ho, -⟩ := dispatched_poll hu.orderly hu.owing hhandle
  have hfirst : handing (empty.run before).invocations.size (empty.run before) (.poll t) = [] := by
    simp only [handing, ht]
  rw [observe_append, handing_unopened before orderly_empty (Nat.le_refl _), List.nil_append,
    observe_cons, hfirst, List.nil_append] at hhanded
  rw [run_append, run_cons]
  have hlater := later_run after hu.orderly
  refine ⟨o, hlater.handlers ho, ?_⟩
  rw [handlingsFor_run after hu (hu.orderly.invocationsBelow.lt_size hinv) (.refl _),
    (hu.unserved hhandle).1, hhanded, List.nil_append, List.flatMap_singleton, runsFor,
    hlater.handlers ho]
  rfl

end World

end MessageBus
