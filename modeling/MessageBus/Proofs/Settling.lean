/-
# Requests come to an outcome once

A request is settled by the poll that finds an outcome for it, and its task ends with that poll.
What a run settles a request with is read off the polls of its task (`World.settled`): over any run
that is one outcome at most (`World.settled_once`), and exactly one if the task has ended
(`World.settled_of_ended`).

While a request waits for the reply to an invocation, the poll that settles it is the first one at
which something has come: the reply, the token, the deadline, and of several that have come by then
the first in this order (`World.seen`, `World.settled_waiting`).
-/
import MessageBus.Proofs.Waking

namespace MessageBus.World

variable {w w' : World}

/-! ## 1. The outcome of a poll -/

/-- The outcome that the task `t` comes to if it is polled, when it is a request. -/
def outcomeOf (w : World) (t : Nat) : Option (Except TransportError Container) :=
  match w.tasks.get? t with
  | some (.request r p) => ((w.taken t).look r p).2.elim some fun _ => none
  | _ => none

/-- What a move settles the request `t` with. -/
def settled (t : Nat) (w : World) : Move → List (Except TransportError Container)
  | .poll s => if s = t then (w.outcomeOf t).toList else []
  | _ => []

theorem settled_of_ne {t : Nat} {m : Move} (hm : m.polled ≠ some t) : settled t w m = [] := by
  cases m with
  | poll s => exact if_neg (fun heq => hm (congrArg some heq))
  | _ => rfl

theorem settled_poll (w : World) (t : Nat) : settled t w (.poll t) = (w.outcomeOf t).toList :=
  if_pos rfl

/-- Only a request comes to an outcome. -/
theorem outcomeOf_eq_some {t : Nat} {o : Except TransportError Container} :
    w.outcomeOf t = some o ↔ ∃ r p, w.tasks.get? t = some (.request r p) ∧
      ((w.taken t).look r p).2 = .inl o := by
  unfold outcomeOf
  constructor
  · intro h
    split at h
    · rename_i r p ht
      refine ⟨r, p, ht, ?_⟩
      cases hl : ((w.taken t).look r p).2 with
      | inl o' =>
        rw [hl] at h
        exact congrArg Sum.inl (Option.some.inj h)
      | inr q =>
        rw [hl] at h
        cases h
    · cases h
  · rintro ⟨r, p, ht, hl⟩
    simp only [ht, hl, Sum.elim_inl]

/-- The poll that settles a request: it is looked at, told what came of it, and ended. -/
theorem act_settle {t : Nat} {r : Request} {p : Progress} {o : Except TransportError Container}
    (ht : w.tasks.get? t = some (.request r p))
    (hl : ((w.taken t).look r p).2 = .inl o) :
    w.act (.poll t) = ((((w.taken t).look r p).1.settleRequest t
      r.purpose o).endTask t).closeUnheld := by
  rw [act_poll ht]
  simp only [runTask]
  split <;> rename_i v x heq <;> rw [heq] at hl
  · cases hl
    rw [heq]
  · cases hl

/-- A poll that finds no outcome leaves the request waiting. -/
theorem act_wait {t : Nat} {r : Request} {p q : Progress}
    (ht : w.tasks.get? t = some (.request r p))
    (hl : ((w.taken t).look r p).2 = .inr q) :
    w.act (.poll t) = (World.closeUnheld
      { ((w.taken t).look r p).1 with
        tasks := ((w.taken t).look r p).1.tasks.insert t
          (.request r q) }) := by
  rw [act_poll ht]
  simp only [runTask]
  split <;> rename_i v x heq <;> rw [heq] at hl
  · cases hl
  · cases hl
    rw [heq]

/-- A request that comes to no outcome is still there. -/
theorem waits_of_outcomeOf {t : Nat} {r : Request} {p : Progress}
    (ht : w.tasks.get? t = some (.request r p)) (ho : w.outcomeOf t = none) :
    ∃ q, (w.act (.poll t)).tasks.get? t = some (.request r q) := by
  cases hl : ((w.taken t).look r p).2 with
  | inl o =>
    rw [outcomeOf_eq_some.mpr ⟨r, p, ht, hl⟩] at ho
    cases ho
  | inr q =>
    refine ⟨q, ?_⟩
    rw [act_wait ht hl]
    exact (quiet_closeUnheld _).toCalm.task (Table.get?_insert_self _ _ _)

/-- What a poll does after it has looked at its request leaves everything but the request alone. -/
structure AfterLook (t : Nat) (v w' : World) : Prop where
  invocations : w'.invocations = v.invocations
  handlings : w'.handlings = v.handlings
  task : ∀ {s x}, t ≠ s → v.tasks.get? s = some x → w'.tasks.get? s = some x
  newTask : ∀ {s x}, t ≠ s → w'.tasks.get? s = some x →
    v.tasks.get? s = some x ∨ ∃ b c, x = .deliver b c

theorem afterLook_poll {t : Nat} {r : Request} {p : Progress}
    (ht : w.tasks.get? t = some (.request r p)) :
    AfterLook t ((w.taken t).look r p).1 (w.act (.poll t)) := by
  cases hl : ((w.taken t).look r p).2 with
  | inl o =>
    rw [act_settle ht hl]
    have hsettle := calm_settleRequest ((w.taken t).look r p).1 t r.purpose o
    generalize ((w.taken t).look r p).1.settleRequest t r.purpose o = v at hsettle ⊢
    have hclose := (quiet_closeUnheld (v.endTask t)).toCalm
    refine ⟨hclose.invocations.trans hsettle.invocations,
      hclose.handlings.trans hsettle.handlings, fun hs hx => hclose.task ?_, fun hs hx => ?_⟩
    · rw [endTask, Table.get?_erase, if_neg hs]
      exact hsettle.task hx
    · rcases hclose.newTask hx with hx | ⟨-, hdeliver⟩
      · rw [endTask, Table.get?_erase, if_neg hs] at hx
        exact (hsettle.newTask hx).imp_right And.right
      · exact Or.inr hdeliver
  | inr q =>
    rw [act_wait ht hl]
    generalize ((w.taken t).look r p).1 = v
    have hclose := (quiet_closeUnheld { v with tasks := v.tasks.insert t (.request r q) }).toCalm
    refine ⟨hclose.invocations, hclose.handlings, fun hs hx => hclose.task ?_, fun hs hx => ?_⟩
    · rw [Table.get?_insert, if_neg hs]
      exact hx
    · rcases hclose.newTask hx with hx | ⟨-, hdeliver⟩
      · rw [Table.get?_insert, if_neg hs] at hx
        exact Or.inl hx
      · exact Or.inr hdeliver

/-- A task that was there and is not any more does not come back. -/
theorem ended_act (hw : w.Orderly) {t : Nat} (ht : w.tasks.get? t = none) (hlt : t < w.nextTask)
    (m : Move) : (w.act m).tasks.get? t = none ∧ t < (w.act m).nextTask := by
  refine ⟨?_, Nat.lt_of_lt_of_le hlt (later_act hw m).nextTask⟩
  by_cases hm : m.polled = some t
  · obtain rfl := Move.eq_poll hm
    simp only [act, poll, ht]
  · cases hx : (w.act m).tasks.get? t with
    | none => rfl
    | some x =>
      rcases newTask_act hw hm hx with hx | ⟨hle, -⟩
      · rw [ht] at hx
        cases hx
      · omega

theorem ended_run {t : Nat} (ms : List Move) {w : World} (hw : w.Orderly)
    (ht : w.tasks.get? t = none) (hlt : t < w.nextTask) : (w.run ms).tasks.get? t = none := by
  induction ms generalizing w with
  | nil => exact ht
  | cons m ms ih =>
    obtain ⟨ht', hlt'⟩ := ended_act hw ht hlt m
    exact ih (orderly_act hw m) ht' hlt'

/-- What has ended is not settled again. -/
theorem settled_ended {t : Nat} (ms : List Move) {w : World} (hw : w.Orderly)
    (ht : w.tasks.get? t = none) (hlt : t < w.nextTask) : observe (settled t) w ms = [] := by
  induction ms generalizing w with
  | nil => rfl
  | cons m ms ih =>
    obtain ⟨ht', hlt'⟩ := ended_act hw ht hlt m
    have hnone : settled t w m = [] := by
      by_cases hm : m.polled = some t
      · obtain rfl := Move.eq_poll hm
        rw [settled_poll, outcomeOf, ht]
        rfl
      · exact settled_of_ne hm
    rw [observe_cons, hnone, ih (orderly_act hw m) ht' hlt']
    rfl

/-- A request that is settled has ended. -/
theorem ended_of_settle (hw : w.Orderly) {t : Nat} {o : Except TransportError Container}
    (ho : w.outcomeOf t = some o) :
    (w.act (.poll t)).tasks.get? t = none ∧ t < (w.act (.poll t)).nextTask := by
  obtain ⟨r, p, ht, hl⟩ := outcomeOf_eq_some.mp ho
  have hlt : t < (w.act (.poll t)).nextTask :=
    Nat.lt_of_lt_of_le (hw.task_lt ht) (later_act hw (.poll t)).nextTask
  refine ⟨?_, hlt⟩
  have hlook : World.Onward none _ ((w.taken t).look r p).1 :=
    onward_look (hw.taken t) r p
  have hsettle := calm_settleRequest ((w.taken t).look r p).1 t
    r.purpose o
  have hnext : t < (((w.taken t).look r p).1.settleRequest t
      r.purpose o).nextTask :=
    Nat.lt_of_lt_of_le (hw.task_lt ht) (Nat.le_trans hlook.nextTask hsettle.nextTask)
  rw [act_settle ht hl]
  cases hx : (World.closeUnheld _).tasks.get? t with
  | none => rfl
  | some x =>
    rcases (quiet_closeUnheld _).toCalm.newTask hx with hx | ⟨hle, -⟩
    · simp only [endTask, Table.get?_erase, if_true] at hx
      cases hx
    · exact absurd hle (Nat.not_le.mpr hnext)

/-- **A request is settled once at most.** -/
theorem settled_once {t : Nat} (ms : List Move) {w : World} (hw : w.Orderly) :
    (observe (settled t) w ms).length ≤ 1 := by
  induction ms generalizing w with
  | nil => exact Nat.zero_le _
  | cons m ms ih =>
    have ih := ih (orderly_act hw m)
    rw [observe_cons, List.length_append]
    by_cases hm : m.polled = some t
    · obtain rfl := Move.eq_poll hm
      rw [settled_poll]
      cases ho : w.outcomeOf t with
      | none => simpa using ih
      | some o =>
        obtain ⟨ht', hlt'⟩ := ended_of_settle hw ho
        rw [settled_ended ms (orderly_act hw _) ht' hlt']
        exact Nat.le_refl _
    · rw [settled_of_ne hm]
      simpa using ih

/-- A request ends only by being settled. -/
theorem settled_of_ended {t : Nat} (ms : List Move) {w : World} {r : Request} {p : Progress}
    (hw : w.Orderly) (ht : w.tasks.get? t = some (.request r p))
    (hend : (w.run ms).tasks.get? t = none) : ∃ o, observe (settled t) w ms = [o] := by
  induction ms generalizing w p with
  | nil =>
    rw [run_nil, ht] at hend
    cases hend
  | cons m ms ih =>
    rw [observe_cons]
    by_cases hm : m.polled = some t
    · obtain rfl := Move.eq_poll hm
      rw [settled_poll]
      cases ho : w.outcomeOf t with
      | some o =>
        obtain ⟨ht', hlt'⟩ := ended_of_settle hw ho
        refine ⟨o, ?_⟩
        rw [settled_ended ms (orderly_act hw _) ht' hlt']
        rfl
      | none =>
        obtain ⟨q, ht'⟩ := waits_of_outcomeOf ht ho
        exact ih (orderly_act hw _) ht' hend
    · rw [settled_of_ne hm]
      exact ih (orderly_act hw m) (task_act hw hm ht) hend

/-! ## 2. A request that waits for a reply -/

/-- What has come for a request that waits for the reply to the invocation `i` until `d`: the reply
if it is there, else word of its token if that has fired, else word of the deadline if that has
passed. -/
def come (w : World) (r : Request) (i d : Nat) : Option (Except TransportError Container) :=
  match w.replyTo i with
  | some (.ok c) => some (.ok c)
  | some (.error e) => some (.error (.remote e))
  | none =>
    if r.cancel.any w.hasFired then some (.error .cancelled)
    else if d ≤ w.now then some (.error .timeout)
    else none

/-- What has come when the request `t` is polled. -/
def seen (t : Nat) (r : Request) (i d : Nat) (w : World) :
    Move → List (Except TransportError Container)
  | .poll s => if s = t then (w.come r i d).toList else []
  | _ => []

theorem seen_of_ne {t : Nat} {r : Request} {i d : Nat} {m : Move} (hm : m.polled ≠ some t) :
    seen t r i d w m = [] := by
  cases m with
  | poll s => exact if_neg (fun heq => hm (congrArg some heq))
  | _ => rfl

theorem seen_poll (w : World) (t : Nat) (r : Request) (i d : Nat) :
    seen t r i d w (.poll t) = (w.come r i d).toList := if_pos rfl

/-- What has come depends on the reply, the tokens and the time. -/
theorem come_congr {r : Request} {i d : Nat} (hreply : w'.replyTo i = w.replyTo i)
    (hfired : w'.fired = w.fired) (hnow : w'.now = w.now) : w'.come r i d = w.come r i d := by
  have hany : r.cancel.any w'.hasFired = r.cancel.any w.hasFired := by
    cases r.cancel with
    | none => rfl
    | some t => rw [Option.any_some, Option.any_some, hasFired, hasFired, hfired]
  simp only [come, hreply, hnow, hany]

theorem lookReply_eq (w : World) (r : Request) (i d : Nat) :
    w.lookReply r i d = (w.come r i d).elim (.inr (.awaitReply i d)) .inl := by
  unfold lookReply come
  cases w.replyTo i with
  | some reply => cases reply <;> rfl
  | none =>
    by_cases hcancel : r.cancel.any w.hasFired
    · simp only [hcancel, if_true, Option.elim_some]
    · by_cases hd : d ≤ w.now
      · simp only [hcancel, hd, Bool.false_eq_true, if_false, if_true, Option.elim_some]
      · simp only [hcancel, hd, Bool.false_eq_true, if_false, Option.elim_none]

/-- A request that waits on a connection is not told that this is closed. -/
theorem come_ne_disconnected {r : Request} {i d : Nat} :
    w.come r i d ≠ some (.error .disconnected) := by
  unfold come
  split
  · simp
  · simp
  · split
    · simp
    · split <;> simp

/-- A poll of a request that waits for a reply does what it has seen. -/
theorem outcomeOf_waiting {t : Nat} {r : Request} {i d : Nat}
    (ht : w.tasks.get? t = some (.request r (.awaitReply i d))) :
    w.outcomeOf t = w.come r i d := by
  have hcome : (w.taken t).come r i d = w.come r i d :=
    come_congr rfl rfl rfl
  simp only [outcomeOf, ht, look, lookReply_eq, hcome]
  cases w.come r i d <;> rfl

/-- While nothing has come, the request waits on. -/
theorem waits_on {t : Nat} {r : Request} {i d : Nat}
    (ht : w.tasks.get? t = some (.request r (.awaitReply i d))) (hc : w.come r i d = none) :
    (w.act (.poll t)).tasks.get? t = some (.request r (.awaitReply i d)) := by
  have hcome : (w.taken t).come r i d = none := by
    rw [← hc]
    exact come_congr rfl rfl rfl
  have hl : ((w.taken t).look r (.awaitReply i d)).2
      = .inr (.awaitReply i d) := by
    rw [look, lookReply_eq, hcome]
    rfl
  rw [act_wait ht hl]
  exact (quiet_closeUnheld _).toCalm.task (Table.get?_insert_self _ _ _)

/-- **A request that waits is settled with what is first seen** when it is polled, and not again. -/
theorem settled_waiting {t : Nat} {r : Request} {i d : Nat} (ms : List Move) {w : World}
    (hw : w.Orderly) (ht : w.tasks.get? t = some (.request r (.awaitReply i d))) :
    observe (settled t) w ms = (observe (seen t r i d) w ms).take 1 := by
  induction ms generalizing w with
  | nil => rfl
  | cons m ms ih =>
    rw [observe_cons, observe_cons]
    by_cases hm : m.polled = some t
    · obtain rfl := Move.eq_poll hm
      rw [settled_poll, seen_poll, outcomeOf_waiting ht]
      cases hc : w.come r i d with
      | none => exact ih (orderly_act hw _) (waits_on ht hc)
      | some o =>
        obtain ⟨ht', hlt'⟩ := ended_of_settle hw ((outcomeOf_waiting ht).trans hc)
        rw [settled_ended ms (orderly_act hw _) ht' hlt']
        rfl
    · rw [settled_of_ne hm, seen_of_ne hm]
      exact ih (orderly_act hw m) (task_act hw hm ht)

/-- It is still there, or it has been settled. -/
theorem waiting_run {t : Nat} {r : Request} {i d : Nat} (ms : List Move) {w : World}
    (hw : w.Orderly) (ht : w.tasks.get? t = some (.request r (.awaitReply i d))) :
    (w.run ms).tasks.get? t = some (.request r (.awaitReply i d)) ∨
      (w.run ms).tasks.get? t = none := by
  induction ms generalizing w with
  | nil => exact Or.inl ht
  | cons m ms ih =>
    by_cases hm : m.polled = some t
    · obtain rfl := Move.eq_poll hm
      cases hc : w.come r i d with
      | none => exact ih (orderly_act hw _) (waits_on ht hc)
      | some o =>
        obtain ⟨ht', hlt'⟩ := ended_of_settle hw ((outcomeOf_waiting ht).trans hc)
        exact Or.inr (ended_run ms (orderly_act hw _) ht' hlt')
    · exact ih (orderly_act hw m) (task_act hw hm ht)

/-- Something that has come puts the request into the queue. -/
theorem canRun_of_come {r : Request} {i d : Nat} (hc : w.come r i d ≠ none) :
    w.CanRun (.request r (.awaitReply i d)) := by
  unfold come at hc
  split at hc
  · rename_i c hr
    exact Or.inr (Or.inr (Or.inl ⟨i, decide_eq_true rfl, by rw [hr]; rfl⟩))
  · rename_i e hr
    exact Or.inr (Or.inr (Or.inl ⟨i, decide_eq_true rfl, by rw [hr]; rfl⟩))
  · split at hc
    · rename_i hf
      obtain ⟨t, ht, hf⟩ := (Option.any_eq_true _ _).mp hf
      exact Or.inr (Or.inr (Or.inr ⟨t, decide_eq_true ht, hf⟩))
    · split at hc
      · rename_i hd
        exact Or.inr (Or.inl (decide_eq_true hd))
      · exact absurd rfl hc

end MessageBus.World
