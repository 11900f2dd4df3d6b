/-
# Whoever waits for a call gets its outcome

`World.await` makes a request at once and then runs the world by a rule of its own until the outcome
is there: up to 61 other tasks, then the request again if something has woken it, and time passes
only when nothing can run.  All of this is polls and the passing of time, so that whatever holds of
every run holds of it (`World.await_run`).

That it gives the outcome at all is shown for calls that a synchronous handler serves.  The task
that calls the handler stands somewhere in the queue, and each poll of another task brings it one
place nearer to the front, for what is put into the queue is put behind it (`World.Behind`).  So the
handler is called within as many rounds as tasks stand before it, and the bound on the rounds allows
for more.
-/
import MessageBus.Proofs.Ledger
import MessageBus.Proofs.Serving

namespace MessageBus

/-- The move is one of those that happen by themselves: a poll, or the passing of time. -/
def Move.isStep : Move → Bool
  | .poll _ | .pass _ => true
  | _ => false

namespace World

variable {w w' : World}

/-! ## 1. Outcomes that are laid by -/

/-- The outcome that a poll of `t` lays by for somebody. -/
def laid (w : World) (t : Nat) : Option (Except TransportError Container) :=
  match w.tasks.get? t with
  | some (.request r _) => if r.purpose = .answer then w.outcomeOf t else none
  | _ => none

theorem laid_request {t : Nat} {r : Request} {p : Progress}
    (ht : w.tasks.get? t = some (.request r p)) (hr : r.purpose = .answer) :
    w.laid t = w.outcomeOf t := by
  simp only [laid, ht, hr, if_true]

theorem outcomes_settleRequest (w : World) (t : Nat) {purpose : Purpose} (hp : purpose ≠ .answer)
    (o : Except TransportError Container) :
    (w.settleRequest t purpose o).outcomes = w.outcomes := by
  cases purpose with
  | complete id number =>
    simp only [settleRequest]
    split
    · rfl
    · split
      · exact (complete_eq _ _ _).2.2
      · rfl
  | write property =>
    simp only [settleRequest]
    split <;> rfl
  | answer => exact absurd rfl hp

/-- A poll lays by the outcome of a request for which somebody waits, and no other. -/
theorem outcomes_poll (hw : w.Orderly) (t : Nat) :
    (w.act (.poll t)).outcomes = (w.laid t).elim w.outcomes (w.outcomes.insert t) := by
  cases ho : w.outcomeOf t with
  | none =>
    have hlaid : w.laid t = none := by
      unfold laid
      split
      · split
        · exact ho
        · rfl
      · rfl
    rw [hlaid, Option.elim_none]
    exact (untold_poll hw ho).outcomes
  | some o =>
    obtain ⟨r, p, ht, hl⟩ := outcomeOf_eq_some.mp ho
    have hlook : ((w.taken t).look r p).1.outcomes = w.outcomes :=
      (untold_look (hw.taken t) r p).outcomes
    rw [act_settle ht hl, (quiet_closeUnheld _).outcomes]
    change (World.settleRequest _ t r.purpose o).outcomes = _
    by_cases hr : r.purpose = .answer
    · rw [laid_request ht hr, ho, hr, Option.elim_some, ← hlook]
      rfl
    · have hlaid : w.laid t = none := by simp only [laid, ht, hr, if_false]
      rw [hlaid, Option.elim_none, outcomes_settleRequest _ t hr, hlook]

/-- What has been laid by for a task is what its poll has laid by, or what was there before. -/
theorem outcomes_step (hw : w.Orderly) {m : Move} (hm : m.isStep = true) (t : Nat) :
    (w.act m).outcomes.get? t
      = (if m.polled = some t then w.laid t else none).or (w.outcomes.get? t) := by
  cases m with
  | poll s =>
    have hpolled : Move.polled (.poll s) = some t ↔ s = t := by simp [Move.polled]
    simp only [outcomes_poll hw s, hpolled]
    cases hl : w.laid s with
    | none =>
      by_cases hs : s = t
      · subst hs
        rw [if_pos rfl, hl]
        rfl
      · rw [if_neg hs]
        rfl
    | some o =>
      rw [Option.elim_some, Table.get?_insert]
      by_cases hs : s = t
      · subst hs
        rw [if_pos rfl, if_pos rfl, hl]
        rfl
      · rw [if_neg hs, if_neg hs]
        rfl
  | pass ms =>
    rw [if_neg (by simp [Move.polled])]
    exact congrArg (Table.get? · t) (untold_moveTo w (w.now + ms)).outcomes
  | _ => cases hm

theorem outcomes_polled (hw : w.Orderly) (t : Nat) :
    (w.act (.poll t)).outcomes.get? t = (w.laid t).or (w.outcomes.get? t) := by
  have hpolled : Move.polled (.poll t) = some t := rfl
  rw [outcomes_step hw rfl, if_pos hpolled]

/-- Outcomes are laid by under numbers that have been given. -/
theorem outcomesBelow_act (hw : w.Orderly)
    (h : ∀ t, w.outcomes.get? t ≠ none → t < w.nextTask) (m : Move) :
    ∀ t, (w.act m).outcomes.get? t ≠ none → t < (w.act m).nextTask := by
  have hnext := (later_act hw m).nextTask
  intro t ht
  refine Nat.lt_of_lt_of_le ?_ hnext
  by_cases hnone : w.outcomes.get? t = none
  · cases hm : m.polled with
    | some s =>
      cases m with
      | poll s =>
        rw [outcomes_step hw rfl, hnone, Option.or_none] at ht
        split at ht
        · unfold laid at ht
          split at ht
          · rename_i htask
            exact hw.task_lt htask
          · exact absurd rfl ht
        · exact absurd rfl ht
      | _ => cases hm
    | none =>
      by_cases hsub : submissions w m = []
      · obtain ⟨v, hv, huntold⟩ := untold_act hw hm hsub
        rw [huntold.outcomes] at ht
        rcases hv with rfl | ⟨task, rfl⟩
        · exact absurd hnone ht
        · refine absurd ?_ ht
          rw [dropOutcome, Table.get?_erase, hnone]
          split <;> rfl
      · obtain ⟨id, p, method, args, c, -, -, -, hact, -⟩ := submitting hsub
        rw [hact, spawn_eq] at ht
        exact absurd hnone ht
  · exact h t hnone

theorem outcomesBelow_run (ms : List Move) :
    ∀ t, (empty.run ms).outcomes.get? t ≠ none → t < (empty.run ms).nextTask := by
  have hboth : (empty.run ms).Orderly ∧
      ∀ t, (empty.run ms).outcomes.get? t ≠ none → t < (empty.run ms).nextTask :=
    run_keeps (P := fun w => w.Orderly ∧ ∀ t, w.outcomes.get? t ≠ none → t < w.nextTask)
      (fun w m h => ⟨orderly_act h.1 m, outcomesBelow_act h.1 h.2 m⟩) ms
      ⟨orderly_empty, fun t ht => absurd rfl ht⟩
  exact hboth.2

/-- What has been laid by stays while nobody takes it. -/
theorem outcome_stays {t : Nat} {o : Except TransportError Container} (ms : List Move) {w : World}
    (hw : w.Orderly) (hms : ∀ m ∈ ms, m.isStep = true) (ht : w.tasks.get? t = none)
    (hlt : t < w.nextTask) (ho : w.outcomes.get? t = some o) :
    (w.run ms).outcomes.get? t = some o := by
  induction ms generalizing w with
  | nil => exact ho
  | cons m ms ih =>
    obtain ⟨hm, hms⟩ := List.forall_mem_cons.mp hms
    obtain ⟨ht', hlt'⟩ := ended_act hw ht hlt m
    refine ih (orderly_act hw m) hms ht' hlt' ?_
    have hlaid : w.laid t = none := by simp only [laid, ht]
    rw [outcomes_step hw hm, hlaid, ho]
    split <;> rfl

/-- **What is laid by for a request is what it is settled with.** -/
theorem outcome_run {t : Nat} {r : Request} (hr : r.purpose = .answer) (ms : List Move) {w : World}
    {p : Progress} (hw : w.Orderly) (hms : ∀ m ∈ ms, m.isStep = true)
    (ht : w.tasks.get? t = some (.request r p)) (ho : w.outcomes.get? t = none) :
    (w.run ms).outcomes.get? t = (observe (settled t) w ms).head? := by
  induction ms generalizing w p with
  | nil => exact ho
  | cons m ms ih =>
    obtain ⟨hfirst, hrest⟩ := List.forall_mem_cons.mp hms
    have hstep := outcomes_step hw hfirst t
    rw [ho, Option.or_none] at hstep
    rw [observe_cons]
    by_cases hm : m.polled = some t
    · rw [if_pos hm, laid_request ht hr] at hstep
      obtain rfl := Move.eq_poll hm
      rw [settled_poll]
      cases hout : w.outcomeOf t with
      | none =>
        rw [hout] at hstep
        obtain ⟨q, ht'⟩ := waits_of_outcomeOf ht hout
        exact ih (orderly_act hw _) hrest ht' hstep
      | some o =>
        rw [hout] at hstep
        obtain ⟨ht', hlt'⟩ := ended_of_settle hw hout
        exact outcome_stays ms (orderly_act hw _) hrest ht' hlt' hstep
    · rw [if_neg hm] at hstep
      rw [settled_of_ne hm]
      exact ih (orderly_act hw m) hrest (task_act hw hm ht) hstep

/-! ## 2. The loops are runs -/

/-- One world comes of the other by itself, by polls and the passing of time. -/
def Runs (w w' : World) : Prop := ∃ ms : List Move, (∀ m ∈ ms, m.isStep = true) ∧ w' = w.run ms

theorem Runs.refl (w : World) : w.Runs w := ⟨[], by simp, rfl⟩

theorem Runs.trans {w'' : World} (h : w.Runs w') (h' : w'.Runs w'') : w.Runs w'' := by
  obtain ⟨ms, hms, rfl⟩ := h
  obtain ⟨ns, hns, rfl⟩ := h'
  refine ⟨ms ++ ns, fun m hm => ?_, (run_append _ _ _).symm⟩
  rcases List.mem_append.mp hm with hm | hm
  · exact hms m hm
  · exact hns m hm

theorem Runs.step (w : World) {m : Move} (hm : m.isStep = true) : w.Runs (w.act m) :=
  ⟨[m], by simpa using hm, rfl⟩

theorem Runs.poll (w : World) (t : Nat) : w.Runs (w.poll t) := Runs.step w (m := .poll t) rfl

theorem Runs.sound (hr : w.Runs w') (h : w.Sound) : w'.Sound := by
  obtain ⟨ms, -, rfl⟩ := hr
  exact h.run ms

theorem Runs.later (hr : w.Runs w') (h : w.Orderly) : w.Later w' := by
  obtain ⟨ms, -, rfl⟩ := hr
  exact later_run ms h

/-- When nothing can run, the next deadline is to come. -/
theorem Sound.nextDeadline_le (h : w.Sound) (hidle : w.ready = []) {d : Nat}
    (hd : w.nextDeadline = some d) : w.now ≤ d := by
  obtain ⟨x, hx, hdeadline⟩ := List.mem_filterMap.mp (List.min?_mem hd)
  obtain ⟨⟨t, y⟩, hmem, rfl⟩ := List.mem_map.mp hx
  have ht := h.orderly.tasksDistinct.get?_of_mem hmem
  refine Nat.le_of_not_lt fun hlt => ?_
  have hdue : y.isDue w.now = true := by
    rw [Task.isDue, hdeadline, Option.any_some]
    exact decide_eq_true (Nat.le_of_lt hlt)
  have hready := h.awake t y (by simp) ht (Or.inr (Or.inl hdue))
  rw [hidle] at hready
  cases hready

/-- Moving on to the next deadline lets time pass. -/
theorem Runs.moveTo (h : w.Sound) (hidle : w.ready = []) {d : Nat}
    (hd : w.nextDeadline = some d) : w.Runs (w.moveTo d) := by
  have hpass : w.moveTo d = w.act (.pass (d - w.now)) := by
    rw [act, Nat.add_sub_cancel' (h.nextDeadline_le hidle hd)]
  rw [hpass]
  exact Runs.step w rfl

theorem runs_runOthers (t : Nat) (n : Nat) (w : World) : w.Runs (w.runOthers t n) := by
  induction n generalizing w with
  | zero => exact .refl w
  | succ n ih =>
    rw [runOthers]
    split
    · rename_i s _
      exact (Runs.poll w s).trans (ih (w.poll s))
    · exact .refl w

/-- The request is looked at if something has woken it. -/
def lookedAt (w : World) (t : Nat) : World := if w.ready.contains t then w.poll t else w

theorem runs_lookedAt (w : World) (t : Nat) : w.Runs (w.lookedAt t) := by
  unfold lookedAt
  split
  · exact Runs.poll w t
  · exact .refl w

/-- What a round of waiting ends with: the next one, up to `n` of which there may be, at once or at
the next deadline. -/
def nextRound (n t : Nat) (w : World) : World :=
  if w.ready.isEmpty then
    match w.nextDeadline with
    | some d => runToOutcome n t (w.moveTo d)
    | none => w
  else runToOutcome n t w

/-- One round of waiting. -/
theorem runToOutcome_succ (n t : Nat) (w : World) :
    runToOutcome (n + 1) t w =
      if ((w.lookedAt t).outcomes.get? t).isSome then w.lookedAt t
      else nextRound n t ((w.lookedAt t).runOthers t turn) := rfl

/-- There is no next round when nothing can run and nothing is due. -/
theorem nextRound_cases (h : w.Sound) (n t : Nat) :
    (∃ v, w.Runs v ∧ nextRound n t w = runToOutcome n t v) ∨
      w.ready = [] ∧ nextRound n t w = w := by
  unfold nextRound
  split
  · rename_i hidle
    have hidle := List.isEmpty_iff.mp hidle
    split
    · rename_i d hd
      exact Or.inl ⟨_, Runs.moveTo h hidle hd, rfl⟩
    · exact Or.inr ⟨hidle, rfl⟩
  · exact Or.inl ⟨w, .refl w, rfl⟩

/-- **Waiting is a run** of polls and the passing of time. -/
theorem runs_runToOutcome (t : Nat) (n : Nat) {w : World} (h : w.Sound) :
    w.Runs (w.runToOutcome n t) := by
  induction n generalizing w with
  | zero => exact .refl w
  | succ n ih =>
    have hlooked := runs_lookedAt w t
    have hothers := hlooked.trans (runs_runOthers t turn (w.lookedAt t))
    have hsound := hothers.sound h
    rw [runToOutcome_succ]
    split
    · exact hlooked
    · rcases nextRound_cases hsound n t with ⟨v, hv, hnext⟩ | ⟨-, hnext⟩
      · rw [hnext]
        exact (hothers.trans hv).trans (ih (hv.sound hsound))
      · rw [hnext]
        exact hothers

/-! ## 3. The queue moves on -/

/-- The task `hd` stands in the queue, with at most `k` tasks other than `t` before it. -/
def Behind (w : World) (t hd k : Nat) : Prop :=
  ∃ before after, w.ready.filter (· != t) = before ++ hd :: after ∧ before.length ≤ k

theorem behind_of_mem {t hd : Nat} (hne : hd ≠ t) (hmem : hd ∈ w.ready) :
    w.Behind t hd w.ready.length := by
  have hfilter : hd ∈ w.ready.filter (· != t) := List.mem_filter.mpr ⟨hmem, bne_iff_ne.mpr hne⟩
  obtain ⟨before, after, heq⟩ := List.append_of_mem hfilter
  refine ⟨before, after, heq, ?_⟩
  have hlength := List.length_filter_le (· != t) w.ready
  rw [heq, List.length_append] at hlength
  omega

/-- A poll takes its task from the queue and puts others behind those that stand in it. -/
theorem ready_poll (hw : w.Orderly) (t s : Nat) :
    ∃ more, (w.act (.poll s)).ready.filter (· != t)
      = (w.ready.filter (· != t)).filter (· != s) ++ more := by
  have hfront : (w.taken s).ready <+: (w.act (.poll s)).ready := (onward_act hw (.poll s)).ready
  have htaken : (w.taken s).ready = w.ready.filter (· != s) := hw.readyDistinct.erase_eq_filter s
  rw [htaken] at hfront
  obtain ⟨more, heq⟩ := hfront.filter (· != t)
  refine ⟨more, ?_⟩
  rw [← heq, List.filter_filter, List.filter_filter]
  exact congrArg (· ++ more) (List.filter_congr fun _ _ => Bool.and_comm _ _)

section Behind

variable {t hd k s : Nat}

theorem Behind.isEmpty_ready (hb : w.Behind t hd k) : w.ready.isEmpty = false := by
  obtain ⟨before, after, heq, -⟩ := hb
  refine Bool.eq_false_iff.mpr fun hempty => ?_
  rw [List.isEmpty_iff.mp hempty] at heq
  cases before <;> cases heq

theorem Behind.poll (hb : w.Behind t hd k) (hw : w.Orderly) (hs : hd ≠ s) :
    (w.act (.poll s)).Behind t hd k := by
  obtain ⟨before, after, heq, hle⟩ := hb
  obtain ⟨more, hready⟩ := ready_poll hw t s
  refine ⟨before.filter (· != s), after.filter (· != s) ++ more, ?_,
    Nat.le_trans (List.length_filter_le _ _) hle⟩
  rw [hready, heq, List.filter_append,
    List.filter_cons_of_pos (p := (· != s)) (bne_iff_ne.mpr hs), List.append_assoc,
    List.cons_append]

/-- The poll of the first of the other tasks brings `hd` one place nearer to the front. -/
theorem Behind.advance (hb : w.Behind t hd k) (hw : w.Orderly)
    (hfirst : w.ready.find? (· != t) = some s) (hs : hd ≠ s) :
    1 ≤ k ∧ (w.act (.poll s)).Behind t hd (k - 1) := by
  obtain ⟨before, after, heq, hle⟩ := hb
  obtain ⟨more, hready⟩ := ready_poll hw t s
  rw [← List.head?_filter, heq] at hfirst
  cases before with
  | nil => exact absurd (Option.some.inj hfirst) hs
  | cons first before =>
    cases Option.some.inj hfirst
    have hlength : before.length + 1 ≤ k := hle
    refine ⟨by omega, before.filter (· != s), after.filter (· != s) ++ more, ?_, ?_⟩
    · rw [hready, heq, List.filter_append, List.filter_cons_of_neg (by simp),
        List.filter_cons_of_pos (p := (· != s)) (bne_iff_ne.mpr hs), List.append_assoc,
        List.cons_append]
    · have hfilter := List.length_filter_le (· != s) before
      omega

/-- The others are polled until the task that calls a handler is, which ends it. -/
theorem behind_runOthers {object i : Nat} {member : String} {body : Container} (n : Nat) {k : Nat}
    {w : World} (hw : w.Orderly) (ht : w.tasks.get? hd = some (.handle object i member body))
    (hb : w.Behind t hd k) (hthere : (w.runOthers t n).tasks.get? hd ≠ none) :
    n ≤ k ∧ (w.runOthers t n).Behind t hd (k - n) := by
  induction n generalizing w k with
  | zero => exact ⟨Nat.zero_le _, hb⟩
  | succ n ih =>
    rw [runOthers] at hthere ⊢
    cases hfirst : w.ready.find? (· != t) with
    | none =>
      obtain ⟨before, after, heq, -⟩ := hb
      rw [← List.head?_filter, heq, List.head?_eq_none_iff] at hfirst
      cases before <;> cases hfirst
    | some s =>
      simp only [hfirst] at hthere ⊢
      by_cases hs : hd = s
      · subst hs
        obtain ⟨ms, -, hrun⟩ := runs_runOthers t n (w.poll hd)
        have hw' := orderly_act hw (.poll hd)
        have hlt := Nat.lt_of_lt_of_le (hw.task_lt ht) (later_act hw (.poll hd)).nextTask
        have hended := ended_run ms hw' (handle_ends hw ht) hlt
        rw [hrun] at hthere
        exact absurd hended hthere
      · obtain ⟨hk, hb'⟩ := hb.advance hw hfirst hs
        have hpolled : Move.polled (.poll s) ≠ some hd := fun heq => hs (Option.some.inj heq).symm
        obtain ⟨hn, hbehind⟩ := ih (orderly_act hw (.poll s)) (task_act hw hpolled ht) hb' hthere
        refine ⟨by omega, ?_⟩
        rw [Nat.sub_sub, Nat.add_comm] at hbehind
        exact hbehind

end Behind

/-! ## 4. The outcome is there -/

/-- The request `t` waits for the reply to the invocation `i`, or its outcome has been laid by. -/
def Waits (w : World) (t : Nat) (r : Request) (i d : Nat) : Prop :=
  w.tasks.get? t = some (.request r (.awaitReply i d)) ∨ w.outcomes.get? t ≠ none

section Waits

variable {t i d : Nat} {r : Request}

theorem Waits.act (hw : w.Orderly) (hr : r.purpose = .answer) (h : w.Waits t r i d) {m : Move}
    (hm : m.isStep = true) : (w.act m).Waits t r i d := by
  have hstep := outcomes_step hw hm t
  rcases h with ht | ho
  · by_cases hpolled : m.polled = some t
    · rw [if_pos hpolled, laid_request ht hr, outcomeOf_waiting ht] at hstep
      obtain rfl := Move.eq_poll hpolled
      cases hc : w.come r i d with
      | none => exact Or.inl (waits_on ht hc)
      | some o =>
        rw [hc] at hstep
        exact Or.inr (by rw [hstep]; exact Option.some_ne_none _)
    · exact Or.inl (task_act hw hpolled ht)
  · refine Or.inr ?_
    rw [hstep]
    exact fun hnone => ho (Option.or_eq_none_iff.mp hnone).2

theorem Waits.runs (h : w.Waits t r i d) (hr : r.purpose = .answer) (hruns : w.Runs w')
    (hw : w.Orderly) : w'.Waits t r i d := by
  obtain ⟨ms, hms, rfl⟩ := hruns
  induction ms generalizing w with
  | nil => exact h
  | cons m ms ih =>
    exact ih (h.act hw hr (hms m List.mem_cons_self)) (orderly_act hw m)
      fun n hn => hms n (List.mem_cons_of_mem _ hn)

/-- A request whose reply has come has its outcome when it is looked at. -/
theorem Waits.lookedAt (h : w.Waits t r i d) (hr : r.purpose = .answer) (hw : w.Sound)
    (hreply : w.replyTo i ≠ none) : (w.lookedAt t).outcomes.get? t ≠ none := by
  have hcome : w.come r i d ≠ none := by
    rw [come]
    split
    · exact Option.some_ne_none _
    · exact Option.some_ne_none _
    · rename_i hnone
      exact absurd hnone hreply
  unfold World.lookedAt
  rcases h with ht | ho
  · have hmem := hw.awake t _ (by simp) ht (canRun_of_come hcome)
    rw [if_pos (List.contains_iff_mem.mpr hmem)]
    change (w.act (.poll t)).outcomes.get? t ≠ none
    rw [outcomes_polled hw.orderly, laid_request ht hr, outcomeOf_waiting ht]
    exact fun hnone => hcome (Option.or_eq_none_iff.mp hnone).1
  · split
    · change (w.act (.poll t)).outcomes.get? t ≠ none
      rw [outcomes_polled hw.orderly]
      exact fun hnone => ho (Option.or_eq_none_iff.mp hnone).2
    · exact ho

/-- One more round is enough for it. -/
theorem Waits.replied (h : w.Waits t r i d) (hr : r.purpose = .answer) (hw : w.Sound)
    (hreply : w.replyTo i ≠ none) (n : Nat) :
    (runToOutcome (n + 1) t w).outcomes.get? t ≠ none := by
  have hlooked := h.lookedAt hr hw hreply
  rw [runToOutcome_succ, if_pos (Option.isSome_iff_ne_none.mpr hlooked)]
  exact hlooked

/-- When others have run and the reply is there, the outcome is there at the latest after the next
round. -/
theorem Waits.nextRound (h : w.Waits t r i d) (hr : r.purpose = .answer) (hw : w.Sound)
    (hreply : w.replyTo i ≠ none) (n : Nat) :
    (nextRound (n + 1) t w).outcomes.get? t ≠ none := by
  rcases nextRound_cases hw (n + 1) t with ⟨v, hv, hnext⟩ | ⟨hidle, hnext⟩
  · obtain ⟨x, hx⟩ := Option.ne_none_iff_exists'.mp hreply
    have hreply' : v.replyTo i ≠ none := by
      rw [(hv.later hw.orderly).replyTo hx]
      exact Option.some_ne_none _
    rw [hnext]
    exact (h.runs hr hv hw.orderly).replied hr (hv.sound hw) hreply' n
  · have hlooked := h.lookedAt hr hw hreply
    rw [World.lookedAt, hidle] at hlooked
    rw [hnext]
    exact hlooked

end Waits

/-- The reply is coming: the request `t` waits for it, and the task `hd`, which calls the handler
for the invocation, stands in the queue with at most `k` tasks other than `t` before it. -/
structure Coming (w : World) (t hd i d object : Nat) (r : Request) (o : Handlers) (name : String)
    (body : Container) (k : Nat) : Prop where
  sound : w.Sound
  handlers : w.handlers? object = some o
  handle : w.tasks.get? hd = some (.handle object i name body)
  behind : w.Behind t hd k
  waits : w.Waits t r i d

section Coming

variable {t hd i d object k : Nat} {r : Request} {o : Handlers} {m : Method} {f : SyncHandler}
  {body : Container}

theorem Coming.lookedAt (h : w.Coming t hd i d object r o m.name body k)
    (hr : r.purpose = .answer) (hne : hd ≠ t) :
    (w.lookedAt t).Coming t hd i d object r o m.name body k where
  sound := (runs_lookedAt w t).sound h.sound
  handlers := ((runs_lookedAt w t).later h.sound.orderly).handlers h.handlers
  handle := by
    unfold World.lookedAt
    split
    · have hpolled : Move.polled (.poll t) ≠ some hd := fun heq => hne (Option.some.inj heq).symm
      exact task_act h.sound.orderly hpolled h.handle
    · exact h.handle
  behind := by
    unfold World.lookedAt
    split
    · exact h.behind.poll h.sound.orderly hne
    · exact h.behind
  waits := h.waits.runs hr (runs_lookedAt w t) h.sound.orderly

/-- When others have had their turn, the handler has been called, or stands nearer to the front. -/
theorem Coming.runOthers (h : w.Coming t hd i d object r o m.name body k)
    (hr : r.purpose = .answer) (hm : o.interface.method? m.name = some m)
    (hbody : body.tags = m.input) (hf : o.sync.get? m.name = some f) :
    (w.runOthers t turn).replyTo i ≠ none ∨
      turn ≤ k ∧ (w.runOthers t turn).Coming t hd i d object r o m.name body (k - turn) := by
  have hothers := runs_runOthers t turn w
  obtain ⟨ms, -, hrun⟩ := runs_runOthers t turn w
  rcases served_run h.handlers hm hbody hf ms h.sound (.refl w) h.handle with hhandle | hserved
  · rw [← hrun] at hhandle
    have hthere : (w.runOthers t turn).tasks.get? hd ≠ none := by
      rw [hhandle]
      exact Option.some_ne_none _
    obtain ⟨hk, hbehind⟩ := behind_runOthers turn h.sound.orderly h.handle h.behind hthere
    exact Or.inr ⟨hk,
      { sound := hothers.sound h.sound
        handlers := (hothers.later h.sound.orderly).handlers h.handlers
        handle := hhandle
        behind := hbehind
        waits := h.waits.runs hr hothers h.sound.orderly }⟩
  · refine Or.inl ?_
    rw [hrun, hserved.replied]
    exact Option.some_ne_none _

/-- **A call that is served gets its outcome** within as many rounds as tasks stand before the one
that calls its handler, and two more. -/
theorem Coming.reached (hr : r.purpose = .answer) (hm : o.interface.method? m.name = some m)
    (hbody : body.tags = m.input) (hf : o.sync.get? m.name = some f) (hne : hd ≠ t) (n : Nat)
    {k : Nat} {w : World} (h : w.Coming t hd i d object r o m.name body k) (hn : k + 2 ≤ n) :
    (runToOutcome n t w).outcomes.get? t ≠ none := by
  induction n generalizing w k with
  | zero => omega
  | succ n ih =>
    have hlooked := h.lookedAt hr hne
    rw [runToOutcome_succ]
    split
    · rename_i hsome
      exact Option.isSome_iff_ne_none.mp hsome
    · rcases hlooked.runOthers hr hm hbody hf with hreply | ⟨hk, hothers⟩
      · have hruns := runs_runOthers t turn (w.lookedAt t)
        have hwaits := hlooked.waits.runs hr hruns hlooked.sound.orderly
        obtain ⟨n, rfl⟩ : ∃ l, n = l + 1 := ⟨n - 1, by omega⟩
        exact hwaits.nextRound hr (hruns.sound hlooked.sound) hreply n
      · have hturn : turn = 61 := rfl
        rw [nextRound, hothers.behind.isEmpty_ready]
        exact ih hothers (by omega)

end Coming

/-! ## 5. Waiting for a call -/

section Await

variable {r : Request}

theorem ready_enqueue_new {t : Nat} (ht : t ∉ w.ready) : (w.enqueue t).ready = w.ready ++ [t] := by
  unfold enqueue
  split
  · rename_i hmem
    exact absurd (List.contains_iff_mem.mp hmem) ht
  · rfl

/-- A poll acts on the world from whose queue the task is taken. -/
theorem poll_eq (w : World) (t : Nat) :
    w.poll t = match (w.taken t).tasks.get? t with
      | some x => ((w.taken t).runTask t x).closeUnheld
      | none => w.taken t := rfl

/-- Who waits for a request polls it without putting it into the queue. -/
theorem poll_addTask (hw : w.Orderly) (x : Task) :
    (w.addTask x).1.poll w.nextTask = (w.spawn x).poll w.nextTask := by
  have hnot : w.nextTask ∉ w.ready := fun hmem => Nat.lt_irrefl _ (hw.readyBelow _ hmem)
  have hready : (w.spawn x).ready = w.ready ++ [w.nextTask] :=
    ready_enqueue_new (w := (w.addTask x).1) hnot
  have htaken : (w.addTask x).1.taken w.nextTask = (w.spawn x).taken w.nextTask := by
    have herase : (w.ready ++ [w.nextTask]).erase w.nextTask = w.ready.erase w.nextTask := by
      rw [List.erase_append_right _ hnot, List.erase_of_not_mem hnot]
      simp
    rw [spawn_eq, hready]
    simp only [taken, addTask, herase]
  rw [poll_eq, poll_eq, htaken]

/-- Waiting, as the loop has it. -/
theorem await_eq (hw : w.Orderly) (hr : r.purpose = .answer) :
    w.await r =
      let u := (w.act (.ask r)).act (.poll w.nextTask)
      let v := runToOutcome u.workload w.nextTask u
      ({ v with outcomes := v.outcomes.erase w.nextTask }, v.outcomes.get? w.nextTask) := by
  have hask : { r with purpose := .answer } = r := by rw [← hr]
  have hpoll : (w.addTask (.request r .unsent)).1.poll w.nextTask
      = (w.act (.ask r)).act (.poll w.nextTask) := by
    rw [poll_addTask hw, act, act, hask]
  rw [← hpoll]
  rfl

/-- The world in which a request has been made for which somebody waits. -/
theorem act_ask (w : World) (hr : r.purpose = .answer) :
    w.act (.ask r) =
      { w with
        tasks := w.tasks.insert w.nextTask (.request r .unsent)
        nextTask := w.nextTask + 1
        ready := (w.act (.ask r)).ready } := by
  have hask : { r with purpose := .answer } = r := by rw [← hr]
  have hact : w.act (.ask r) = w.spawn (.request r .unsent) := by rw [act, hask]
  rw [hact]
  exact spawn_eq w _

/-- **Waiting for a request** runs the world, and gives what the request is settled with. -/
theorem await_run (h : w.Sound) (hbelow : ∀ t, w.outcomes.get? t ≠ none → t < w.nextTask)
    (hr : r.purpose = .answer) :
    ∃ steps, w.await r =
      ({ w.run (.ask r :: .poll w.nextTask :: steps) with
          outcomes := (w.run (.ask r :: .poll w.nextTask :: steps)).outcomes.erase w.nextTask },
        (observe (settled w.nextTask) (w.act (.ask r)) (.poll w.nextTask :: steps)).head?) := by
  have ht : (w.act (.ask r)).tasks.get? w.nextTask = some (.request r .unsent) := by
    rw [act_ask w hr]
    exact Table.get?_insert_self _ _ _
  have houtcomes : (w.act (.ask r)).outcomes = w.outcomes := by rw [act_ask w hr]
  have hsound := (h.act (.ask r)).act (.poll w.nextTask)
  obtain ⟨steps, hsteps, hrun⟩ := runs_runToOutcome w.nextTask
    ((w.act (.ask r)).act (.poll w.nextTask)).workload hsound
  have hnone : (w.act (.ask r)).outcomes.get? w.nextTask = none := by
    rw [houtcomes]
    exact Classical.byContradiction fun hsome => Nat.lt_irrefl _ (hbelow _ hsome)
  have hlaid := outcome_run hr (.poll w.nextTask :: steps) (h.act (.ask r)).orderly
    (fun m hm => (List.mem_cons.mp hm).elim (fun heq => by rw [heq]; rfl) (hsteps m)) ht hnone
  refine ⟨steps, ?_⟩
  rw [await_eq h.orderly hr]
  simp only [hrun]
  rw [← hlaid]
  rfl

/-- **Waiting for a call that is served** comes to an end. -/
theorem await_served {b object : Nat} {me : String} {o : Handlers} {m : Method} {f : SyncHandler}
    (h : w.Sound) (hr : r.purpose = .answer) (hlink : r.link = .bus b me)
    (hroute : w.route b me r.call r.cancel = .ok (.object object))
    (hmember : r.call.member = m.name)
    (ho : w.handlers? object = some o) (hm : o.interface.method? m.name = some m)
    (hbody : r.call.body.tags = m.input) (hf : o.sync.get? m.name = some f) :
    (w.await r).2 ≠ none := by
  have ht : (w.act (.ask r)).tasks.get? w.nextTask = some (.request r .unsent) := by
    rw [act_ask w hr]
    exact Table.get?_insert_self _ _ _
  have hlt : w.nextTask < (w.act (.ask r)).nextTask := by
    rw [act_ask w hr]
    exact Nat.lt_succ_self _
  have hroute : (w.act (.ask r)).route b me r.call r.cancel = .ok (.object object) := by
    rw [act_ask w hr]
    exact hroute
  rw [await_eq h.orderly hr]
  have hu := h.act (.ask r)
  have ho' := (later_act h.orderly (.ask r)).handlers ho
  generalize w.act (.ask r) = u at ht hlt hu ho' hroute
  generalize w.nextTask = t at ht hlt
  have hu' := hu.act (.poll t)
  obtain ⟨hhandle, -, -⟩ := handle_routed hu.orderly ht hlink hroute
  rw [hmember] at hhandle
  have hne : u.nextTask ≠ t := Nat.ne_of_gt hlt
  have hbehind := behind_of_mem hne (hu'.awake _ _ (by simp) hhandle (Or.inl rfl))
  have hwaits : (u.act (.poll t)).Waits t r u.invocations.size (u.deadlineOf b r) := by
    cases hc : u.come r u.invocations.size (u.deadlineOf b r) with
    | none => exact Or.inl (waits_routed hu.orderly ht hlink hroute hc)
    | some x =>
      refine Or.inr ?_
      rw [outcomes_polled hu.orderly, laid_request ht hr,
        outcomeOf_routed hu.orderly ht hlink hroute, hc]
      exact Option.some_ne_none _
  have hsize : 1 ≤ (u.act (.poll t)).tasks.size :=
    List.length_pos_of_mem (Table.mem_entries_of_get? hhandle)
  have ho'' := (later_act hu.orderly (.poll t)).handlers ho'
  have hfuel : (u.act (.poll t)).ready.length + 2 ≤ (u.act (.poll t)).workload := by
    rw [workload]
    omega
  exact Coming.reached hr hm hbody hf hne _ ⟨hu', ho'', hhandle, hbehind, hwaits⟩ hfuel

end Await

end World

end MessageBus
