/-
# No task sleeps through what it waits for

A task CAN RUN when nothing has to happen before it gets further: it has just been made, its time
has come, the reply that it waits for is there, or its token has fired (`World.CanRun`).  The queue
is for just these tasks: a world is AWAKE if every task that can run stands in it.

A task that is polled either ends or waits for something that has not come (`World.polled_waits`),
and whatever brings what a task waits for puts it into the queue.  So every move keeps a world awake
(`World.awake_act`), and once the queue is empty, no reply, token or deadline is left unseen.
-/
import MessageBus.Proofs.Steps

namespace MessageBus

/-- Whether the task has something to do as soon as it is made. -/
def Task.isPrompt : Task → Bool
  | .handle .. | .request _ .unsent => true
  | _ => false

namespace World

/-- The task can get further.  A task that hands out a queue is woken for each signal, and has
nothing to do with calls. -/
def CanRun (w : World) (x : Task) : Prop :=
  x.isPrompt = true ∨ x.isDue w.now = true ∨
    (∃ i, x.awaitsReply i = true ∧ (w.replyTo i).isSome) ∨
    ∃ token, x.awaitsToken token = true ∧ w.hasFired token = true

/-- Every task that can run, except perhaps `e`, stands in the queue. -/
def Awake (e : Option Nat) (w : World) : Prop :=
  ∀ t x, e ≠ some t → w.tasks.get? t = some x → w.CanRun x → t ∈ w.ready

variable {w w' : World} {e : Option Nat}

/-- A task that waits for a time only cannot run before that. -/
theorem not_canRun_undue {x : Task} (hprompt : x.isPrompt = false) (hdue : x.isDue w.now = false)
    (hreply : ∀ i, x.awaitsReply i = false) (htoken : ∀ t, x.awaitsToken t = false) :
    ¬ w.CanRun x := by
  rintro (h | h | ⟨i, h, -⟩ | ⟨t, h, -⟩)
  · rw [hprompt] at h
    cases h
  · rw [hdue] at h
    cases h
  · rw [hreply] at h
    cases h
  · rw [htoken] at h
    cases h

theorem not_canRun_deliver (w : World) (b : Nat) (c : String) : ¬ w.CanRun (.deliver b c) :=
  not_canRun_undue rfl rfl (fun _ => rfl) fun _ => rfl

/-- What a task waits for depends on the time, the replies and the tokens. -/
theorem CanRun.congr {x : Task} (h : w'.CanRun x) (hnow : w'.now = w.now)
    (hreply : ∀ i, w'.replyTo i = w.replyTo i) (hfired : w'.fired = w.fired) : w.CanRun x := by
  have htoken : ∀ t, w'.hasFired t = w.hasFired t := fun t => by
    rw [hasFired, hasFired, hfired]
  simpa only [CanRun, hnow, hreply, htoken] using h

theorem Awake.calm (h : w.Awake e) (hc : w.Calm w') : w'.Awake e := by
  intro t x he hx hrun
  have hrun : w.CanRun x := hrun.congr hc.now hc.replyTo hc.fired
  rcases hc.newTask hx with hx | ⟨-, b, c, rfl⟩
  · exact hc.ready.subset (h t x he hx hrun)
  · exact absurd hrun (not_canRun_deliver w b c)

/-- A world stays awake when its tasks stay the same and nothing comes that one may wait for. -/
theorem Awake.congr (h : w.Awake e) (htasks : w'.tasks = w.tasks) (hready : w'.ready = w.ready)
    (hnow : w'.now = w.now) (hreply : ∀ i, w'.replyTo i = w.replyTo i)
    (hfired : w'.fired = w.fired) : w'.Awake e := by
  intro t x he hx hrun
  rw [hready]
  rw [htasks] at hx
  exact h t x he hx (hrun.congr hnow hreply hfired)

/-- Waking those that can run from now on. -/
theorem Awake.wake (h : w.Awake e) (htasks : w'.tasks = w.tasks) (hready : w'.ready = w.ready)
    {p : Task → Bool} (hrun : ∀ {x}, w'.CanRun x → w.CanRun x ∨ p x = true) :
    (w'.wake p).Awake e := by
  intro t x he hx hx'
  have hq := (quiet_wake w' p).toCalm
  have hx : w'.tasks.get? t = some x := by
    rw [wake_eq] at hx
    exact hx
  refine mem_ready_wake.mpr ?_
  rcases hrun (hx'.congr hq.now hq.replyTo hq.fired) with hx'' | hp
  · rw [htasks] at hx
    exact Or.inl (hready ▸ h t x he hx hx'')
  · exact Or.inr ⟨x, Table.mem_entries_of_get? hx, hp⟩

/-! ## 1. What the engine does -/

/-- A new task stands in the queue. -/
theorem Awake.spawn (h : w.Awake e) (x : Task) : (w.spawn x).Awake e := by
  intro t y he hy hrun
  have hready : (w.spawn x).ready = ((w.addTask x).1.enqueue w.nextTask).ready := rfl
  rw [hready, mem_ready_enqueue]
  rw [spawn_eq] at hy
  simp only [Table.get?_insert] at hy
  split at hy
  · rename_i heq
    exact Or.inr heq.symm
  · refine Or.inl (h t y he hy (hrun.congr ?_ ?_ ?_)) <;> rw [spawn_eq]
    · intro i
      rfl

theorem Awake.invoke (h : w.Awake e) (hw : w.Orderly) (sender path interface member : String) :
    (w.invoke sender path interface member).1.Awake e := by
  refine h.congr rfl rfl rfl (fun i => ?_) rfl
  simp only [World.invoke, replyTo, Table.get?_insert]
  split
  · rename_i heq
    subst heq
    rw [hw.invocationsBelow.get?_size]
    rfl
  · rfl

/-- A reply wakes those that wait for it. -/
theorem Awake.reply (h : w.Awake e) (i : Nat) (r : Reply Container) : (w.reply i r).Awake e := by
  unfold World.reply
  split
  · rename_i inv hinv
    split
    · exact h
    · refine h.wake ?_ ?_ ?_
      · rfl
      · rfl
      rintro x (hx | hx | ⟨j, hj, hr⟩ | hx)
      · exact Or.inl (Or.inl hx)
      · exact Or.inl (Or.inr (Or.inl hx))
      · by_cases heq : i = j
        · subst heq
          exact Or.inr hj
        · simp only [replyTo, Table.get?_insert, if_neg heq] at hr
          exact Or.inl (Or.inr (Or.inr (Or.inl ⟨j, hj, hr⟩)))
      · exact Or.inl (Or.inr (Or.inr (Or.inr hx)))
  · exact h

theorem Awake.conclude (h : w.Awake e) (i : Nat) (a : Answer) : (w.conclude i a).Awake e := by
  unfold World.conclude
  split
  · exact h.reply i _
  · split
    · exact (h.calm (quiet_warn w _).toCalm).reply i _
    · exact h

theorem Awake.dispose (h : w.Awake e) (i : Nat) (args : List Value) (d : Disposal) :
    (w.dispose i args d).Awake e := by
  cases d with
  | keep =>
    have hslot : World.Awake e { w with
        kept := w.kept.insert w.kept.size { invocation := i, args, answered := false } } :=
      h.congr rfl rfl rfl (fun _ => rfl) rfl
    unfold World.dispose keep
    simp only
    split
    · exact hslot.calm (calm_note _ rfl)
    · exact hslot
  | answer a => exact h.conclude i a
  | answerAfter ms a => exact h.spawn _

theorem Awake.handle (h : w.Awake e) (object i : Nat) (member : String) (body : Container) :
    (w.handle object i member body).Awake e := by
  have hnote : ∀ ev, (w.note ev).Awake e := fun ev => h.congr rfl rfl rfl (fun _ => rfl) rfl
  unfold World.handle
  split
  · exact h
  · split
    · exact (h.calm (quiet_warn w _).toCalm).reply i _
    · exact ((hnote _).calm (quiet_warn _ _).toCalm).reply i _
    · exact (hnote _).dispose i _ _

theorem Awake.answerKept (h : w.Awake e) {slot : Nat} {answer : List Value → Answer}
    (ha : w.answerKept slot answer = some w') : w'.Awake e := by
  unfold World.answerKept at ha
  split at ha
  · rename_i k hk
    split at ha
    · cases ha
    · cases ha
      have hslot : World.Awake e
          { w with kept := w.kept.insert slot { k with answered := true } } :=
        h.congr rfl rfl rfl (fun _ => rfl) rfl
      exact hslot.conclude _ _
  · cases ha

/-- A token wakes those that wait for it. -/
theorem Awake.fire (h : w.Awake e) (t : Token) : (w.fire t).Awake e := by
  unfold World.fire
  split
  · exact h
  · refine h.wake ?_ ?_ ?_
    · rfl
    · rfl
    rintro x (hx | hx | hx | ⟨s, hs, hf⟩)
    · exact Or.inl (Or.inl hx)
    · exact Or.inl (Or.inr (Or.inl hx))
    · exact Or.inl (Or.inr (Or.inr (Or.inl hx)))
    · by_cases heq : s = t
      · subst heq
        exact Or.inr hs
      · have hf : w.hasFired s = true := by
          simpa [hasFired, heq] using hf
        exact Or.inl (Or.inr (Or.inr (Or.inr ⟨s, hs, hf⟩)))

theorem Awake.foldl_fire (ts : List Token) {w : World} (h : w.Awake e) :
    (ts.foldl World.fire w).Awake e := by
  refine List.foldlRecOn ts World.fire h fun v hv t _ => ?_
  exact hv.fire t

/-- Time wakes those that are due. -/
theorem Awake.moveTo (h : w.Awake e) (t : Nat) : (w.moveTo t).Awake e := by
  refine Awake.wake h ?_ ?_ ?_
  · rfl
  · rfl
  rintro x (hx | hx | hx | hx)
  · exact Or.inl (Or.inl hx)
  · exact Or.inr hx
  · exact Or.inl (Or.inr (Or.inr (Or.inl hx)))
  · exact Or.inl (Or.inr (Or.inr (Or.inr hx)))

theorem Awake.endTask (h : w.Awake e) (t : Nat) : (w.endTask t).Awake e := by
  intro s x he hx hrun
  simp only [World.endTask, Table.get?_erase] at hx
  split at hx
  · cases hx
  · exact h s x he hx hrun

/-- Changing the task that is polled. -/
theorem Awake.replaceTask {t : Nat} (h : w.Awake (some t)) (x : Task) :
    World.Awake (some t) { w with tasks := w.tasks.insert t x } := by
  intro s y he hy hrun
  rw [Table.get?_insert, if_neg (fun heq => he (congrArg some heq))] at hy
  exact h s y he hy hrun

theorem Awake.look (h : w.Awake e) (hw : w.Orderly) (r : Request) (p : Progress) :
    (w.look r p).1.Awake e := by
  rcases look_cases w r p with hq | ⟨b, me, object, -, -, -, hlook⟩
  · exact h.calm hq.toCalm
  · rw [hlook]
    exact (h.invoke hw _ _ _ _).spawn _

theorem Awake.runTask {t : Nat} (h : w.Awake (some t)) (hw : w.Orderly) (x : Task) :
    (w.runTask t x).Awake (some t) := by
  have hend := h.endTask t
  cases x with
  | deliver bus connection => exact h.calm (quiet_deliver w bus connection).toCalm
  | handle object i member body => exact hend.handle object i member body
  | request r p =>
    have hlook : (w.look r p).1.Awake (some t) := h.look hw r p
    simp only [World.runTask]
    split <;> rename_i v o heq <;> rw [heq] at hlook
    · exact (hlook.calm (calm_settleRequest v t r.purpose o)).endTask t
    · exact hlook.replaceTask _
  | answer i a due =>
    simp only [World.runTask]
    split
    · exact hend.conclude i a
    · exact h
  | fire token due =>
    simp only [World.runTask]
    split
    · exact hend.fire token
    · exact h
  | watch i =>
    simp only [World.runTask]
    split
    · exact hend.calm (calm_note _ rfl)
    · exact h

/-! ## 2. What a poll leaves waiting -/

theorem not_canRun_awaitCancel {r : Request} {t : Token} (ht : r.cancel = some t)
    (hf : w.hasFired t = false) : ¬ w.CanRun (.request r .awaitCancel) := by
  rintro (h | h | ⟨i, h, -⟩ | ⟨s, h, hs⟩)
  · cases h
  · cases h
  · cases h
  · have heq : r.cancel = some s := of_decide_eq_true h
    rw [ht] at heq
    cases heq
    rw [hf] at hs
    cases hs

theorem not_canRun_awaitReply {r : Request} {i d : Nat} (hr : w.replyTo i = none)
    (hc : r.cancel.any w.hasFired = false) (hd : w.now < d) :
    ¬ w.CanRun (.request r (.awaitReply i d)) := by
  rintro (h | h | ⟨j, h, hj⟩ | ⟨s, h, hs⟩)
  · cases h
  · have hle : d ≤ w.now := of_decide_eq_true h
    omega
  · have heq : i = j := of_decide_eq_true h
    rw [← heq, hr] at hj
    cases hj
  · have heq : r.cancel = some s := of_decide_eq_true h
    rw [heq, Option.any_some, hs] at hc
    cases hc

theorem not_canRun_lookScripted {r : Request} {o : ScriptedOutcome} {p : Progress}
    (h : w.lookScripted r o = .inr p) : ¬ w.CanRun (.request r p) := by
  obtain ⟨t, ht, hf, rfl⟩ := lookScripted_eq_inr h
  exact not_canRun_awaitCancel ht hf

theorem not_canRun_lookReply {r : Request} {i d : Nat} {p : Progress}
    (h : w.lookReply r i d = .inr p) : ¬ w.CanRun (.request r p) := by
  obtain ⟨hr, hc, hd, rfl⟩ := lookReply_eq_inr.mp h
  exact not_canRun_awaitReply hr hc hd

theorem not_canRun_lookDelayed {r : Request} {due : Nat} {o : ScriptedOutcome} {p : Progress}
    (h : w.lookDelayed r due o = .inr p) : ¬ w.CanRun (.request r p) := by
  unfold lookDelayed at h
  split at h
  · exact not_canRun_lookScripted h
  · rename_i hdue
    cases h
    exact not_canRun_undue rfl (decide_eq_false hdue) (fun _ => rfl) fun _ => rfl

/-- A request that has been looked at and has no outcome waits for something that has not come. -/
theorem look_waits {r : Request} {p q : Progress} {v : World} (h : w.look r p = (v, .inr q)) :
    ¬ v.CanRun (.request r q) := by
  cases p with
  | unsent =>
    simp only [look] at h
    split at h
    · rename_i b me _
      cases hr : w.route b me r.call r.cancel with
      | error e =>
        rw [issueBus, hr] at h
        cases h
      | ok route =>
        cases route with
        | properties owner =>
          rw [issueBus, hr] at h
          cases h
        | object object =>
          rw [issueBus_object hr] at h
          obtain ⟨rfl, hl⟩ := Prod.mk.inj h
          exact not_canRun_lookReply hl
    · unfold issueScripted at h
      simp only at h
      split at h
      · cases h
      · split at h
        · obtain ⟨rfl, hl⟩ := Prod.mk.inj h
          exact not_canRun_lookDelayed hl
        · obtain ⟨rfl, hl⟩ := Prod.mk.inj h
          exact not_canRun_lookScripted hl
  | awaitReply i d =>
    obtain ⟨rfl, hl⟩ := Prod.mk.inj h
    exact not_canRun_lookReply hl
  | delayed due o =>
    obtain ⟨rfl, hl⟩ := Prod.mk.inj h
    exact not_canRun_lookDelayed hl
  | awaitCancel =>
    obtain ⟨rfl, hl⟩ := Prod.mk.inj h
    exact not_canRun_lookScripted hl

/-- A task that ends is not there again, whatever else the poll does. -/
theorem ended {t : Nat} {x : Task} (hw : w.Orderly) (ht : w.tasks.get? t = some x)
    (h : World.Onward none (w.endTask t) w') : w'.tasks.get? t = none := by
  cases hy : w'.tasks.get? t with
  | none => rfl
  | some y =>
    rcases h.makes hy with hold | ⟨hle, -⟩
    · simp only [endTask, Table.get?_erase, if_true] at hold
      cases hold
    · have hlt := hw.task_lt ht
      exact absurd hle (Nat.not_le.mpr hlt)

/-- A task that is still there after its poll is what it was, or a request that waits. -/
theorem polled_stays {t : Nat} {x y : Task} (hw : w.Orderly) (ht : w.tasks.get? t = some x)
    (hy : (w.runTask t x).tasks.get? t = some y) :
    (y = x ∧ w.runTask t x = w ∧ ¬ w.CanRun x) ∨ (∃ b c, x = .deliver b c ∧ y = x) ∨
      ∃ r p q v, x = .request r p ∧ y = .request r q ∧ w.look r p = (v, .inr q) ∧
        w.runTask t x = { v with tasks := v.tasks.insert t (.request r q) } := by
  have hended : ∀ {v : World}, World.Onward none (w.endTask t) v → v.tasks.get? t ≠ some y := by
    intro v hv
    rw [ended hw ht hv]
    exact (Option.some_ne_none y).symm
  cases x with
  | deliver bus connection =>
    have hq := (quiet_deliver w bus connection).toCalm
    rw [runTask, hq.task ht] at hy
    exact Or.inr (Or.inl ⟨bus, connection, rfl, (Option.some.inj hy).symm⟩)
  | handle object i member body =>
    exact absurd hy (hended (onward_handle (hw.endTask t) object i member body))
  | request r p =>
    simp only [runTask] at hy ⊢
    split at hy <;> rename_i v o heq
    · simp only [endTask, Table.get?_erase, if_true] at hy
      cases hy
    · rw [Table.get?_insert_self] at hy
      exact Or.inr (Or.inr ⟨r, p, o, v, rfl, (Option.some.inj hy).symm, heq, rfl⟩)
  | answer i a due =>
    simp only [runTask] at hy ⊢
    split at hy
    · exact absurd hy (hended (onward_conclude _ i a))
    · rename_i hdue
      rw [ht] at hy
      refine Or.inl ⟨(Option.some.inj hy).symm, if_neg hdue, ?_⟩
      exact not_canRun_undue rfl (decide_eq_false hdue) (fun _ => rfl) fun _ => rfl
  | fire token due =>
    simp only [runTask] at hy ⊢
    split at hy
    · exact absurd hy (hended (onward_fire _ token))
    · rename_i hdue
      rw [ht] at hy
      refine Or.inl ⟨(Option.some.inj hy).symm, if_neg hdue, ?_⟩
      exact not_canRun_undue rfl (decide_eq_false hdue) (fun _ => rfl) fun _ => rfl
  | watch i =>
    simp only [runTask] at hy ⊢
    split at hy
    · exact absurd hy (hended (calm_note _ rfl).onward)
    · rename_i hnone
      rw [ht] at hy
      refine Or.inl ⟨(Option.some.inj hy).symm, rfl, ?_⟩
      rintro (h | h | ⟨j, h, hj⟩ | ⟨s, h, -⟩)
      · cases h
      · cases h
      · have heq : i = j := of_decide_eq_true h
        rw [← heq, hnone] at hj
        cases hj
      · cases h

/-- **A task that has been polled** has ended, or waits for what has not come. -/
theorem polled_waits {t : Nat} {x y : Task} (hw : w.Orderly) (ht : w.tasks.get? t = some x)
    (hy : (w.runTask t x).tasks.get? t = some y) : ¬ (w.runTask t x).CanRun y := by
  rcases polled_stays hw ht hy with ⟨rfl, hrun, hcan⟩ | ⟨b, c, rfl, rfl⟩ |
    ⟨r, p, q, v, rfl, rfl, hlook, hrun⟩
  · rw [hrun]
    exact hcan
  · exact not_canRun_deliver _ _ _
  · rw [hrun]
    exact fun h => look_waits hlook (h.congr rfl (fun _ => rfl) rfl)

/-! ## 3. Every move keeps a world awake -/

/-- **No wakeup is lost**: every move keeps every task that can run in the queue. -/
theorem awake_act (hw : w.Orderly) (h : w.Awake none) (m : Move) : (w.act m).Awake none := by
  have he := effect_act hw m
  generalize w.act m = w' at he ⊢
  cases he with
  | calm _ hc => exact h.calm hc
  | spawn _ hc _ => exact (h.calm hc).spawn _
  | fire _ tokens => exact Awake.foldl_fire tokens h
  | @call object o ho sender path member body =>
    rw [callDirectly_eq]
    exact ((h.invoke hw _ _ _ _).handle object w.invocations.size member body).spawn _
  | answer ha => exact h.answerKept ha
  | @poll t x ht =>
    have hready : (w.taken t).Awake (some t) := by
      intro s y hs hy hrun
      have hne : s ≠ t := fun heq => hs (congrArg some heq.symm)
      exact (List.mem_erase_of_ne hne).mpr (h s y (by simp) hy (hrun.congr rfl (fun _ => rfl) rfl))
    have hrun := hready.runTask (hw.taken t) x
    refine Awake.calm ?_ (quiet_closeUnheld _).toCalm
    intro s y _ hy hcan
    by_cases hs : t = s
    · subst hs
      exact absurd hcan (polled_waits (hw.taken t) ht hy)
    · exact hrun s y (fun heq => hs (Option.some.inj heq)) hy hcan
  | @stale t ht =>
    intro s y _ hy hrun
    have hne : s ≠ t := by
      rintro rfl
      have hy : w.tasks.get? s = some y := hy
      rw [ht] at hy
      cases hy
    exact (List.mem_erase_of_ne hne).mpr (h s y (by simp) hy (hrun.congr rfl (fun _ => rfl) rfl))
  | pass ms => exact h.moveTo _

end World

end MessageBus
