/-
# Replies that are owed, and handlers that are called

An invocation is owed one reply.  The obligation to give it is held in one place at a time: by the
task that is about to call a handler, by a slot in which a handler has kept the invocation, or by
the task that answers it when it is time.  While a move is at work it may have the obligation IN
HAND.

`World.owed` counts the holders of the obligation for an invocation.  The invariant `World.Owing` is
that holders and hand together are one for an invocation that has no reply, and none for one that
has: each operation that takes the obligation from one place puts it into just one other, or gives
the reply.  Handlers are counted the same way: the tasks that are about to call a handler for an
invocation and the runs of handlers for it are one at most together (`World.HandledOnce`).
-/
import MessageBus.Proofs.Steps

namespace MessageBus

/-! ## 1. Who holds an obligation -/

/-- The invocation that the task has to see to: to hand it to a handler, or to answer it. -/
def Task.owes : Task → Option Nat
  | .handle _ i _ _ | .answer i _ _ => some i
  | _ => none

/-- The invocation that is kept and has not been answered. -/
def Kept.owes (k : Kept) : Option Nat := if k.answered then none else some k.invocation

/-- One for what is there and none for what is not. -/
def tally (p : Prop) [Decidable p] : Nat := if p then 1 else 0

@[simp] theorem tally_true {p : Prop} [Decidable p] (h : p) : tally p = 1 := if_pos h

@[simp] theorem tally_false {p : Prop} [Decidable p] (h : ¬ p) : tally p = 0 := if_neg h

/-- Nothing is no obligation. -/
theorem tally_none {o : Option Nat} (h : o = none) (i : Nat) : tally (o = some i) = 0 :=
  tally_false fun hi => Option.some_ne_none i (hi.symm.trans h)

/-- The tally of what is found, or of nothing. -/
theorem getD_map_tally {α : Type} (o : Option α) (f : α → Option Nat) (i : Nat) :
    (o.map fun x => tally (f x = some i)).getD 0 = tally (o.bind f = some i) := by
  cases o with
  | none => exact (tally_none rfl i).symm
  | some x => rfl

theorem tally_le_one (p : Prop) [Decidable p] : tally p ≤ 1 := by
  unfold tally
  split <;> omega

namespace World

/-- The tasks and slots that hold the obligation to answer an invocation. -/
def owed (w : World) (i : Nat) : Nat :=
  w.tasks.weigh (fun x => tally (x.owes = some i)) + w.kept.weigh (fun k => tally (k.owes = some i))

/-- The replies that an invocation waits for: one, until it has it. -/
def awaited (w : World) (i : Nat) : Nat :=
  tally ((w.invocations.get? i).any (fun inv => inv.reply.isNone) = true)

/-- What an invocation waits for is owed by just one, the hand included. -/
def Owing (hand : Option Nat) (w : World) : Prop :=
  ∀ i, w.owed i + tally (hand = some i) = w.awaited i

variable {w w' : World} {hand : Option Nat}

/-- What is owed depends on the tasks, the slots and the invocations. -/
theorem Owing.congr (h : w.Owing hand) (htasks : w'.tasks = w.tasks) (hkept : w'.kept = w.kept)
    (hinvocations : w'.invocations = w.invocations) : w'.Owing hand := by
  intro i
  rw [owed, awaited, htasks, hkept, hinvocations]
  exact h i

theorem Owing.calm (h : w.Owing hand) (hc : w.Calm w') : w'.Owing hand := by
  intro i
  have hzero : ∀ b c, tally ((Task.deliver b c).owes = some i) = 0 := fun _ _ => tally_none rfl i
  rw [owed, awaited, hc.weigh_tasks hzero, hc.kept, hc.invocations]
  exact h i

/-- Waking tasks changes no obligation. -/
theorem Owing.wake (h : w.Owing hand) (p : Task → Bool) : (w.wake p).Owing hand :=
  h.calm (quiet_wake w p).toCalm

/-- An invocation whose obligation is in hand is there, and has no reply. -/
theorem Owing.inHand {i : Nat} (h : w.Owing (some i)) :
    ∃ inv, w.invocations.get? i = some inv ∧ inv.reply = none := by
  have hi := h i
  rw [tally_true rfl] at hi
  unfold awaited tally at hi
  split at hi
  · rename_i hany
    obtain ⟨inv, hinv, hr⟩ := (Option.any_eq_true _ _).mp hany
    exact ⟨inv, hinv, Option.isNone_iff_eq_none.mp hr⟩
  · omega

/-- The obligation in hand can be put into one place. -/
theorem owed_insertTask (w : World) (t : Nat) (x : Task) (i : Nat) :
    World.owed { w with tasks := w.tasks.insert t x } i
        + tally ((w.tasks.get? t).bind Task.owes = some i)
      = w.owed i + tally (x.owes = some i) := by
  have hsum := Table.weigh_insert (fun x => tally (x.owes = some i)) w.tasks t x
  rw [getD_map_tally] at hsum
  simp only [owed]
  omega

theorem owed_endTask (hw : w.Orderly) (t i : Nat) :
    (w.endTask t).owed i + tally ((w.tasks.get? t).bind Task.owes = some i) = w.owed i := by
  have hsum := Table.weigh_erase (fun x => tally (x.owes = some i)) hw.tasksDistinct t
  rw [getD_map_tally] at hsum
  simp only [owed, endTask]
  omega

theorem owed_insertKept (w : World) (slot : Nat) (k : Kept) (i : Nat) :
    World.owed { w with kept := w.kept.insert slot k } i
        + tally ((w.kept.get? slot).bind Kept.owes = some i)
      = w.owed i + tally (k.owes = some i) := by
  have hsum := Table.weigh_insert (fun k => tally (k.owes = some i)) w.kept slot k
  rw [getD_map_tally] at hsum
  simp only [owed]
  omega

/-- A task that holds the obligation takes it with it when it ends. -/
theorem Owing.endTask (h : w.Owing none) (hw : w.Orderly) {t : Nat} {x : Task}
    (ht : w.tasks.get? t = some x) : (w.endTask t).Owing x.owes := by
  intro i
  have hend := owed_endTask hw t i
  have hi := h i
  rw [ht, Option.bind_some] at hend
  rw [tally_none (by rfl)] at hi
  change (w.endTask t).owed i + tally (x.owes = some i) = w.awaited i
  omega

/-- A new task takes over what is in hand. -/
theorem Owing.spawn (hw : w.Orderly) {x : Task} (h : w.Owing x.owes) : (w.spawn x).Owing none := by
  intro i
  have hi := h i
  have hinsert := owed_insertTask w w.nextTask x i
  rw [hw.task_free (Nat.le_refl _), Option.bind_none, tally_none (by rfl)] at hinsert
  rw [tally_none (by rfl), spawn_eq]
  change World.owed { w with tasks := w.tasks.insert w.nextTask x } i + 0 = w.awaited i
  omega

/-- Putting one task without obligation in the place of another changes nothing. -/
theorem Owing.replaceTask (h : w.Owing hand) {t : Nat} {x y : Task} (ht : w.tasks.get? t = some x)
    (hx : x.owes = none) (hy : y.owes = none) :
    World.Owing hand { w with tasks := w.tasks.insert t y } := by
  intro i
  have hi := h i
  have hinsert := owed_insertTask w t y i
  rw [ht, Option.bind_some, hx, hy, tally_none (by rfl)] at hinsert
  change World.owed { w with tasks := w.tasks.insert t y } i + tally (hand = some i) = w.awaited i
  omega

/-- A new invocation is owed a reply by whoever opens it. -/
theorem Owing.invoke (h : w.Owing none) (hw : w.Orderly) (sender path interface member : String) :
    (w.invoke sender path interface member).1.Owing (some w.invocations.size) := by
  intro i
  have hi := h i
  rw [tally_none (by rfl)] at hi
  change w.owed i + _ = World.awaited _ i
  simp only [awaited, World.invoke, Table.get?_insert] at hi ⊢
  by_cases heq : w.invocations.size = i
  · subst heq
    rw [hw.invocationsBelow.get?_size, tally_false (by simp)] at hi
    rw [if_pos rfl, tally_true rfl, tally_true (by simp)]
    omega
  · rw [if_neg heq, tally_false (fun h => heq (Option.some.inj h))]
    exact hi

/-- **Giving the reply** discharges the obligation in hand. -/
theorem Owing.reply {i : Nat} (h : w.Owing (some i)) (r : Reply Container) :
    (w.reply i r).Owing none := by
  obtain ⟨inv, hinv, hnone⟩ := h.inHand
  have hset : World.Owing none
      { w with invocations := w.invocations.insert i { inv with reply := some r } } := by
    intro j
    have hj := h j
    rw [tally_none (by rfl)]
    change w.owed j + 0 = World.awaited _ j
    simp only [awaited, Table.get?_insert] at hj ⊢
    by_cases heq : i = j
    · subst heq
      have hone := tally_le_one ((w.invocations.get? i).any (fun inv => inv.reply.isNone) = true)
      rw [tally_true rfl] at hj
      rw [if_pos rfl, tally_false (by simp)]
      omega
    · rw [tally_false (fun h => heq (Option.some.inj h))] at hj
      rw [if_neg heq]
      exact hj
  unfold World.reply
  rw [hinv]
  simp only [hnone, Option.isSome_none, Bool.false_eq_true, if_false]
  exact hset.wake _

theorem Owing.conclude {i : Nat} (h : w.Owing (some i)) (a : Answer) :
    (w.conclude i a).Owing none := by
  obtain ⟨inv, hinv, -⟩ := h.inHand
  cases a with
  | reply r => exact h.reply r
  | drop =>
    rw [World.conclude, hinv]
    exact (h.calm (quiet_warn w _).toCalm).reply _

/-- A slot takes over what is in hand. -/
theorem Owing.keep {i : Nat} (h : w.Owing (some i)) (hw : w.Orderly) (args : List Value) :
    (w.keep i args).Owing none := by
  have hset : World.Owing none
      { w with
        kept := w.kept.insert w.kept.size { invocation := i, args, answered := false } } := by
    intro j
    have hj := h j
    have hinsert := owed_insertKept w w.kept.size { invocation := i, args, answered := false } j
    rw [hw.keptBelow.get?_size, Option.bind_none, tally_none (by rfl)] at hinsert
    have howes : Kept.owes { invocation := i, args, answered := false } = some i := rfl
    rw [howes] at hinsert
    rw [tally_none (by rfl)]
    change _ + 0 = w.awaited j
    omega
  unfold World.keep
  simp only
  split
  · exact hset.calm (calm_note _ rfl)
  · exact hset

theorem Owing.dispose {i : Nat} (h : w.Owing (some i)) (hw : w.Orderly) (args : List Value)
    (d : Disposal) : (w.dispose i args d).Owing none := by
  cases d with
  | keep => exact h.keep hw args
  | answer a => exact h.conclude a
  | answerAfter ms a => exact Owing.spawn hw h

/-- **A handler's call** discharges the obligation, or hands it on to just one. -/
theorem Owing.handle {object i : Nat} (h : w.Owing (some i)) (hw : w.Orderly)
    (ho : (w.objects.get? object).isSome) (member : String) (body : Container) :
    (w.handle object i member body).Owing none := by
  obtain ⟨o, ho⟩ := Option.isSome_iff_exists.mp ho
  have hnote : ∀ e, (w.note e).Owing (some i) := fun e => h.congr rfl rfl rfl
  unfold World.handle
  rw [ho]
  simp only
  split
  · exact (h.calm (quiet_warn w _).toCalm).reply _
  · exact ((hnote _).calm (quiet_warn _ _).toCalm).reply _
  · exact (hnote _).dispose (hw.note _) _ _

/-- A slot that is answered gives its obligation away. -/
theorem Owing.markAnswered (h : w.Owing none) {slot : Nat} {k : Kept}
    (hk : w.kept.get? slot = some k) (hopen : k.answered = false) :
    World.Owing (some k.invocation)
      { w with kept := w.kept.insert slot { k with answered := true } } := by
  intro j
  have hj := h j
  have hinsert := owed_insertKept w slot { k with answered := true } j
  have howes : k.owes = some k.invocation := by simp [Kept.owes, hopen]
  have hnone : Kept.owes { k with answered := true } = none := rfl
  rw [hk, Option.bind_some, howes, hnone, tally_none (o := none) rfl] at hinsert
  rw [tally_none (by rfl)] at hj
  change _ = w.awaited j
  omega

theorem Owing.answerKept (h : w.Owing none) {slot : Nat} {answer : List Value → Answer}
    (ha : w.answerKept slot answer = some w') : w'.Owing none := by
  unfold World.answerKept at ha
  split at ha
  · rename_i k hk
    split at ha
    · cases ha
    · rename_i hopen
      cases ha
      exact (h.markAnswered hk (Bool.eq_false_iff.mpr hopen)).conclude _
  · cases ha

/-! ## 2. Every move keeps the obligations -/

theorem Owing.fire (h : w.Owing none) (t : Token) : (w.fire t).Owing none := by
  unfold World.fire
  split
  · exact h
  · have hset : World.Owing none { w with fired := w.fired ++ [t] } := h.congr rfl rfl rfl
    exact hset.wake _

theorem Owing.foldl_fire (ts : List Token) {w : World} (h : w.Owing none) :
    (ts.foldl World.fire w).Owing none := by
  refine List.foldlRecOn ts World.fire h fun v hv t _ => ?_
  exact hv.fire t

theorem Owing.look (h : w.Owing none) (hw : w.Orderly) (r : Request) (p : Progress) :
    (w.look r p).1.Owing none := by
  rcases look_cases w r p with hq | ⟨b, me, object, -, -, -, hlook⟩
  · exact h.calm hq.toCalm
  · rw [hlook]
    exact Owing.spawn (hw.invoke _ _ _ _) (h.invoke hw _ _ _ _)

theorem Owing.runTask (h : w.Owing none) (hw : w.Orderly) {t : Nat} {x : Task}
    (ht : w.tasks.get? t = some x) : (w.runTask t x).Owing none := by
  have hend := h.endTask hw ht
  have hw' := hw.endTask t
  cases x with
  | deliver bus connection => exact h.calm (quiet_deliver w bus connection).toCalm
  | handle object i member body => exact hend.handle hw' (hw.known ht).1 member body
  | request r p =>
    have hlook : (w.look r p).1.Owing none := h.look hw r p
    have honward : w.Onward none (w.look r p).1 := onward_look hw r p
    have ht' := honward.keeps ht
    have hw'' := honward.orderly hw
    simp only [World.runTask]
    split <;> rename_i v o heq <;> rw [heq] at hlook ht' hw''
    · have hsettle := calm_settleRequest v t r.purpose o
      exact (hlook.calm hsettle).endTask (hsettle.orderly hw'') (hsettle.task ht')
    · exact hlook.replaceTask ht' rfl rfl
  | answer i a due =>
    simp only [World.runTask]
    split
    · exact hend.conclude a
    · exact h
  | fire token due =>
    simp only [World.runTask]
    split
    · exact hend.fire token
    · exact h
  | watch i =>
    simp only [World.runTask]
    split
    · exact hend.calm (calm_note _ rfl)
    · exact h

theorem Owing.callDirectly (h : w.Owing none) (hw : w.Orderly) {id : Nat} {o : Object}
    (ho : w.objects.get? id = some o) (sender path member : String) (body : Container) :
    (Session.callDirectly w id o sender path member body).1.Owing none := by
  have hw' := hw.invoke sender path o.interface.name member
  have hhandle := (h.invoke hw sender path o.interface.name member).handle hw'
    (Option.isSome_of_eq_some ho) member body
  exact Owing.spawn (hw'.handle id w.invocations.size member body) hhandle

/-- **Every move keeps the obligations**: what an invocation waits for is owed by just one. -/
theorem owing_act (hw : w.Orderly) (h : w.Owing none) (m : Move) : (w.act m).Owing none := by
  have he := effect_act hw m
  generalize w.act m = w' at he ⊢
  cases he with
  | calm _ hc => exact h.calm hc
  | spawn _ hc hx =>
    refine Owing.spawn (hc.orderly hw) ?_
    rcases hx with ⟨r, rfl⟩ | ⟨token, due, rfl⟩ <;> exact h.calm hc
  | fire _ tokens => exact Owing.foldl_fire tokens h
  | call ho sender path member body => exact h.callDirectly hw ho sender path member body
  | answer ha => exact h.answerKept ha
  | @poll t x ht =>
    have hready : (w.taken t).Owing none := h.congr rfl rfl rfl
    exact (hready.runTask (hw.taken t) ht).calm (quiet_closeUnheld _).toCalm
  | stale ht => exact h.congr rfl rfl rfl
  | pass ms =>
    have hset : World.Owing none { w with now := w.now + ms } := h.congr rfl rfl rfl
    exact hset.wake _

/-- Obligations are kept over a whole run. -/
theorem owing_run (ms : List Move) : (empty.run ms).Owing none := by
  have hboth : (empty.run ms).Orderly ∧ (empty.run ms).Owing none :=
    run_keeps (P := fun w => w.Orderly ∧ w.Owing none)
      (fun w m h => ⟨orderly_act h.1 m, owing_act h.1 h.2 m⟩) ms
      ⟨orderly_empty, fun i => rfl⟩
  exact hboth.2

end World

/-! ## 3. Handlers are called once -/

/-- The invocation for which the task is about to call a handler. -/
def Task.hands : Task → Option Nat
  | .handle _ i _ _ => some i
  | _ => none

namespace World

variable {w w' : World}

/-- The runs of handlers for an invocation, those that are about to come included. -/
def handled (w : World) (i : Nat) : Nat :=
  w.handlings.countP (fun e => decide (e.invocation = i))
    + w.tasks.weigh (fun x => tally (x.hands = some i))

/-- For an invocation at most one handler runs, and for one that is not there, none. -/
def HandledOnce (w : World) : Prop := ∀ i, w.handled i ≤ tally (i < w.invocations.size)

/-- No handler is called, now or later, that would not have been called. -/
structure SameHandled (w w' : World) : Prop where
  handled : ∀ i, w'.handled i = w.handled i
  size : w'.invocations.size = w.invocations.size

theorem SameHandled.refl (w : World) : w.SameHandled w := ⟨fun _ => rfl, rfl⟩

theorem SameHandled.trans {w'' : World} (h : w.SameHandled w') (h' : w'.SameHandled w'') :
    w.SameHandled w'' :=
  ⟨fun i => (h'.handled i).trans (h.handled i), h'.size.trans h.size⟩

theorem SameHandled.once (h : w.SameHandled w') (hw : w.HandledOnce) : w'.HandledOnce := by
  intro i
  rw [h.handled, h.size]
  exact hw i

theorem Calm.sameHandled (h : w.Calm w') : w.SameHandled w' where
  handled := by
    intro i
    have hzero : ∀ b c, tally ((Task.deliver b c).hands = some i) = 0 := fun _ _ => tally_none rfl i
    rw [World.handled, h.handlings, h.weigh_tasks hzero]
    rfl
  size := by rw [h.invocations]

theorem handled_insertTask (w : World) (t : Nat) (x : Task) (i : Nat) :
    World.handled { w with tasks := w.tasks.insert t x } i
        + tally ((w.tasks.get? t).bind Task.hands = some i)
      = w.handled i + tally (x.hands = some i) := by
  have hsum := Table.weigh_insert (fun x => tally (x.hands = some i)) w.tasks t x
  rw [getD_map_tally] at hsum
  simp only [handled, handlings]
  omega

theorem handled_spawn (hw : w.Orderly) (x : Task) (i : Nat) :
    (w.spawn x).handled i = w.handled i + tally (x.hands = some i) := by
  have hinsert := handled_insertTask w w.nextTask x i
  rw [hw.task_free (Nat.le_refl _), Option.bind_none, tally_none (by rfl)] at hinsert
  rw [spawn_eq]
  exact hinsert

theorem handled_endTask (hw : w.Orderly) {t : Nat} {x : Task} (ht : w.tasks.get? t = some x)
    (i : Nat) : (w.endTask t).handled i + tally (x.hands = some i) = w.handled i := by
  have hsum := Table.weigh_erase (fun x => tally (x.hands = some i)) hw.tasksDistinct t
  simp only [ht, Option.map_some, Option.getD_some] at hsum
  simp only [handled, handlings, endTask]
  omega

theorem sameHandled_reply (w : World) (i : Nat) (r : Reply Container) :
    w.SameHandled (w.reply i r) := by
  unfold reply
  split
  · rename_i inv hinv
    split
    · exact .refl w
    · have hset : w.SameHandled
          { w with invocations := w.invocations.insert i { inv with reply := some r } } :=
        ⟨fun _ => rfl, Table.size_replace hinv⟩
      exact hset.trans (quiet_wake _ _).toCalm.sameHandled
  · exact .refl w

theorem sameHandled_conclude (w : World) (i : Nat) (a : Answer) :
    w.SameHandled (w.conclude i a) := by
  unfold conclude
  split
  · exact sameHandled_reply w _ _
  · split
    · exact (quiet_warn w _).toCalm.sameHandled.trans (sameHandled_reply _ _ _)
    · exact .refl w

theorem sameHandled_dispose (hw : w.Orderly) (i : Nat) (args : List Value) (d : Disposal) :
    w.SameHandled (w.dispose i args d) := by
  cases d with
  | keep =>
    have hslot : w.SameHandled
        { w with kept := w.kept.insert w.kept.size { invocation := i, args, answered := false } } :=
      ⟨fun _ => rfl, rfl⟩
    unfold dispose keep
    simp only
    split
    · exact hslot.trans (calm_note _ rfl).sameHandled
    · exact hslot
  | answer a => exact sameHandled_conclude w i a
  | answerAfter ms a =>
    refine ⟨fun j => ?_, by rw [dispose, spawn_eq]⟩
    have hspawn := handled_spawn hw (.answer i a (w.now + ms)) j
    rwa [tally_none (by rfl)] at hspawn

theorem handled_note (w : World) (h : Handling) (i : Nat) :
    (w.note (.handled h.object h.invocation h.method h.args)).handled i
      = w.handled i + tally (h.invocation = i) := by
  have hlist : (w.note (.handled h.object h.invocation h.method h.args)).handlings
      = w.handlings ++ [h] := by
    simp [handlings, note, Event.handling?]
  have htally : List.countP (fun e => decide (e.invocation = i)) [h]
      = tally (h.invocation = i) := by
    simp [tally, List.countP_cons]
  rw [handled, hlist, List.countP_append, htally, handled]
  change _ + w.tasks.weigh _ = _
  omega

/-- A call to the handlers of an object runs at most one. -/
theorem handled_handle (hw : w.Orderly) (object i : Nat) (member : String) (body : Container) :
    (∀ j, (w.handle object i member body).handled j ≤ w.handled j + tally (i = j)) ∧
      (w.handle object i member body).invocations.size = w.invocations.size := by
  unfold handle
  split
  · exact ⟨fun j => Nat.le_add_right _ _, rfl⟩
  · split
    · rename_i e ws _
      have hrefuse := (quiet_warn w ws).toCalm.sameHandled.trans (sameHandled_reply _ i (.error e))
      exact ⟨fun j => by rw [hrefuse.handled]; exact Nat.le_add_right _ _, hrefuse.size⟩
    · rename_i o _ m handler args _
      have hreply := (quiet_warn (w.note (.handled object i m.name args))
        (replyOf m (handler args)).warnings).toCalm.sameHandled.trans
          (sameHandled_reply _ i (replyOf m (handler args)).result)
      refine ⟨fun j => ?_, hreply.size⟩
      rw [hreply.handled]
      exact Nat.le_of_eq (handled_note w ⟨object, i, m.name, args⟩ j)
    · rename_i o _ m handler args _
      have hw' := hw.note (.handled object i m.name args)
      have hdispose := sameHandled_dispose hw' i args (handler args)
      refine ⟨fun j => ?_, hdispose.size⟩
      rw [hdispose.handled]
      exact Nat.le_of_eq (handled_note w ⟨object, i, m.name, args⟩ j)

theorem sameHandled_answerKept {slot : Nat} {answer : List Value → Answer}
    (ha : w.answerKept slot answer = some w') : w.SameHandled w' := by
  unfold answerKept at ha
  split at ha
  · rename_i k hk
    split at ha
    · cases ha
    · cases ha
      have hslot : w.SameHandled
          { w with kept := w.kept.insert slot { k with answered := true } } :=
        ⟨fun _ => rfl, rfl⟩
      exact hslot.trans (sameHandled_conclude _ _ _)
  · cases ha

theorem sameHandled_fire (w : World) (t : Token) : w.SameHandled (w.fire t) := by
  unfold fire
  split
  · exact .refl w
  · have hset : w.SameHandled { w with fired := w.fired ++ [t] } := ⟨fun _ => rfl, rfl⟩
    exact hset.trans (quiet_wake _ _).toCalm.sameHandled

theorem sameHandled_foldl_fire (ts : List Token) (w : World) :
    w.SameHandled (ts.foldl fire w) := by
  refine List.foldlRecOn ts fire (.refl w) fun v h t _ => ?_
  exact h.trans (sameHandled_fire v t)

theorem sameHandled_endTask (hw : w.Orderly) {t : Nat} {x : Task} (ht : w.tasks.get? t = some x)
    (hx : x.hands = none) : w.SameHandled (w.endTask t) := by
  refine ⟨fun i => ?_, rfl⟩
  have hend := handled_endTask hw ht i
  rwa [hx, tally_none (by rfl)] at hend

/-- A new invocation has not been handled. -/
theorem handled_invoke (h : w.HandledOnce) (hw : w.Orderly)
    (sender path interface member : String) :
    (w.invoke sender path interface member).1.handled w.invocations.size = 0 ∧
      ∀ i, (w.invoke sender path interface member).1.handled i + tally (w.invocations.size = i)
        ≤ tally (i < (w.invoke sender path interface member).1.invocations.size) := by
  have hsize : (w.invoke sender path interface member).1.invocations.size
      = w.invocations.size + 1 := Table.size_insert_new hw.invocationsBelow.get?_size
  have hnew := h w.invocations.size
  rw [tally_false (Nat.lt_irrefl _)] at hnew
  refine ⟨Nat.le_zero.mp hnew, fun i => ?_⟩
  have hi := h i
  rw [hsize]
  change w.handled i + _ ≤ _
  by_cases heq : w.invocations.size = i
  · subst heq
    rw [tally_true rfl, tally_true (Nat.lt_succ_self _)]
    omega
  · rw [tally_false heq]
    by_cases hlt : i < w.invocations.size
    · rw [tally_true (Nat.lt_succ_of_lt hlt)]
      rw [tally_true hlt] at hi
      exact hi
    · rw [tally_false hlt] at hi
      omega

theorem handledOnce_look (h : w.HandledOnce) (hw : w.Orderly) (r : Request) (p : Progress) :
    (w.look r p).1.HandledOnce := by
  rcases look_cases w r p with hq | ⟨b, me, object, -, -, -, hlook⟩
  · exact hq.toCalm.sameHandled.once h
  · rw [hlook]
    intro i
    have hnew := (handled_invoke h hw me r.call.path r.call.interface r.call.member).2 i
    have hspawn := handled_spawn (hw.invoke me r.call.path r.call.interface r.call.member)
      (.handle object w.invocations.size r.call.member r.call.body) i
    change World.handled (World.spawn _ _) i ≤ _
    rw [hspawn]
    have hhands : (Task.handle object w.invocations.size r.call.member r.call.body).hands = some i
        ↔ w.invocations.size = i := by
      simp [Task.hands]
    simp only [tally, hhands] at hnew ⊢
    rw [handedTo_eq]
    exact hnew

theorem handledOnce_runTask (h : w.HandledOnce) (hw : w.Orderly) {t : Nat} {x : Task}
    (ht : w.tasks.get? t = some x) : (w.runTask t x).HandledOnce := by
  have hw' := hw.endTask t
  cases x with
  | deliver bus connection => exact (quiet_deliver w bus connection).toCalm.sameHandled.once h
  | handle object i member body =>
    intro j
    obtain ⟨hhandle, hsize⟩ := handled_handle hw' object i member body
    have hend := handled_endTask hw ht j
    have hj := hhandle j
    have hone := h j
    have hhands : (Task.handle object i member body).hands = some j ↔ i = j := by simp [Task.hands]
    simp only [tally, hhands] at hend hj
    simp only [runTask, tally, hsize]
    simp only [tally] at hone
    change _ ≤ if j < w.invocations.size then 1 else 0
    omega
  | request r p =>
    have hlook : (w.look r p).1.HandledOnce := handledOnce_look h hw r p
    have honward : w.Onward none (w.look r p).1 := onward_look hw r p
    have ht' := honward.keeps ht
    have hw'' := honward.orderly hw
    simp only [runTask]
    split <;> rename_i v o heq <;> rw [heq] at hlook ht' hw''
    · have hsettle := calm_settleRequest v t r.purpose o
      have hend := sameHandled_endTask (hsettle.orderly hw'') (hsettle.task ht') rfl
      exact (hsettle.sameHandled.trans hend).once hlook
    · have hsame : v.SameHandled { v with tasks := v.tasks.insert t (.request r o) } := by
        refine ⟨fun i => ?_, rfl⟩
        have hinsert := handled_insertTask v t (.request r o) i
        rw [ht', Option.bind_some] at hinsert
        exact Nat.add_right_cancel hinsert
      exact hsame.once hlook
  | answer i a due =>
    simp only [runTask]
    split
    · exact ((sameHandled_endTask hw ht rfl).trans (sameHandled_conclude _ i a)).once h
    · exact h
  | fire token due =>
    simp only [runTask]
    split
    · exact ((sameHandled_endTask hw ht rfl).trans (sameHandled_fire _ token)).once h
    · exact h
  | watch i =>
    simp only [runTask]
    split
    · exact ((sameHandled_endTask hw ht rfl).trans (calm_note _ rfl).sameHandled).once h
    · exact h

/-- **Every move calls a handler at most once** for an invocation. -/
theorem handledOnce_act (hw : w.Orderly) (h : w.HandledOnce) (m : Move) :
    (w.act m).HandledOnce := by
  have he := effect_act hw m
  generalize w.act m = w' at he ⊢
  cases he with
  | calm _ hc => exact hc.sameHandled.once h
  | @spawn _ v x _ hc hx =>
    intro i
    have hhands : x.hands = none := by rcases hx with ⟨r, rfl⟩ | ⟨token, due, rfl⟩ <;> rfl
    have hi := hc.sameHandled.once h i
    rw [handled_spawn (hc.orderly hw), hhands, tally_none (by rfl), spawn_eq]
    exact hi
  | fire _ tokens => exact (sameHandled_foldl_fire tokens w).once h
  | @call object o ho sender path member body =>
    intro i
    have hw' := hw.invoke sender path o.interface.name member
    obtain ⟨hhandle, hsize⟩ := handled_handle hw' object w.invocations.size member body
    have hw'' := hw'.handle object w.invocations.size member body
    have hnew := (handled_invoke h hw sender path o.interface.name member).2 i
    have hi := hhandle i
    rw [callDirectly_eq, handled_spawn hw'', tally_none (by rfl), spawn_eq, hsize]
    omega
  | answer ha => exact (sameHandled_answerKept ha).once h
  | @poll t x ht =>
    have hready : (w.taken t).HandledOnce := h
    exact (quiet_closeUnheld _).toCalm.sameHandled.once (handledOnce_runTask hready (hw.taken t) ht)
  | stale ht => exact h
  | pass ms =>
    have hset : World.HandledOnce { w with now := w.now + ms } := h
    exact (quiet_wake _ _).toCalm.sameHandled.once hset

/-- Handlers are called once over a whole run. -/
theorem handledOnce_run (ms : List Move) : (empty.run ms).HandledOnce := by
  have hboth : (empty.run ms).Orderly ∧ (empty.run ms).HandledOnce :=
    run_keeps (P := fun w => w.Orderly ∧ w.HandledOnce)
      (fun w m h => ⟨orderly_act h.1 m, handledOnce_act h.1 h.2 m⟩) ms
      ⟨orderly_empty, fun i => Nat.zero_le _⟩
  exact hboth.2

end World

end MessageBus
