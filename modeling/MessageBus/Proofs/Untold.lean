/-
# Who is told what

A call that somebody makes is told of in one of two ways: its outcome goes to the completion that
was given with it, or it is laid by for the one who waits for it.  Nearly everything that happens
tells nobody anything.  A change of this sort is UNTOLD (`World.Untold`): the outcomes that are laid
by stay, no completion is given anything, each proxy knows of its calls what it knew, and the same
tasks make the calls of proxies as before.

Quiet changes are untold, and so are the changes that serve an invocation.  What is left is the poll
that settles a request, and a submission (`MessageBus.Proofs.Ledger`).
-/
import MessageBus.Proofs.Settling

namespace MessageBus

/-- The event is that a completion was given an outcome. -/
def Event.isTold : Event → Bool
  | .replied .. | .finished .. => true
  | _ => false

theorem Event.isTold_of_ofCall {e : Event} (h : e.ofCall = false) : e.isTold = false := by
  cases e <;> first | rfl | cases h

/-- The proxy and the number of the call that is completed. -/
def Purpose.key? : Purpose → Option (Nat × Nat)
  | .complete id number => some (id, number)
  | _ => none

/-- The request, if the task makes an asynchronous call of a proxy. -/
def Task.call? : Task → Option Request
  | .request r _ => if r.purpose.key?.isSome then some r else none
  | _ => none

theorem Task.call?_request {r : Request} {k : Nat × Nat} (hr : r.purpose.key? = some k)
    (p : Progress) : (Task.request r p).call? = some r := by
  rw [Task.call?, hr]
  rfl

theorem Task.call?_eq_some {x : Task} {r : Request} (h : x.call? = some r) :
    ∃ p k, x = .request r p ∧ r.purpose.key? = some k := by
  cases x with
  | request s p =>
    rw [Task.call?] at h
    split at h
    · rename_i hs
      cases h
      obtain ⟨k, hk⟩ := Option.isSome_iff_exists.mp hs
      exact ⟨p, k, rfl, hk⟩
    · cases h
  | _ => cases h

namespace World

/-- What completions have been given, in order. -/
def told (w : World) : List Event := w.journal.filter (·.isTold)

/-- The asynchronous call that the task `t` makes. -/
def calling (w : World) (t : Nat) : Option Request := (w.tasks.get? t).bind Task.call?

/-- Nobody is told anything, and the calls of proxies stay as they are. -/
structure Untold (w w' : World) : Prop where
  outcomes : w'.outcomes = w.outcomes
  caller : ∀ {id c}, w.caller? id = some c → w'.caller? id = some c
  newCaller : ∀ {id c}, w'.caller? id = some c →
    w.caller? id = some c ∨ w.caller? id = none ∧ c.Fresh
  calling : ∀ t, w'.calling t = w.calling t
  told : w'.told = w.told

variable {w w' w'' : World}

theorem Untold.refl (w : World) : w.Untold w where
  outcomes := rfl
  caller := id
  newCaller := Or.inl
  calling := fun _ => rfl
  told := rfl

theorem Untold.trans (h : w.Untold w') (h' : w'.Untold w'') : w.Untold w'' where
  outcomes := h'.outcomes.trans h.outcomes
  caller := fun hc => h'.caller (h.caller hc)
  newCaller := by
    intro id c hc
    rcases h'.newCaller hc with hc | ⟨hnone, hfresh⟩
    · exact h.newCaller hc
    · refine Or.inr ⟨?_, hfresh⟩
      cases hold : w.caller? id with
      | none => rfl
      | some d =>
        rw [h.caller hold] at hnone
        cases hnone
  calling := fun t => (h'.calling t).trans (h.calling t)
  told := h'.told.trans h.told

theorem Quiet.untold (h : w.Quiet w') : w.Untold w' where
  outcomes := h.outcomes
  caller := h.caller
  newCaller := h.newCaller
  calling := by
    intro t
    cases hnew : w'.tasks.get? t with
    | none =>
      cases hold : w.tasks.get? t with
      | none => rw [World.calling, World.calling, hnew, hold]
      | some x =>
        rw [h.task hold] at hnew
        cases hnew
    | some x =>
      rcases h.newTask hnew with hold | ⟨-, b, c, rfl⟩
      · rw [World.calling, World.calling, hnew, hold]
      · cases hold : w.tasks.get? t with
        | none => rw [World.calling, World.calling, hnew, hold]; rfl
        | some y =>
          rw [World.calling, World.calling, h.task hold, hold]
  told := by
    obtain ⟨es, he, hes⟩ := h.silent
    have hnone : es.filter (·.isTold) = [] := List.filter_eq_nil_iff.mpr fun e hmem => by
      rw [Event.isTold_of_ofCall (hes e hmem)]
      exact Bool.false_ne_true
    rw [World.told, he, List.filter_append, hnone, List.append_nil]
    rfl

/-! ## 1. Tasks come and go -/

theorem untold_note (w : World) {e : Event} (he : e.isTold = false) : w.Untold (w.note e) :=
  { Untold.refl w with
    told := by
      have hnone : List.filter (·.isTold) [e] = [] := by simp [he]
      rw [told, note, List.filter_append, hnone, List.append_nil]
      rfl }

/-- A new task may be anything but a call of a proxy. -/
theorem untold_spawn (hw : w.Orderly) {x : Task} (hx : x.call? = none) : w.Untold (w.spawn x) := by
  rw [spawn_eq]
  exact
    { Untold.refl w with
      calling := fun t => by
        simp only [calling, Table.get?_insert]
        split
        · rename_i heq
          subst heq
          rw [hw.task_free (Nat.le_refl _), Option.bind_some, hx]
          rfl
        · rfl }

theorem untold_endTask {t : Nat} {x : Task} (ht : w.tasks.get? t = some x) (hx : x.call? = none) :
    w.Untold (w.endTask t) :=
  { Untold.refl w with
    calling := fun s => by
      simp only [calling, endTask, Table.get?_erase]
      split
      · rename_i heq
        subst heq
        rw [ht, Option.bind_some, hx]
        rfl
      · rfl }

/-- A request may get further. -/
theorem untold_progress {t : Nat} {r : Request} {p : Progress}
    (ht : w.tasks.get? t = some (.request r p)) (q : Progress) :
    w.Untold { w with tasks := w.tasks.insert t (.request r q) } :=
  { Untold.refl w with
    calling := fun s => by
      simp only [calling, Table.get?_insert]
      split
      · rename_i heq
        subst heq
        rw [ht]
        rfl
      · rfl }

/-! ## 2. Serving an invocation -/

theorem untold_reply (w : World) (i : Nat) (r : Reply Container) : w.Untold (w.reply i r) := by
  unfold reply
  split
  · rename_i inv _
    split
    · exact .refl w
    · have hset : w.Untold
          { w with invocations := w.invocations.insert i { inv with reply := some r } } :=
            { Untold.refl w with }
      exact hset.trans (quiet_wake _ _).untold
  · exact .refl w

theorem untold_conclude (w : World) (i : Nat) (a : Answer) : w.Untold (w.conclude i a) := by
  unfold conclude
  split
  · exact untold_reply w i _
  · split
    · exact (quiet_warn w _).untold.trans (untold_reply _ i _)
    · exact .refl w

theorem untold_dispose (hw : w.Orderly) (i : Nat) (args : List Value) (d : Disposal) :
    w.Untold (w.dispose i args d) := by
  cases d with
  | keep =>
    have hslot : w.Untold
        { w with kept := w.kept.insert w.kept.size { invocation := i, args, answered := false } } :=
          { Untold.refl w with }
    unfold dispose keep
    simp only
    split
    · exact hslot.trans (untold_note _ rfl)
    · exact hslot
  | answer a => exact untold_conclude w i a
  | answerAfter ms a => exact untold_spawn hw rfl

theorem untold_handle (hw : w.Orderly) (object i : Nat) (member : String) (body : Container) :
    w.Untold (w.handle object i member body) := by
  unfold handle
  split
  · exact .refl w
  · split
    · exact (quiet_warn w _).untold.trans (untold_reply _ i _)
    · exact (untold_note w rfl).trans ((quiet_warn _ _).untold.trans (untold_reply _ i _))
    · exact (untold_note w rfl).trans (untold_dispose (hw.note _) i _ _)

theorem untold_answerKept {slot : Nat} {answer : List Value → Answer}
    (ha : w.answerKept slot answer = some w') : w.Untold w' := by
  unfold answerKept at ha
  split at ha
  · rename_i k _
    split at ha
    · cases ha
    · cases ha
      have hslot : w.Untold { w with kept := w.kept.insert slot { k with answered := true } } :=
        { Untold.refl w with }
      exact hslot.trans (untold_conclude _ _ _)
  · cases ha

theorem untold_fire (w : World) (t : Token) : w.Untold (w.fire t) := by
  unfold fire
  split
  · exact .refl w
  · have hset : w.Untold { w with fired := w.fired ++ [t] } := { Untold.refl w with }
    exact hset.trans (quiet_wake _ _).untold

theorem untold_foldl_fire (ts : List Token) (w : World) : w.Untold (ts.foldl fire w) := by
  refine List.foldlRecOn ts fire (.refl w) fun v h t _ => ?_
  exact h.trans (untold_fire v t)

theorem untold_moveTo (w : World) (t : Nat) : w.Untold (w.moveTo t) := by
  have hset : w.Untold { w with now := t } := { Untold.refl w with }
  exact hset.trans (quiet_wake _ _).untold

/-- Handing a request over tells nobody anything, nor does looking at one. -/
theorem untold_look (hw : w.Orderly) (r : Request) (p : Progress) : w.Untold (w.look r p).1 := by
  rcases look_cases w r p with hq | ⟨b, me, object, -, -, -, hlook⟩
  · exact hq.untold
  · have hinvoke : w.Untold (w.invoke me r.call.path r.call.interface r.call.member).1 :=
    { Untold.refl w with }
    rw [hlook]
    exact hinvoke.trans (untold_spawn (hw.invoke _ _ _ _) rfl)

/-! ## 3. Polls -/

/-- A poll that does not settle a request tells nobody anything. -/
theorem untold_poll (hw : w.Orderly) {t : Nat} (ho : w.outcomeOf t = none) :
    w.Untold (w.act (.poll t)) := by
  have htaken : w.Untold (w.taken t) := { Untold.refl w with }
  have hw' := hw.taken t
  cases ht : w.tasks.get? t with
  | none =>
    simp only [act, poll, ht]
    exact htaken
  | some x =>
    have ht' : (w.taken t).tasks.get? t = some x := ht
    have hend : ∀ {v : World}, x.call? = none → ((w.taken t).endTask t).Untold v →
        w.Untold (World.closeUnheld v) := fun hx hv =>
      ((htaken.trans (untold_endTask ht' hx)).trans hv).trans (quiet_closeUnheld _).untold
    have hstay : w.Untold (World.closeUnheld (w.taken t)) :=
      htaken.trans (quiet_closeUnheld _).untold
    cases x with
    | request r p =>
      cases hl : ((w.taken t).look r p).2 with
      | inl o =>
        rw [outcomeOf_eq_some.mpr ⟨r, p, ht, hl⟩] at ho
        cases ho
      | inr q =>
        have hlook : (w.taken t).Onward none ((w.taken t).look r p).1 := onward_look hw' r p
        rw [act_wait ht hl]
        exact ((htaken.trans (untold_look hw' r p)).trans
          (untold_progress (hlook.keeps ht') q)).trans (quiet_closeUnheld _).untold
    | deliver bus connection =>
      rw [act_poll ht]
      exact (htaken.trans (quiet_deliver _ bus connection).untold).trans
        (quiet_closeUnheld _).untold
    | handle object i member body =>
      rw [act_poll ht]
      exact hend rfl (untold_handle (hw'.endTask t) object i member body)
    | answer i a due =>
      rw [act_poll ht]
      simp only [runTask]
      split
      · exact hend rfl (untold_conclude _ i a)
      · exact hstay
    | fire token due =>
      rw [act_poll ht]
      simp only [runTask]
      split
      · exact hend rfl (untold_fire _ token)
      · exact hstay
    | watch i =>
      rw [act_poll ht]
      simp only [runTask]
      split
      · exact hend rfl (untold_note _ rfl)
      · exact hstay

end World

end MessageBus
