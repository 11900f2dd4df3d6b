/-
# Which tokens fire

A token fires when somebody fires it, when a task fires it that was set for this time, and when the
pending calls of a proxy are cancelled that hold it; and in no other way.  `World.firings` reads the
tokens off a move, and `World.hasFired_run` says that they are all: the tokens that have fired in a
run are those that its moves have fired.

This matters for who may be told that a request was cancelled, since a request on a bus is told so
only when its own token has fired (`MessageBus.Proofs.Cancelling`).
-/
import MessageBus.Proofs.Serving
import MessageBus.Proofs.Untold

namespace MessageBus.World

variable {w w' : World}

/-! ## 1. What fires no token -/

theorem fired_spawn (w : World) (x : Task) : (w.spawn x).fired = w.fired := by rw [spawn_eq]

theorem fired_reply (w : World) (i : Nat) (r : Reply Container) :
    (w.reply i r).fired = w.fired := by
  unfold reply
  split
  · split
    · rfl
    · exact (quiet_wake _ _).fired
  · rfl

theorem fired_conclude (w : World) (i : Nat) (a : Answer) : (w.conclude i a).fired = w.fired := by
  unfold conclude
  split
  · exact fired_reply w i _
  · split
    · exact (fired_reply _ i _).trans (quiet_warn w _).fired
    · rfl

theorem fired_dispose (w : World) (i : Nat) (args : List Value) (d : Disposal) :
    (w.dispose i args d).fired = w.fired := by
  cases d with
  | keep =>
    simp only [dispose, keep]
    split <;> rfl
  | answer a => exact fired_conclude w i a
  | answerAfter ms a => exact fired_spawn w _

theorem fired_handle (w : World) (object i : Nat) (member : String) (body : Container) :
    (w.handle object i member body).fired = w.fired := by
  unfold handle
  split
  · rfl
  · split
    · exact (fired_reply _ _ _).trans (quiet_warn w _).fired
    · exact (fired_reply _ _ _).trans (quiet_warn _ _).fired
    · exact fired_dispose _ _ _ _

theorem fired_look (w : World) (r : Request) (p : Progress) : (w.look r p).1.fired = w.fired := by
  rcases look_cases w r p with hquiet | ⟨b, me, object, -, -, -, hlook⟩
  · exact hquiet.fired
  · rw [hlook, handedTo_eq]

theorem fired_answerKept {slot : Nat} {answer : List Value → Answer}
    (h : w.answerKept slot answer = some w') : w'.fired = w.fired := by
  unfold answerKept at h
  split at h
  · split at h
    · cases h
    · cases h
      exact fired_conclude _ _ _
  · cases h

theorem fired_withProxy {id : Nat} {f : Proxy → World}
    (hf : ∀ p, w.proxies.get? id = some p → (f p).fired = w.fired) :
    (w.withProxy id f).fired = w.fired := by
  unfold withProxy
  cases hp : w.proxies.get? id with
  | none => rfl
  | some p => exact hf p hp

/-! ## 2. What fires one -/

/-- The tokens that a move fires, some of which may have fired before. -/
def firings (w : World) : Move → List Token
  | .fire s => [s]
  | .cancelPending id => (w.proxies.get? id).elim [] Proxy.pendingTokens
  | .poll t =>
    match w.tasks.get? t with
    | some (.fire s due) => if due ≤ w.now then [s] else []
    | _ => []
  | _ => []

/-- Firing tokens wakes tasks, and does nothing else. -/
theorem fire_eq (w : World) (s : Token) :
    w.fire s = { w with fired := (w.fire s).fired, ready := (w.fire s).ready } := by
  unfold fire
  split
  · rfl
  · rw [wake_eq]

theorem foldl_fire_eq (ts : List Token) (w : World) :
    ts.foldl fire w
      = { w with fired := (ts.foldl fire w).fired, ready := (ts.foldl fire w).ready } := by
  induction ts generalizing w with
  | nil => rfl
  | cons s ts ih =>
    rw [List.foldl_cons, ih (w.fire s), fire_eq w s]

/-- After some tokens have been fired, these have fired, and those that had before. -/
theorem hasFired_foldl_fire (ts : List Token) (w : World) (s : Token) :
    (ts.foldl fire w).hasFired s = true ↔ w.hasFired s = true ∨ s ∈ ts := by
  induction ts generalizing w with
  | nil => simp
  | cons t ts ih =>
    rw [List.foldl_cons, ih, hasFired_fire, Bool.or_eq_true, decide_eq_true_eq, List.mem_cons,
      or_assoc]

/-- A task that is run fires its token, if it is one that does and its time has come. -/
theorem hasFired_runTask (w : World) (t : Nat) (x : Task) (s : Token) :
    (w.runTask t x).hasFired s = true ↔
      w.hasFired s = true ∨ ∃ due, x = .fire s due ∧ due ≤ w.now := by
  have hsame : ∀ {v : World}, (∀ u due, x ≠ .fire u due) → v.fired = w.fired →
      (v.hasFired s = true ↔ w.hasFired s = true ∨ ∃ due, x = .fire s due ∧ due ≤ w.now) := by
    intro v hx hv
    rw [hasFired, hv]
    refine ⟨Or.inl, fun h => h.resolve_right ?_⟩
    rintro ⟨due, heq, -⟩
    exact hx s due heq
  cases x with
  | deliver b c => exact hsame (fun _ _ h => by cases h) (quiet_deliver w b c).fired
  | handle object i member body =>
    exact hsame (fun _ _ h => by cases h) (fired_handle (w.endTask t) object i member body)
  | request r p =>
    have hlook := fired_look w r p
    refine hsame (fun _ _ h => by cases h) ?_
    simp only [runTask]
    split <;> rename_i heq <;> rw [heq] at hlook
    · exact (calm_settleRequest _ _ _ _).fired.trans hlook
    · exact hlook
  | answer i a due =>
    refine hsame (fun _ _ h => by cases h) ?_
    simp only [runTask]
    split
    · exact fired_conclude _ _ _
    · rfl
  | fire u due =>
    simp only [runTask, Task.fire.injEq]
    split
    · rename_i hdue
      rw [hasFired_fire, Bool.or_eq_true, decide_eq_true_eq]
      refine or_congr Iff.rfl ⟨fun h => ⟨due, ⟨h.symm, rfl⟩, hdue⟩, ?_⟩
      rintro ⟨_, ⟨rfl, -⟩, -⟩
      rfl
    · rename_i hdue
      refine ⟨Or.inl, fun h => h.resolve_right ?_⟩
      rintro ⟨_, ⟨-, rfl⟩, hle⟩
      exact hdue hle
  | watch i =>
    refine hsame (fun _ _ h => by cases h) ?_
    simp only [runTask]
    split <;> rfl

/-- **A move fires just its tokens.** -/
theorem hasFired_act (hw : w.Orderly) (m : Move) (s : Token) :
    (w.act m).hasFired s = true ↔ w.hasFired s = true ∨ s ∈ firings w m := by
  have hnone : firings w m = [] → (w.act m).fired = w.fired →
      ((w.act m).hasFired s = true ↔ w.hasFired s = true ∨ s ∈ firings w m) := by
    intro hm hfired
    rw [hm, hasFired, hfired]
    simp [hasFired]
  cases m with
  | arrange a => exact hnone rfl (quiet_arrange hw a).fired
  | callAsync id m args =>
    refine hnone rfl (fired_withProxy fun p _ => ?_)
    unfold callMethodAsync
    split
    · rfl
    · exact fired_spawn _ _
  | setProperty id name v =>
    refine hnone rfl (fired_withProxy fun p _ => ?_)
    unfold setProperty
    split
    · rfl
    · exact fired_spawn _ _
  | ask r => exact hnone rfl (fired_spawn w _)
  | takeOutcome t => exact hnone rfl rfl
  | endGet id name t =>
    refine hnone rfl ?_
    simp only [act]
    split
    · rename_i reply _
      exact fired_withProxy (w := w.dropOutcome t) fun p _ => rfl
    · rfl
  | endInit id t =>
    refine hnone rfl ?_
    simp only [act]
    split
    · exact fired_withProxy (w := w.dropOutcome t) fun p _ => rfl
    · rfl
  | cancelPending id =>
    simp only [act, withProxy, firings]
    cases w.proxies.get? id with
    | none => simp
    | some p => exact hasFired_foldl_fire p.pendingTokens w s
  | call object sender path member body =>
    refine hnone rfl ?_
    simp only [act, withObject]
    cases w.objects.get? object with
    | none => rfl
    | some o =>
      rw [Option.elim_some, callDirectly_eq]
      exact (fired_spawn _ _).trans (fired_handle _ _ _ _ _)
  | answer slot answer =>
    refine hnone rfl ?_
    simp only [act]
    cases ha : w.answerKept slot answer with
    | none => rfl
    | some v => exact fired_answerKept ha
  | fire u => exact hasFired_foldl_fire [u] w s
  | fireAfter u ms => exact hnone rfl (fired_spawn w _)
  | poll t =>
    cases ht : w.tasks.get? t with
    | none =>
      refine hnone ?_ ?_
      · simp only [firings, ht]
      · simp only [act, poll, ht]
    | some x =>
      rw [act_poll ht, (quiet_closeUnheld _).hasFired, hasFired_runTask]
      refine or_congr Iff.rfl ?_
      simp only [firings, ht]
      cases x with
      | fire u due =>
        simp only [Task.fire.injEq]
        split
        · rename_i hdue
          rw [List.mem_singleton]
          constructor
          · rintro ⟨_, ⟨rfl, -⟩, -⟩
            rfl
          · rintro rfl
            exact ⟨due, ⟨rfl, rfl⟩, hdue⟩
        · rename_i hdue
          refine ⟨?_, fun h => by cases h⟩
          rintro ⟨_, ⟨-, rfl⟩, hle⟩
          exact absurd hle hdue
      | _ => simp
  | pass ms => exact hnone rfl (quiet_wake _ _).fired

/-- **The tokens that have fired in a run** are those that its moves have fired. -/
theorem hasFired_run (ms : List Move) {w : World} (hw : w.Orderly) (s : Token) :
    (w.run ms).hasFired s = true ↔ w.hasFired s = true ∨ s ∈ observe firings w ms := by
  induction ms generalizing w with
  | nil => simp
  | cons m ms ih =>
    rw [run_cons, ih (orderly_act hw m), hasFired_act hw m, observe_cons, List.mem_append, or_assoc]

end MessageBus.World
