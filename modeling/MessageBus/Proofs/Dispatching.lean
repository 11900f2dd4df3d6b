/-
# Every inbound call gets exactly one reply

What a call to the handlers of an object leads to is `World.Dispatched`, which lists the cases of a
dispatch one by one: which error the caller is told of when no handler can be called, and what an
answer, an error or a dropped invocation comes to when one is.

The main result, `World.inbound_exactly_once`, puts this together with the two counts of
`MessageBus.Proofs.Obligations`: whatever the order of moves, an invocation without a reply is owed
one by just one holder, and one with a reply by none.
-/
import MessageBus.Proofs.Obligations

namespace MessageBus

/-! ## 1. What a call to the handlers of an object leads to -/

/-- What an answer is to the invocation of a member. -/
def Answer.replyFor (member : String) : Answer → Reply Container
  | .reply r => r
  | .drop => .error (.noReply member)

namespace World

variable {w w' w'' : World}

/-- What becomes of an invocation that an asynchronous handler disposes of in `w`. -/
def Disposed (w w' : World) (i : Nat) (member : String) (args : List Value) : Disposal → Prop
  | .keep =>
    w'.replyTo i = none ∧
      w'.kept.get? w.kept.size = some { invocation := i, args, answered := false }
  | .answer a => w'.replyTo i = some (a.replyFor member)
  | .answerAfter ms a =>
    w'.replyTo i = none ∧ ∃ t, w'.tasks.get? t = some (.answer i a (w.now + ms))

/-- What a call of `member` with a body, for the invocation `i`, to an object with the handlers `o`
leads from `w` to. -/
structure Dispatched (w w' : World) (o : Handlers) (object i : Nat) (member : String)
    (body : Container) : Prop where
  undeclared : o.interface.method? member = none →
    w'.handlings = w.handlings ∧ w'.replyTo i = some (.error (.unknownMethod member))
  /-- Whether there is a handler is not looked at. -/
  mistyped : ∀ {m}, o.interface.method? member = some m → body.tags ≠ m.input →
    w'.handlings = w.handlings ∧
      w'.replyTo i = some (.error (.invalidArgs
        (s!"Type of message, '{body.signature}', does not match " ++
          s!"expected type '{Tag.tuple m.input}'")))
  unhandled : ∀ {m}, o.interface.method? member = some m → body.tags = m.input →
    o.sync.get? m.name = none → o.async.get? m.name = none →
    w'.handlings = w.handlings ∧ w'.replyTo i = some (.error (.unknownMethod member))
  /-- Whether there is an asynchronous handler, too, is not looked at. -/
  sync : ∀ {m f}, o.interface.method? member = some m → body.tags = m.input →
    o.sync.get? m.name = some f →
    w'.handlings = w.handlings ++ [⟨object, i, m.name, body.values⟩] ∧
      (∀ {r}, f body.values = .ok r → w'.replyTo i = some (packReturn m r).result) ∧
      (∀ {e}, f body.values = .error e → w'.replyTo i = some (.error (.ofHandler e)))
  async : ∀ {m f}, o.interface.method? member = some m → body.tags = m.input →
    o.sync.get? m.name = none → o.async.get? m.name = some f →
    w'.handlings = w.handlings ++ [⟨object, i, m.name, body.values⟩] ∧
      w.Disposed w' i member body.values (f body.values)

/-- A dispatch is not undone by what leaves handlings, invocations and slots alone and ends no
task. -/
theorem Dispatched.after {o : Handlers} {object i : Nat} {member : String} {body : Container}
    (h : w.Dispatched w' o object i member body) (hhandlings : w''.handlings = w'.handlings)
    (hinvocations : w''.invocations = w'.invocations) (hkept : w''.kept = w'.kept)
    (htasks : ∀ {t x}, w'.tasks.get? t = some x → w''.tasks.get? t = some x) :
    w.Dispatched w'' o object i member body := by
  have hreply : w''.replyTo i = w'.replyTo i := by rw [replyTo, hinvocations, replyTo]
  constructor
  · rw [hhandlings, hreply]
    exact h.undeclared
  · rw [hhandlings, hreply]
    exact h.mistyped
  · rw [hhandlings, hreply]
    exact h.unhandled
  · rw [hhandlings, hreply]
    exact h.sync
  · intro m f hm ht hs ha
    obtain ⟨hh, hd⟩ := h.async hm ht hs ha
    refine ⟨hhandlings.trans hh, ?_⟩
    cases hf : f body.values with
    | keep =>
      rw [hf] at hd
      exact ⟨hreply.trans hd.1, by rw [hkept]; exact hd.2⟩
    | answer a =>
      rw [hf] at hd
      exact hreply.trans hd
    | answerAfter ms a =>
      rw [hf] at hd
      obtain ⟨hnone, t, ht⟩ := hd
      exact ⟨hreply.trans hnone, t, htasks ht⟩

/-- Giving the reply that is owed. -/
theorem replyTo_reply {i : Nat} {inv : Invocation} (hinv : w.invocations.get? i = some inv)
    (hnone : inv.reply = none) (r : Reply Container) : (w.reply i r).replyTo i = some r := by
  unfold reply
  rw [hinv]
  simp only [hnone, Option.isSome_none, Bool.false_eq_true, if_false]
  rw [(quiet_wake _ _).replyTo, replyTo, Table.get?_insert_self, Option.bind_some]

theorem replyTo_conclude {i : Nat} {inv : Invocation} (hinv : w.invocations.get? i = some inv)
    (hnone : inv.reply = none) (a : Answer) :
    (w.conclude i a).replyTo i = some (a.replyFor inv.member) := by
  cases a with
  | reply r => exact replyTo_reply hinv hnone r
  | drop =>
    rw [conclude, hinv]
    exact replyTo_reply (w := w.warn _) hinv hnone _

theorem handlings_reply (w : World) (i : Nat) (r : Reply Container) :
    (w.reply i r).handlings = w.handlings := by
  unfold reply
  split
  · split
    · rfl
    · rw [(quiet_wake _ _).handlings]
      rfl
  · rfl

theorem handlings_conclude (w : World) (i : Nat) (a : Answer) :
    (w.conclude i a).handlings = w.handlings := by
  unfold conclude
  split
  · exact handlings_reply w i _
  · split
    · exact handlings_reply _ i _
    · rfl

theorem handlings_dispose (w : World) (i : Nat) (args : List Value) (d : Disposal) :
    (w.dispose i args d).handlings = w.handlings := by
  cases d with
  | keep =>
    unfold dispose keep
    simp only
    split
    · exact (calm_note _ rfl).handlings
    · rfl
  | answer a => exact handlings_conclude w i a
  | answerAfter ms a =>
    rw [dispose, spawn_eq]
    rfl

theorem handlings_answerKept {slot : Nat} {answer : List Value → Answer}
    (ha : w.answerKept slot answer = some w') : w'.handlings = w.handlings := by
  unfold answerKept at ha
  split at ha
  · split at ha
    · cases ha
    · cases ha
      exact handlings_conclude _ _ _
  · cases ha

theorem handlings_fire (w : World) (t : Token) : (w.fire t).handlings = w.handlings := by
  unfold fire
  split
  · rfl
  · exact (quiet_wake _ _).handlings

theorem handlings_foldl_fire (ts : List Token) (w : World) :
    (ts.foldl fire w).handlings = w.handlings :=
  foldl_same handlings handlings_fire ts w

theorem handlings_look (w : World) (r : Request) (p : Progress) :
    (w.look r p).1.handlings = w.handlings := by
  rcases look_cases w r p with hq | ⟨b, me, object, -, -, -, hlook⟩
  · exact hq.handlings
  · rw [hlook, handedTo_eq]
    rfl

/-- Only a task that calls a handler runs one. -/
theorem handlings_runTask {t : Nat} {x : Task} (hx : x.hands = none) :
    (w.runTask t x).handlings = w.handlings := by
  cases x with
  | deliver bus connection => exact (quiet_deliver w bus connection).handlings
  | handle object i member body => cases hx
  | request r p =>
    have hlook : (w.look r p).1.handlings = w.handlings := handlings_look w r p
    simp only [runTask]
    split <;> rename_i v o heq <;> rw [heq] at hlook
    · exact (calm_settleRequest v t r.purpose o).handlings.trans hlook
    · exact hlook
  | answer i a due =>
    simp only [runTask]
    split
    · exact handlings_conclude _ _ _
    · rfl
  | fire token due =>
    simp only [runTask]
    split
    · exact handlings_fire _ _
    · rfl
  | watch i =>
    simp only [runTask]
    split
    · exact (calm_note _ rfl).handlings
    · rfl

theorem disposed_dispose {i : Nat} {inv : Invocation} (hinv : w.invocations.get? i = some inv)
    (hnone : inv.reply = none) (args : List Value) (d : Disposal) :
    w.Disposed (w.dispose i args d) i inv.member args d := by
  have hreply : w.replyTo i = none := by rw [replyTo, hinv, Option.bind_some, hnone]
  cases d with
  | keep =>
    unfold dispose keep
    simp only [hinv]
    exact ⟨hreply, Table.get?_insert_self _ _ _⟩
  | answer a => exact replyTo_conclude hinv hnone a
  | answerAfter ms a =>
    have htask : (w.dispose i args (.answerAfter ms a)).tasks.get? w.nextTask
        = some (.answer i a (w.now + ms)) := by
      rw [dispose, spawn_eq]
      exact Table.get?_insert_self _ _ _
    refine ⟨?_, w.nextTask, htask⟩
    rw [dispose, spawn_eq]
    exact hreply

/-- **Dispatch.** A call to the handlers of an object, for an invocation that is there and has no
reply. -/
theorem dispatched_handle {object i : Nat} {o : Object} {inv : Invocation}
    (ho : w.objects.get? object = some o) (hinv : w.invocations.get? i = some inv)
    (hnone : inv.reply = none) (body : Container) :
    w.Dispatched (w.handle object i inv.member body) o.handlers object i inv.member body := by
  have hrefuse : ∀ e ws, o.service.dispatch o.interface inv.member body = .refuse e ws →
      (w.handle object i inv.member body).handlings = w.handlings ∧
        (w.handle object i inv.member body).replyTo i = some (.error e) := by
    intro e ws hd
    simp only [handle, ho, hd]
    exact ⟨handlings_reply _ _ _, replyTo_reply (w := w.warn ws) hinv hnone _⟩
  have htyped : ∀ {m : Method}, body.tags = m.input → body.unpackAs m.input = .ok body.values :=
    fun ht => if_pos ht
  constructor
  · intro hm
    have hm : o.interface.method? inv.member = none := hm
    exact hrefuse _ [.missingHandler inv.member] (by rw [Service.dispatch, hm])
  · intro m hm ht
    have hm : o.interface.method? inv.member = some m := hm
    have hbody : body.unpackAs m.input = .error (.signatureMismatch m.input body.tags) := if_neg ht
    exact hrefuse _ [] (by simp only [Service.dispatch, hm, hbody])
  · intro m hm ht hs ha
    have hm : o.interface.method? inv.member = some m := hm
    have hs : o.service.sync.get? m.name = none := hs
    have ha : o.service.async.get? m.name = none := ha
    exact hrefuse _ [.missingHandler inv.member]
      (by simp only [Service.dispatch, hm, htyped ht, hs, ha])
  · intro m f hm ht hs
    have hm : o.interface.method? inv.member = some m := hm
    have hs : o.service.sync.get? m.name = some f := hs
    have hd : o.service.dispatch o.interface inv.member body = .sync m f body.values := by
      simp only [Service.dispatch, hm, htyped ht, hs]
    have hreply : (w.handle object i inv.member body).replyTo i
        = some (replyOf m (f body.values)).result := by
      simp only [handle, ho, hd]
      exact replyTo_reply (w := (w.note _).warn _) hinv hnone _
    refine ⟨?_, fun hf => by rw [hreply, hf]; rfl, fun hf => by rw [hreply, hf]; rfl⟩
    simp only [handle, ho, hd]
    rw [handlings_reply]
    simp [handlings, warn, note, Event.handling?]
  · intro m f hm ht hs ha
    have hm : o.interface.method? inv.member = some m := hm
    have hs : o.service.sync.get? m.name = none := hs
    have ha : o.service.async.get? m.name = some f := ha
    have hd : o.service.dispatch o.interface inv.member body = .async m f body.values := by
      simp only [Service.dispatch, hm, htyped ht, hs, ha]
    simp only [handle, ho, hd]
    refine ⟨?_, disposed_dispose (w := w.note _) hinv hnone _ _⟩
    rw [handlings_dispose]
    simp [handlings, note, Event.handling?]

/-- A dispatch depends on little of the world before it. -/
theorem Dispatched.before {v : World} {o : Handlers} {object i : Nat} {member : String}
    {body : Container} (h : w.Dispatched w' o object i member body)
    (hhandlings : v.handlings = w.handlings) (hkept : v.kept = w.kept) (hnow : v.now = w.now) :
    v.Dispatched w' o object i member body := by
  constructor
  · rw [hhandlings]
    exact h.undeclared
  · rw [hhandlings]
    exact h.mistyped
  · rw [hhandlings]
    exact h.unhandled
  · rw [hhandlings]
    exact h.sync
  · intro m f hm ht hs ha
    obtain ⟨hh, hd⟩ := h.async hm ht hs ha
    refine ⟨hh.trans (by rw [hhandlings]), ?_⟩
    cases hf : f body.values with
    | keep =>
      rw [hf] at hd
      exact ⟨hd.1, by rw [hkept]; exact hd.2⟩
    | answer a =>
      rw [hf] at hd
      exact hd
    | answerAfter ms a =>
      rw [hf] at hd
      exact ⟨hd.1, by rw [hnow]; exact hd.2⟩

/-! ## 2. The moves that serve an invocation -/

/-- The task that calls a handler does what a dispatch does. -/
theorem dispatched_poll (hw : w.Orderly) (h : w.Owing none) {t object i : Nat} {member : String}
    {body : Container} (ht : w.tasks.get? t = some (.handle object i member body)) :
    ∃ o, w.handlers? object = some o ∧
      w.Dispatched (w.act (.poll t)) o object i member body := by
  obtain ⟨hobject, inv, hinv, rfl⟩ := hw.known ht
  obtain ⟨o, ho⟩ := Option.isSome_iff_exists.mp hobject
  obtain ⟨inv', hinv', hnone⟩ := (h.endTask hw ht).inHand
  have heq : inv' = inv := Option.some.inj (hinv'.symm.trans hinv)
  subst heq
  refine ⟨o.handlers, by rw [handlers?, ho, Option.map_some], ?_⟩
  rw [act_poll ht]
  have hdispatch := dispatched_handle (w := (w.taken t).endTask t)
    ho hinv hnone body
  have hclose := (quiet_closeUnheld
    ((w.taken t).runTask t (.handle object i inv'.member body))).toCalm
  exact (hdispatch.after hclose.handlings hclose.invocations hclose.kept hclose.task).before
    rfl rfl rfl

/-- A call without a connection does what a dispatch does. -/
theorem dispatched_call (hw : w.Orderly) {object : Nat} {o : Handlers}
    (ho : w.handlers? object = some o) (sender path member : String) (body : Container) :
    w.Dispatched (w.act (.call object sender path member body)) o object w.invocations.size member
      body := by
  obtain ⟨ob, hob, rfl⟩ := Option.map_eq_some_iff.mp ho
  have hw' := hw.invoke sender path ob.interface.name member
  have hinv : (w.invoke sender path ob.interface.name member).1.invocations.get? w.invocations.size
      = some { sender, path, interface := ob.interface.name, member, reply := none } :=
    Table.get?_insert_self _ _ _
  have hdispatch := dispatched_handle (w := (w.invoke sender path ob.interface.name member).1)
    hob hinv rfl body
  have hw'' := hw'.handle object w.invocations.size member body
  have hact : w.act (.call object sender path member body)
      = (Session.callDirectly w object ob sender path member body).1 := by
    simp only [act, withObject, hob, Option.elim_some]
  rw [hact, callDirectly_eq]
  refine (hdispatch.after ?_ ?_ ?_ ?_).before rfl rfl rfl
  · rw [spawn_eq]
    rfl
  · rw [spawn_eq]
  · rw [spawn_eq]
  · intro t x ht
    rw [spawn_eq, Table.get?_insert, if_neg (Nat.ne_of_gt (hw''.task_lt ht))]
    exact ht

/-- The task that answers an invocation gives it just that answer. -/
theorem answered_poll (hw : w.Orderly) (h : w.Owing none) {t i : Nat} {a : Answer} {due : Nat}
    (ht : w.tasks.get? t = some (.answer i a due)) (hdue : due ≤ w.now) :
    ∃ inv, w.invocations.get? i = some inv ∧
      (w.act (.poll t)).replyTo i = some (a.replyFor inv.member) := by
  obtain ⟨inv, hinv, hnone⟩ := (h.endTask hw ht).inHand
  refine ⟨inv, hinv, ?_⟩
  rw [act_poll ht, (quiet_closeUnheld _).replyTo]
  have hdue : due ≤ (w.taken t).now := hdue
  simp only [runTask, hdue, if_true]
  exact replyTo_conclude (w := (w.taken t).endTask t) hinv hnone a

/-- So does whoever answers a slot. -/
theorem answered_slot (h : w.Owing none) {slot : Nat} {k : Kept} (hk : w.kept.get? slot = some k)
    (hopen : k.answered = false) (answer : List Value → Answer) :
    ∃ inv, w.invocations.get? k.invocation = some inv ∧
      (w.act (.answer slot answer)).replyTo k.invocation
        = some ((answer k.args).replyFor inv.member) := by
  have hset : World.Owing (some k.invocation)
      { w with kept := w.kept.insert slot { k with answered := true } } := h.markAnswered hk hopen
  obtain ⟨inv, hinv, hnone⟩ := hset.inHand
  refine ⟨inv, hinv, ?_⟩
  simp only [act, answerKept, hk, hopen, Bool.false_eq_true, if_false, Option.getD_some]
  exact replyTo_conclude (w := { w with kept := _ }) hinv hnone _

/-- No other move runs a handler. -/
theorem handlings_act (hw : w.Orderly) (m : Move) :
    (w.act m).handlings = w.handlings ∨
      (∃ t object i member body, m = .poll t ∧
        w.tasks.get? t = some (.handle object i member body)) ∨
      ∃ object sender path member body, m = .call object sender path member body := by
  have he := effect_act hw m
  generalize w.act m = w' at he ⊢
  cases he with
  | calm _ hc => exact Or.inl hc.handlings
  | @spawn _ v x _ hc hx =>
    refine Or.inl (Eq.trans ?_ hc.handlings)
    rw [spawn_eq]
    rfl
  | fire _ tokens => exact Or.inl (handlings_foldl_fire tokens w)
  | call ho sender path member body => exact Or.inr (Or.inr ⟨_, _, _, _, _, rfl⟩)
  | answer ha => exact Or.inl (handlings_answerKept ha)
  | @poll t x ht =>
    cases x with
    | handle object i member body => exact Or.inr (Or.inl ⟨t, object, i, member, body, rfl, ht⟩)
    | _ =>
      refine Or.inl ((quiet_closeUnheld _).handlings.trans ?_)
      exact handlings_runTask (w := w.taken t) rfl
  | stale ht => exact Or.inl rfl
  | pass ms => exact Or.inl (quiet_wake _ _).handlings

/-! ## 3. The account of a run -/

/-- How the calls that have come in are served, at any time. -/
structure ServesOnce (w : World) : Prop where
  /-- An invocation without a reply is held in one place, and one with a reply in none: it gets the
  reply when it is consumed or dropped, and no second one. -/
  once : ∀ i inv, w.invocations.get? i = some inv →
    w.owed i = if (w.replyTo i).isSome then 0 else 1
  /-- The reply stays what it is, whatever comes later. -/
  final : ∀ i r ms, w.replyTo i = some r → (w.run ms).replyTo i = some r
  /-- At most one handler has run for an invocation, and it has run once. -/
  handled : ∀ i, (w.handlings.filter (fun e => decide (e.invocation = i))).length ≤ 1
  /-- A call that has come over a connection is dispatched when its task is polled, -/
  polled : ∀ t object i member body, w.tasks.get? t = some (.handle object i member body) →
    ∃ o, w.handlers? object = some o ∧ w.Dispatched (w.act (.poll t)) o object i member body
  /-- and one without a connection at once. -/
  called : ∀ object o sender path member body, w.handlers? object = some o →
    w.Dispatched (w.act (.call object sender path member body)) o object w.invocations.size member
      body
  /-- No other move runs a handler. -/
  onlyThere : ∀ m, (w.act m).handlings = w.handlings ∨
    (∃ t object i member body, m = .poll t ∧
      w.tasks.get? t = some (.handle object i member body)) ∨
    ∃ object sender path member body, m = .call object sender path member body
  /-- An answer that was put off becomes the reply when it is time, -/
  later : ∀ t i a due, w.tasks.get? t = some (.answer i a due) → due ≤ w.now →
    ∃ inv, w.invocations.get? i = some inv ∧
      (w.act (.poll t)).replyTo i = some (a.replyFor inv.member)
  /-- and the answer to an invocation that was kept, when it is given. -/
  kept : ∀ slot k answer, w.kept.get? slot = some k → k.answered = false →
    ∃ inv, w.invocations.get? k.invocation = some inv ∧
      (w.act (.answer slot answer)).replyTo k.invocation
        = some ((answer k.args).replyFor inv.member)

/-- What an invocation waits for, read off its reply. -/
theorem Owing.eq (h : w.Owing none) {i : Nat} {inv : Invocation}
    (hinv : w.invocations.get? i = some inv) :
    w.owed i = if (w.replyTo i).isSome then 0 else 1 := by
  have howed := h i
  rw [tally_none (by rfl), Nat.add_zero] at howed
  rw [howed, awaited, replyTo, hinv, Option.any_some, Option.bind_some]
  cases inv.reply <;> rfl

/-- **Every inbound call gets exactly one reply**, and at most one handler runs for it, in whatever
order calls come, are handled, kept, answered, put off and dropped. -/
theorem inbound_exactly_once (ms : List Move) : (empty.run ms).ServesOnce := by
  have hw := orderly_run ms
  have howing := owing_run ms
  constructor
  · intro i inv hinv
    exact howing.eq hinv
  · intro i r ns hr
    exact (later_run ns hw).replyTo hr
  · intro i
    have honce := handledOnce_run ms i
    have hle := tally_le_one (i < (empty.run ms).invocations.size)
    rw [handled, List.countP_eq_length_filter] at honce
    omega
  · intro t object i member body ht
    exact dispatched_poll hw howing ht
  · intro object o sender path member body ho
    exact dispatched_call hw ho sender path member body
  · exact handlings_act hw
  · intro t i a due ht hdue
    exact answered_poll hw howing ht hdue
  · intro slot k answer hk hopen
    exact answered_slot howing hk hopen answer

end World

end MessageBus
