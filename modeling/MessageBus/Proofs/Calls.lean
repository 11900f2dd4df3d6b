/-
# Calls on a bus

What a call on a bus comes to, for any interface but the properties interface and in any order of
moves.  At its first poll the way of the call is looked for.

* If the connection is closed, the token has fired, the destination stands for nobody or there is no
  such object, the call fails at once with just that, the first of them that applies, and nothing is
  handed to anybody (`World.Refused`).
* Otherwise an invocation is opened for it, with a task that calls a handler, and the call waits
  (`World.Goes`): it is settled with the first of the reply, the token and the deadline, and the
  handlers are called once, whatever becomes of the caller.

`World.call_outcome` says so for every run.
-/
import MessageBus.Proofs.Obligations
import MessageBus.Proofs.Settling

namespace MessageBus.World

variable {w w' : World}

/-- What holds of every world that is reached from the empty one. -/
structure Sound (w : World) : Prop where
  orderly : w.Orderly
  owing : w.Owing none
  once : w.HandledOnce
  awake : w.Awake none

theorem sound_empty : empty.Sound where
  orderly := orderly_empty
  owing := fun _ => rfl
  once := fun _ => Nat.zero_le _
  awake := by
    intro t x _ ht
    cases ht

/-- A world stays sound with every move, -/
theorem Sound.act (h : w.Sound) (m : Move) : (w.act m).Sound where
  orderly := orderly_act h.orderly m
  owing := owing_act h.orderly h.owing m
  once := handledOnce_act h.orderly h.once m
  awake := awake_act h.orderly h.awake m

/-- and over every run. -/
theorem Sound.run (h : w.Sound) (ms : List Move) : (w.run ms).Sound :=
  run_keeps (P := Sound) (fun _ m h => h.act m) ms h

/-! ## 1. Calls that fail at once -/

/-- The call of the task `t` fails at its poll with `e`, and no handler is called for it, now or
later. -/
structure Refused (w : World) (t : Nat) (e : TransportError) : Prop where
  settled : settled t w (.poll t) = [.error e]
  ended : (w.act (.poll t)).tasks.get? t = none
  invocations : (w.act (.poll t)).invocations = w.invocations
  handlings : (w.act (.poll t)).handlings = w.handlings
  tasks : ∀ s object i member body,
    (w.act (.poll t)).tasks.get? s = some (.handle object i member body) →
    w.tasks.get? s = some (.handle object i member body)

/-- A call for which no way is found fails. -/
theorem refused_of_route (hw : w.Orderly) {t : Nat} {r : Request} {b : Nat} {me : String}
    {e : TransportError} (ht : w.tasks.get? t = some (.request r .unsent))
    (hlink : r.link = .bus b me) (hr : w.route b me r.call r.cancel = .error e) :
    w.Refused t e := by
  have hroute : (w.taken t).route b me r.call r.cancel = .error e := hr
  have hl : (w.taken t).look r .unsent = (w.taken t, .inl (.error e)) := by
    simp only [look, hlink, issueBus, hroute]
  have ho : w.outcomeOf t = some (.error e) :=
    outcomeOf_eq_some.mpr ⟨r, .unsent, ht, congrArg Prod.snd hl⟩
  obtain ⟨hended, -⟩ := ended_of_settle hw ho
  have hafter := afterLook_poll ht
  rw [hl] at hafter
  refine ⟨by rw [settled_poll, ho]; rfl, hended, hafter.invocations, hafter.handlings, ?_⟩
  intro s object i member body hs
  have hne : t ≠ s := by
    rintro rfl
    rw [hended] at hs
    cases hs
  rcases hafter.newTask hne hs with hs | ⟨c, d, heq⟩
  · exact hs
  · cases heq

theorem route_closed {b : Nat} {me : String} {call : MethodCall} {cancel : Option Token}
    (hopen : (w.bus b).isOpen me = false) : w.route b me call cancel = .error .disconnected := by
  simp [route, Bus.checkOpen, hopen, bind, Except.bind]

theorem route_cancelled {b : Nat} {me : String} {call : MethodCall} {cancel : Option Token}
    (hopen : (w.bus b).isOpen me = true) (hcancel : cancel.any w.hasFired = true) :
    w.route b me call cancel = .error .cancelled := by
  simp [route, Bus.checkOpen, hopen, hcancel, bind, Except.bind]

theorem route_unknownService {b : Nat} {me : String} {call : MethodCall} {cancel : Option Token}
    (hopen : (w.bus b).isOpen me = true) (hcancel : cancel.any w.hasFired = false)
    (hres : (w.bus b).resolve call.destination = none) :
    w.route b me call cancel = .error (serviceUnknown call.destination) := by
  simp [route, Bus.checkOpen, hopen, hcancel, hres, bind, Except.bind]

theorem route_unknownObject {b : Nat} {me owner : String} {call : MethodCall}
    {cancel : Option Token} (hopen : (w.bus b).isOpen me = true)
    (hcancel : cancel.any w.hasFired = false)
    (hres : (w.bus b).resolve call.destination = some owner)
    (hprops : call.interface ≠ propertiesInterface)
    (hobj : (w.bus b).handler? ⟨owner, call.path, call.interface⟩ = none) :
    w.route b me call cancel
      = .error (.remote (PropertyCall.unknownObject call.interface call.path)) := by
  simp [route, Bus.checkOpen, hopen, hcancel, hres, hprops, hobj, bind, Except.bind]

/-! ## 2. Handing a call over -/

/-- What a move hands to handlers for the invocation `i`: the object, the member and the body. -/
def handing (i : Nat) (w : World) : Move → List (Nat × String × Container)
  | .poll s =>
    match w.tasks.get? s with
    | some (.handle object j member body) => if j = i then [(object, member, body)] else []
    | _ => []
  | _ => []

/-- A move hands nothing over for an invocation for which no task calls a handler. -/
theorem handing_eq_nil {i : Nat} (h : ∀ s x, w.tasks.get? s = some x → x.hands ≠ some i)
    (m : Move) : handing i w m = [] := by
  cases m with
  | poll s =>
    simp only [handing]
    split
    · rename_i object j member body hs
      exact if_neg (fun heq => h s _ hs (congrArg some heq))
    · rfl
  | _ => rfl

/-- A task that calls a handler for an invocation that was there has been there, too. -/
theorem hands_act (hw : w.Orderly) {i s : Nat} (hi : i < w.invocations.size) {m : Move} {x : Task}
    (hx : (w.act m).tasks.get? s = some x) (hhands : x.hands = some i) :
    w.tasks.get? s = some x := by
  by_cases hm : m.polled = some s
  · obtain rfl := Move.eq_poll hm
    cases ht : w.tasks.get? s with
    | none =>
      have hstale : (w.act (.poll s)).tasks = w.tasks := by simp only [act, poll, ht]
      rw [hstale, ht] at hx
      cases hx
    | some y =>
      rw [act_poll ht] at hx
      rcases (quiet_closeUnheld _).toCalm.newTask hx with hx | ⟨-, b, c, rfl⟩
      · rcases polled_stays (hw.taken s) ht hx with ⟨rfl, -, -⟩ | ⟨b, c, rfl, rfl⟩ |
          ⟨r, p, q, v, rfl, rfl, -, -⟩
        · rfl
        · rfl
        · cases hhands
      · cases hhands
  · rcases newTask_act hw hm hx with hx | ⟨-, hborn⟩
    · exact hx
    · cases x with
      | handle object j member body =>
        cases hhands
        exact absurd hborn (Nat.not_le.mpr hi)
      | _ => cases hhands

/-- Once it has been handed over, or given up, nothing is handed over for an invocation. -/
theorem handing_none {i : Nat} (ms : List Move) {w : World} (hw : w.Orderly)
    (hi : i < w.invocations.size) (h : ∀ s x, w.tasks.get? s = some x → x.hands ≠ some i) :
    observe (handing i) w ms = [] := by
  induction ms generalizing w with
  | nil => rfl
  | cons m ms ih =>
    have hi' := Nat.lt_of_lt_of_le hi (later_act hw m).invocations
    have h' : ∀ s x, (w.act m).tasks.get? s = some x → x.hands ≠ some i :=
      fun s x hx hhands => h s x (hands_act hw hi hx hhands) hhands
    rw [observe_cons, handing_eq_nil h, ih (orderly_act hw m) hi' h']
    rfl

/-- Only one task calls a handler for an invocation. -/
theorem HandledOnce.hands_unique (h : w.HandledOnce) (hw : w.Orderly) {i s t : Nat} {x y : Task}
    (hs : w.tasks.get? s = some x) (hx : x.hands = some i) (ht : w.tasks.get? t = some y)
    (hy : y.hands = some i) : s = t := by
  by_cases heq : s = t
  · exact heq
  · have hend := handled_endTask hw hs i
    have ht' : (w.endTask s).tasks.get? t = some y := by
      rw [endTask, Table.get?_erase, if_neg heq]
      exact ht
    have hend' := handled_endTask (hw.endTask s) ht' i
    have hone := Nat.le_trans (h i) (tally_le_one _)
    rw [tally_true hx] at hend
    rw [tally_true hy] at hend'
    omega

/-- The task that calls a handler ends with its poll. -/
theorem handle_ends (hw : w.Orderly) {t object i : Nat} {member : String} {body : Container}
    (ht : w.tasks.get? t = some (.handle object i member body)) :
    (w.act (.poll t)).tasks.get? t = none := by
  have ht' : (w.taken t).tasks.get? t = some (.handle object i member body) := ht
  have hrun := onward_runTask (hw.taken t) ht'
  have hended := ended (hw.taken t) ht (onward_handle ((hw.taken t).endTask t) object i member body)
  rw [act_poll ht]
  cases hx : (World.closeUnheld _).tasks.get? t with
  | none => rfl
  | some x =>
    rcases (quiet_closeUnheld _).toCalm.newTask hx with hx | ⟨hle, -⟩
    · rw [runTask, hended] at hx
      cases hx
    · have hlt := Nat.lt_of_lt_of_le (hw.task_lt ht) hrun.nextTask
      omega

/-- **A call is handed over once**: it has been, or its task still stands there. -/
theorem handing_once {i h object : Nat} {member : String} {body : Container} (ms : List Move)
    {w : World} (hw : w.Orderly) (honce : w.HandledOnce) (hi : i < w.invocations.size)
    (ht : w.tasks.get? h = some (.handle object i member body)) :
    (observe (handing i) w ms = [] ∧
        (w.run ms).tasks.get? h = some (.handle object i member body)) ∨
      observe (handing i) w ms = [(object, member, body)] := by
  induction ms generalizing w with
  | nil => exact Or.inl ⟨rfl, ht⟩
  | cons m ms ih =>
    have hw' := orderly_act hw m
    have hi' := Nat.lt_of_lt_of_le hi (later_act hw m).invocations
    rw [observe_cons]
    by_cases hm : m.polled = some h
    · obtain rfl := Move.eq_poll hm
      have hthis : handing i w (.poll h) = [(object, member, body)] := by
        simp only [handing, ht, if_true]
      have hnone : ∀ s x, (w.act (.poll h)).tasks.get? s = some x → x.hands ≠ some i := by
        intro s x hx hhands
        have hold := hands_act hw hi hx hhands
        have heq := honce.hands_unique hw hold hhands ht rfl
        subst heq
        rw [handle_ends hw ht] at hx
        cases hx
      rw [hthis, handing_none ms hw' hi' hnone]
      exact Or.inr rfl
    · have hthis : handing i w m = [] := by
        cases m with
        | poll s =>
          simp only [handing]
          split
          · rename_i object' j member' body' hs
            refine if_neg fun heq => hm (congrArg some ?_)
            exact honce.hands_unique hw hs (congrArg some heq) ht rfl
          · rfl
        | _ => rfl
      rw [hthis, List.nil_append]
      exact ih hw' (handledOnce_act hw honce m) hi' (task_act hw hm ht)

/-! ## 3. Waiting for the reply -/

/-- Nobody begins to wait for the reply to an invocation that was there. -/
theorem awaits_act (hw : w.Orderly) {i s : Nat} (hi : i < w.invocations.size) {m : Move} {x : Task}
    (hx : (w.act m).tasks.get? s = some x) (hwaits : x.awaitsReply i = true) :
    ∃ y, w.tasks.get? s = some y ∧ y.awaitsReply i = true := by
  by_cases hm : m.polled = some s
  · obtain rfl := Move.eq_poll hm
    cases ht : w.tasks.get? s with
    | none =>
      have hstale : (w.act (.poll s)).tasks = w.tasks := by simp only [act, poll, ht]
      rw [hstale, ht] at hx
      cases hx
    | some y =>
      rw [act_poll ht] at hx
      refine ⟨y, rfl, ?_⟩
      rcases (quiet_closeUnheld _).toCalm.newTask hx with hx | ⟨-, b, c, rfl⟩
      · rcases polled_stays (hw.taken s) ht hx with ⟨rfl, -, -⟩ | ⟨b, c, rfl, rfl⟩ |
          ⟨r, p, q, v, rfl, rfl, hlook, -⟩
        · exact hwaits
        · exact hwaits
        · cases q with
          | awaitReply j d =>
            have heq : j = i := of_decide_eq_true hwaits
            subst heq
            rcases look_awaits hlook with rfl | ⟨-, hsize, -⟩
            · exact hwaits
            · have hsize : w.invocations.size = j := hsize
              omega
          | _ => cases hwaits
      · cases hwaits
  · rcases newTask_act hw hm hx with hx | ⟨-, hborn⟩
    · exact ⟨x, hx, hwaits⟩
    · cases x with
      | watch j =>
        have heq : j = i := of_decide_eq_true hwaits
        have hle : w.invocations.size ≤ j := hborn
        omega
      | request r p =>
        cases hborn
        cases hwaits
      | _ => cases hwaits

/-- One task at most waits for the reply to an invocation, if that was so before. -/
theorem awaits_run {i t : Nat} (ms : List Move) {w : World} (hw : w.Orderly)
    (hi : i < w.invocations.size)
    (h : ∀ s x, w.tasks.get? s = some x → x.awaitsReply i = true → s = t) :
    ∀ s x, (w.run ms).tasks.get? s = some x → x.awaitsReply i = true → s = t := by
  induction ms generalizing w with
  | nil => exact h
  | cons m ms ih =>
    have hi' := Nat.lt_of_lt_of_le hi (later_act hw m).invocations
    refine ih (orderly_act hw m) hi' fun s x hx hwaits => ?_
    obtain ⟨y, hy, hwaits⟩ := awaits_act hw hi hx hwaits
    exact h s y hy hwaits

/-- A reply for which nobody waits changes its invocation, and nothing else. -/
theorem reply_unawaited {i : Nat} (h : ∀ s x, w.tasks.get? s = some x → x.awaitsReply i = false)
    (hw : w.Orderly) (r : Reply Container) :
    w.reply i r = { w with invocations := (w.reply i r).invocations } := by
  unfold reply
  split
  · rename_i inv hinv
    split
    · rfl
    · have hwake : ∀ v : World, v.tasks = w.tasks → v.wake (·.awaitsReply i) = v := by
        intro v hv
        refine wake_of_none v fun e he => ?_
        rw [hv] at he
        exact h e.1 e.2 (hw.tasksDistinct.get?_of_mem he)
      rw [hwake]
      rfl
  · rfl

/-! ## 4. The first poll of a call that finds its object -/

/-- The invocation that a task waits for is there. -/
theorem Orderly.awaits_lt (hw : w.Orderly) {t i : Nat} {x : Task} (ht : w.tasks.get? t = some x)
    (hx : x.awaitsReply i = true) : i < w.invocations.size := by
  have hknown := hw.known ht
  cases x with
  | request r p =>
    cases p with
    | awaitReply j d =>
      have heq : j = i := of_decide_eq_true hx
      subst heq
      obtain ⟨inv, hinv⟩ := hknown
      exact hw.invocationsBelow.lt_size hinv
    | _ => cases hx
  | watch j =>
    have heq : j = i := of_decide_eq_true hx
    subst heq
    obtain ⟨inv, hinv⟩ := hknown
    exact hw.invocationsBelow.lt_size hinv
  | _ => cases hx

/-- Handing a call over brings nothing that the call waits for. -/
theorem come_handedTo (hw : w.Orderly) (me : String) (r : Request) (object d : Nat) :
    (w.handedTo me r object).come r w.invocations.size d = w.come r w.invocations.size d := by
  refine come_congr ?_ ?_ ?_ <;> rw [handedTo_eq]
  simp only [replyTo, Table.get?_insert_self]
  rw [hw.invocationsBelow.get?_size]
  rfl

section Routed

variable {t : Nat} {r : Request} {b : Nat} {me : String} {object : Nat}

/-- A call that is handed over has looked for the reply to its own invocation. -/
theorem look_routed (hw : w.Orderly) (t : Nat) (hlink : r.link = .bus b me)
    (hr : w.route b me r.call r.cancel = .ok (.object object)) :
    (w.taken t).look r .unsent
      = ((w.taken t).handedTo me r object,
          (w.come r w.invocations.size (w.deadlineOf b r)).elim
            (.inr (.awaitReply w.invocations.size (w.deadlineOf b r))) .inl) := by
  have hroute : (w.taken t).route b me r.call r.cancel = .ok (.object object) := hr
  have hlook : (w.taken t).look r .unsent = (w.taken t).issueBus b me r := by rw [look, hlink]
  have hcome : (w.taken t).come r w.invocations.size (w.deadlineOf b r)
      = w.come r w.invocations.size (w.deadlineOf b r) := come_congr rfl rfl rfl
  rw [hlook, issueBus_object hroute, lookReply_eq, ← hcome]
  exact congrArg (fun o => (_, Option.elim o _ _)) (come_handedTo (hw.taken t) me r object _)

theorem outcomeOf_routed (hw : w.Orderly) (ht : w.tasks.get? t = some (.request r .unsent))
    (hlink : r.link = .bus b me) (hr : w.route b me r.call r.cancel = .ok (.object object)) :
    w.outcomeOf t = w.come r w.invocations.size (w.deadlineOf b r) := by
  simp only [outcomeOf, ht, look_routed hw t hlink hr]
  cases w.come r w.invocations.size (w.deadlineOf b r) <;> rfl

/-- If nothing has come at once, it waits for the reply to its own invocation. -/
theorem waits_routed (hw : w.Orderly) (ht : w.tasks.get? t = some (.request r .unsent))
    (hlink : r.link = .bus b me) (hr : w.route b me r.call r.cancel = .ok (.object object))
    (hc : w.come r w.invocations.size (w.deadlineOf b r) = none) :
    (w.act (.poll t)).tasks.get? t
      = some (.request r (.awaitReply w.invocations.size (w.deadlineOf b r))) := by
  have hl := congrArg Prod.snd (look_routed hw t hlink hr)
  rw [hc] at hl
  rw [act_wait ht hl]
  exact (quiet_closeUnheld _).toCalm.task (Table.get?_insert_self _ _ _)

/-- An invocation has been opened for the call, and a task that calls the handlers is there. -/
theorem handle_routed (hw : w.Orderly) (ht : w.tasks.get? t = some (.request r .unsent))
    (hlink : r.link = .bus b me) (hr : w.route b me r.call r.cancel = .ok (.object object)) :
    (w.act (.poll t)).tasks.get? w.nextTask
        = some (.handle object w.invocations.size r.call.member r.call.body) ∧
      (w.act (.poll t)).invocations.get? w.invocations.size
        = some { sender := me, path := r.call.path, interface := r.call.interface,
                 member := r.call.member, reply := none } ∧
      (w.act (.poll t)).handlings = w.handlings := by
  have hafter := afterLook_poll ht
  rw [look_routed hw t hlink hr, handedTo_eq] at hafter
  refine ⟨?_, ?_, hafter.handlings⟩
  · exact hafter.task (Nat.ne_of_lt (hw.task_lt ht)) (Table.get?_insert_self _ _ _)
  · rw [hafter.invocations]
    exact Table.get?_insert_self _ _ _

/-- No other task waits for the reply to its invocation. -/
theorem awaits_routed (hw : w.Orderly) (ht : w.tasks.get? t = some (.request r .unsent))
    (hlink : r.link = .bus b me) (hr : w.route b me r.call r.cancel = .ok (.object object))
    (s : Nat) (x : Task) (hx : (w.act (.poll t)).tasks.get? s = some x)
    (hwaits : x.awaitsReply w.invocations.size = true) : s = t := by
  by_cases hs : t = s
  · exact hs.symm
  · have hafter := afterLook_poll ht
    rw [look_routed hw t hlink hr, handedTo_eq] at hafter
    rcases hafter.newTask hs hx with hx | ⟨c, d, rfl⟩
    · simp only [Table.get?_insert] at hx
      split at hx
      · cases hx
        cases hwaits
      · exact absurd (hw.awaits_lt hx hwaits) (Nat.lt_irrefl _)
    · cases hwaits

end Routed

/-! ## 5. What a call comes to -/

/-- How a call goes on that the moves `ms` hand over to an object, and that waits until `d`. -/
structure Goes (w : World) (t : Nat) (r : Request) (me : String) (object d : Nat) (ms : List Move) :
    Prop where
  /-- An invocation of its own is opened for it. -/
  own : w.invocations.get? w.invocations.size = none ∧
    ∃ reply, (w.run ms).invocations.get? w.invocations.size
      = some { sender := me, path := r.call.path, interface := r.call.interface,
               member := r.call.member, reply }
  /-- It is settled with what is first seen of the reply, the token and the deadline, in this order
  if several have come, and not again. -/
  settled : observe (settled t) w ms = (observe (seen t r w.invocations.size d) w ms).take 1
  connected : .error .disconnected ∉ observe (World.settled t) w ms
  /-- The handlers are called once, as soon as it is the turn of the task that does. -/
  handed : observe (handing w.invocations.size) w ms = [(object, r.call.member, r.call.body)] ∨
    observe (handing w.invocations.size) w ms = [] ∧ w.nextTask ∈ (w.run ms).ready ∧
      (w.run ms).tasks.get? w.nextTask
        = some (.handle object w.invocations.size r.call.member r.call.body)
  /-- Something that has come is not slept through, -/
  awake : (w.run ms).tasks.get? t ≠ none → (w.run ms).come r w.invocations.size d ≠ none →
    t ∈ (w.run ms).ready
  /-- so that the call has been settled when nothing can run. -/
  completed : (w.run ms).ready = [] → (w.run ms).come r w.invocations.size d ≠ none →
    ∃ o, observe (World.settled t) w ms = [o]
  /-- A reply that comes when the call has been settled changes its invocation only. -/
  late : (w.run ms).tasks.get? t = none → ∀ x, (w.run ms).reply w.invocations.size x
    = { w.run ms with invocations := ((w.run ms).reply w.invocations.size x).invocations }

/-- What becomes of a call on a bus that has not been handed over. -/
structure CallOutcome (w : World) (t b : Nat) (me : String) (r : Request) : Prop where
  closed : (w.bus b).isOpen me = false → w.Refused t .disconnected
  cancelled : (w.bus b).isOpen me = true → r.cancel.any w.hasFired = true → w.Refused t .cancelled
  unknownService : (w.bus b).isOpen me = true → r.cancel.any w.hasFired = false →
    (w.bus b).resolve r.call.destination = none →
    w.Refused t (serviceUnknown r.call.destination)
  unknownObject : ∀ owner, (w.bus b).isOpen me = true → r.cancel.any w.hasFired = false →
    (w.bus b).resolve r.call.destination = some owner →
    (w.bus b).handler? ⟨owner, r.call.path, r.call.interface⟩ = none →
    w.Refused t (.remote (PropertyCall.unknownObject r.call.interface r.call.path))
  found : ∀ owner object, (w.bus b).isOpen me = true → r.cancel.any w.hasFired = false →
    (w.bus b).resolve r.call.destination = some owner →
    (w.bus b).handler? ⟨owner, r.call.path, r.call.interface⟩ = some object →
    ∀ after, w.Goes t r me object (w.deadlineOf b r) (.poll t :: after)

section Routed

variable {t : Nat} {r : Request} {b : Nat} {me : String} {object : Nat}

/-- A call is settled with what is first seen, from its first poll on. -/
theorem settled_routed (hw : w.Orderly) (ht : w.tasks.get? t = some (.request r .unsent))
    (hlink : r.link = .bus b me) (hr : w.route b me r.call r.cancel = .ok (.object object))
    (after : List Move) :
    observe (settled t) w (.poll t :: after)
      = (observe (seen t r w.invocations.size (w.deadlineOf b r)) w (.poll t :: after)).take 1 := by
  have hfirst := outcomeOf_routed hw ht hlink hr
  rw [observe_cons, observe_cons, settled_poll, seen_poll, hfirst]
  cases hc : w.come r w.invocations.size (w.deadlineOf b r) with
  | none => exact settled_waiting after (orderly_act hw _) (waits_routed hw ht hlink hr hc)
  | some o =>
    obtain ⟨hended, hlt⟩ := ended_of_settle hw (hfirst.trans hc)
    rw [settled_ended after (orderly_act hw _) hended hlt]
    rfl

/-- After its first poll a call waits, or has ended, for good. -/
theorem waiting_routed (hw : w.Orderly) (ht : w.tasks.get? t = some (.request r .unsent))
    (hlink : r.link = .bus b me) (hr : w.route b me r.call r.cancel = .ok (.object object))
    (after : List Move) :
    (w.run (.poll t :: after)).tasks.get? t
        = some (.request r (.awaitReply w.invocations.size (w.deadlineOf b r))) ∨
      (w.run (.poll t :: after)).tasks.get? t = none := by
  cases hc : w.come r w.invocations.size (w.deadlineOf b r) with
  | none => exact waiting_run after (orderly_act hw _) (waits_routed hw ht hlink hr hc)
  | some o =>
    obtain ⟨hended, hlt⟩ := ended_of_settle hw ((outcomeOf_routed hw ht hlink hr).trans hc)
    exact Or.inr (ended_run after (orderly_act hw _) hended hlt)

theorem seen_connected {t i d : Nat} (ms : List Move) (w : World) :
    .error .disconnected ∉ observe (seen t r i d) w ms := by
  induction ms generalizing w with
  | nil => exact List.not_mem_nil
  | cons m ms ih =>
    rw [observe_cons, List.mem_append, not_or]
    refine ⟨?_, ih (w.act m)⟩
    by_cases hm : m.polled = some t
    · obtain rfl := Move.eq_poll hm
      rw [seen_poll, Option.mem_toList]
      exact come_ne_disconnected
    · rw [seen_of_ne hm]
      exact List.not_mem_nil

/-- **A call that finds its object**, over any run from its first poll on. -/
theorem goes_routed (h : w.Sound) (ht : w.tasks.get? t = some (.request r .unsent))
    (hlink : r.link = .bus b me) (hr : w.route b me r.call r.cancel = .ok (.object object))
    (after : List Move) : w.Goes t r me object (w.deadlineOf b r) (.poll t :: after) := by
  have hw := h.orderly
  have hw' := orderly_act hw (.poll t)
  obtain ⟨hhandle, hinv, -⟩ := handle_routed hw ht hlink hr
  have hsize := hw'.invocationsBelow.lt_size hinv
  have hawake : (w.run (.poll t :: after)).Awake none := (h.run _).awake
  have hsettled := settled_routed hw ht hlink hr after
  have hwaiting := waiting_routed hw ht hlink hr after
  have hready : (w.run (.poll t :: after)).tasks.get? t ≠ none →
      (w.run (.poll t :: after)).come r w.invocations.size (w.deadlineOf b r) ≠ none →
      t ∈ (w.run (.poll t :: after)).ready := by
    intro hthere hcome
    rcases hwaiting with hx | hx
    · exact hawake t _ (by simp) hx (canRun_of_come hcome)
    · exact absurd hx hthere
  refine ⟨⟨hw.invocationsBelow.get?_size, ?_⟩, hsettled, ?_, ?_, hready, ?_, ?_⟩
  · obtain ⟨reply, hinv', -⟩ := (later_run after hw').invocation hinv
    exact ⟨reply, hinv'⟩
  · rw [hsettled]
    exact fun h => seen_connected _ _ (List.mem_of_mem_take h)
  · have hfirst : handing w.invocations.size w (.poll t) = [] := by simp only [handing, ht]
    rw [observe_cons, hfirst, List.nil_append]
    rcases handing_once after hw' (h.act _).once hsize hhandle with ⟨hnil, htask⟩ | hone
    · exact Or.inr ⟨hnil, hawake _ _ (by simp) htask (Or.inl rfl), htask⟩
    · exact Or.inl hone
  · intro hidle hcome
    have hend : (w.run (.poll t :: after)).tasks.get? t = none := by
      rcases hwaiting with hx | hx
      · have hmem := hready (by rw [hx]; exact Option.some_ne_none _) hcome
        rw [hidle] at hmem
        cases hmem
      · exact hx
    exact settled_of_ended _ hw ht hend
  · intro hend x
    have hw'' := orderly_act hw (.poll t)
    refine reply_unawaited (fun s y hy => ?_) (later_run (.poll t :: after) hw |>.orderly hw) x
    cases hwaits : y.awaitsReply w.invocations.size with
    | false => rfl
    | true =>
      have heq := awaits_run after hw'' hsize (awaits_routed hw ht hlink hr) s y hy hwaits
      subst heq
      have hy : (w.run (.poll s :: after)).tasks.get? s = some y := hy
      rw [hend] at hy
      cases hy

/-- **What a call on a bus comes to**, after any run and in any order of what follows. -/
theorem call_outcome (before : List Move)
    (ht : (empty.run before).tasks.get? t = some (.request r .unsent)) (hlink : r.link = .bus b me)
    (hprops : r.call.interface ≠ propertiesInterface) :
    (empty.run before).CallOutcome t b me r := by
  have h : (empty.run before).Sound := sound_empty.run before
  have hw := h.orderly
  constructor
  · intro hopen
    exact refused_of_route hw ht hlink (route_closed hopen)
  · intro hopen hcancel
    exact refused_of_route hw ht hlink (route_cancelled hopen hcancel)
  · intro hopen hcancel hres
    exact refused_of_route hw ht hlink (route_unknownService hopen hcancel hres)
  · intro owner hopen hcancel hres hobj
    exact refused_of_route hw ht hlink (route_unknownObject hopen hcancel hres hprops hobj)
  · intro owner object hopen hcancel hres hobj after
    refine goes_routed h ht hlink ?_ after
    exact route_eq_object.mpr ⟨hopen, hcancel, owner, hres, hprops, hobj⟩

end Routed

/-! ## 6. A call between two connections -/

/-- One method, which takes a text and gives one back. -/
def echo : Method := { name := "Echo", input := [.string], output := [.string] }

/-- An interface with this method only. -/
def echoInterface : Interface where
  name := "org.busbind.Test"
  methods := [echo]
  properties := []
  signals := []
  members := Member.all [echo] []

/-- Its service gives back what it is given. -/
def echoService : Service :=
  .ofParts [.method "Echo" fun args => .ok (.tuple args)]

/-- Two connections of a bus, the first of which exports an object. -/
def echoBus : List Move :=
  [.arrange (.addBus 100), .arrange (.connect 0), .arrange (.connect 0),
    .arrange (.addObject echoInterface echoService),
    .arrange (.exportObject 0 (.bus 0 ":1.1") "/echo")]

/-- A call from the second to the first. -/
def echoRequest : Request where
  link := .bus 0 ":1.2"
  call :=
    { destination := ":1.1", path := "/echo", interface := "org.busbind.Test", member := "Echo",
      body := ⟨[.string], [.string "hello"], .cons (.string _) .nil⟩ }
  flags := .none
  timeout := none
  cancel := none
  purpose := .answer

/-- The two connections deliver signals, so that the call is the third task, and it finds its
object. -/
theorem call_outcome_echo :
    (empty.run (echoBus ++ [.ask echoRequest])).tasks.get? 2
        = some (.request echoRequest .unsent) ∧
      ((empty.run (echoBus ++ [.ask echoRequest])).bus 0).handler?
          ⟨":1.1", "/echo", "org.busbind.Test"⟩ = some 0 ∧
      (empty.run (echoBus ++ [.ask echoRequest])).CallOutcome 2 0 ":1.2" echoRequest :=
  ⟨by rfl, by decide +kernel, call_outcome _ (by rfl) rfl (by decide)⟩

end MessageBus.World
