/-
# Calls through a bus are as good as direct ones

A proxy and an object of the same interface, joined by a bus, and a method with a synchronous
handler: what the caller gets is what it would get by packing the arguments, calling the handler,
packing what that returns, and reading it (`direct`), and the handler has run once, on just the
packed arguments. Only the call's token and its deadline can come between.

There are three ways to get the result, and all three agree: waiting for it, a reply handler, and a
finish handler that reads it later.  For the first, `World.callMethodSync` is shown to come back
with the result.  For the other two, what the handlers are given is read off the polls of the call's
task (`World.telling`).

The condition (`World.Connected`) is about one moment only, that at which the call is handed over.
What happens to the connections, the name and the registration after that makes no difference.
-/
import MessageBus.Proofs.Building
import MessageBus.Proofs.Preparing
import MessageBus.Proofs.Waiting

namespace MessageBus

/-! ## 1. The direct composition -/

/-- What a call of `m` comes to without a bus. -/
def direct (m : Method) (f : SyncHandler) (args : List Value) : Except CallError (List Value) :=
  match f args with
  | .error e => .error (.transport (.remote (.ofHandler e)))
  | .ok r =>
    match r.pack m with
    | .error _ => .error (.transport (.remote .valueError))
    | .ok c =>
      if c.tags = m.output then .ok c.values
      else .error (.replyMismatch m.name (.signatureMismatch m.output c.tags))

/-- An error of a domain reaches the caller unchanged. -/
theorem direct_domain {m : Method} {f : SyncHandler} {args : List Value} {e : DomainError}
    {context : Option String} (h : f args = .error { cause := .domain e, context }) :
    direct m f args = .error (.transport (.remote (.domain e))) := by
  rw [direct, h]
  rfl

/-- **The reply to a call, read by the caller**, is the result of the direct composition. -/
theorem readReply_replyOf (m : Method) (f : SyncHandler) (args : List Value) :
    readReply m ((replyOf m (f args)).result.mapError .remote) = direct m f args := by
  unfold direct replyOf
  cases f args with
  | error e => rfl
  | ok r =>
    simp only [packReturn]
    cases r.pack m with
    | error e => rfl
    | ok c =>
      change (c.unpackAs m.output).mapError (CallError.replyMismatch m.name) = _
      unfold Container.unpackAs
      by_cases htags : c.tags = m.output
      · simp only [htags, if_true]
        rfl
      · simp only [htags, if_false]
        rfl

/-! ## 2. Prepared calls -/

/-- What is sent are the arguments of the method, packed against its input. -/
theorem prepare_packs {m : Method} {mode : CallMode} {convention : Convention}
    {args : List Argument} {c : PreparedCall} (h : prepare m mode convention args = .ok c) :
    ∃ vs, args.take m.input.length = vs.map .value ∧ Container.pack m.input vs = .ok c.body :=
  (prepare_eq_ok.mp h).2.2

theorem tags_prepare {m : Method} {mode : CallMode} {convention : Convention}
    {args : List Argument} {c : PreparedCall} (h : prepare m mode convention args = .ok c) :
    c.body.tags = m.input := by
  obtain ⟨vs, -, hpack⟩ := prepare_packs h
  exact (Container.pack_eq_ok.mp hpack).1

/-! ## 3. The other end of a call -/

/-- The ends of a call: the bus and the caller's connection to it, the object, and the handler. -/
structure Line where
  bus : Nat
  me : String
  object : Nat
  handler : SyncHandler

namespace World

/-- A call of `m` by the proxy finds an object of the same interface, which has a synchronous
handler for it. -/
structure Connected (w : World) (p : Proxy) (m : Method) (l : Line) : Prop where
  link : p.link = .bus l.bus l.me
  isOpen : (w.bus l.bus).isOpen l.me = true
  found : ∃ owner, (w.bus l.bus).resolve p.target.name = some owner ∧
    (w.bus l.bus).handler? ⟨owner, p.target.path, p.interface.name⟩ = some l.object
  serves : ∃ o, w.objects.get? l.object = some o ∧ o.interface = p.interface ∧
    o.service.sync.get? m.name = some l.handler
  declared : p.interface.method? m.name = some m
  /-- The bus itself answers calls on the properties interface. -/
  ordinary : p.interface.name ≠ propertiesInterface

variable {w w' : World}

section Connected

variable {p : Proxy} {m : Method} {l : Line}

theorem Connected.handlers (h : w.Connected p m l) :
    ∃ o, w.handlers? l.object = some o ∧ o.interface.method? m.name = some m ∧
      o.sync.get? m.name = some l.handler := by
  obtain ⟨o, ho, hinterface, hsync⟩ := h.serves
  refine ⟨o.handlers, by rw [handlers?, ho, Option.map_some], ?_, hsync⟩
  have hdeclared := h.declared
  rw [← hinterface] at hdeclared
  exact hdeclared

/-- The way of the call is found, unless it has been cancelled. -/
theorem Connected.route (h : w.Connected p m l) (haimed : p.target.interface = p.interface.name)
    {c : PreparedCall} (hcancel : c.cancel.any w.hasFired = false) (purpose : Purpose) :
    w.route l.bus l.me (callRequest p m c purpose).call (callRequest p m c purpose).cancel
      = .ok (.object l.object) := by
  obtain ⟨owner, hresolve, hobject⟩ := h.found
  rw [← haimed] at hobject
  refine route_eq_object.mpr ⟨h.isOpen, hcancel, owner, hresolve, fun heq => ?_, hobject⟩
  exact h.ordinary (haimed.symm.trans heq)

end Connected

/-! ## 4. What the call comes to -/

/-- The call of the task `t`, which the first of the moves `ms` hands over, comes to what the direct
composition gives. -/
structure Transparent (w : World) (t : Nat) (r : Request) (m : Method) (l : Line) (ms : List Move) :
    Prop where
  /-- It comes to one outcome at most. -/
  once : (observe (settled t) w ms).length ≤ 1
  /-- This is the direct result, and then the handler has run once, on the values of the call; or it
  is word of the token, which has fired, or of the deadline, which has passed. -/
  outcome : ∀ x ∈ observe (settled t) w ms,
    (readReply m x = direct m l.handler r.call.body.values ∧
      (w.run ms).handlingsFor w.invocations.size
        = [⟨l.object, w.invocations.size, m.name, r.call.body.values⟩]) ∨
    (x = .error .cancelled ∧ r.cancel.any (w.run ms).hasFired = true) ∨
    (x = .error .timeout ∧ w.deadlineOf l.bus r ≤ (w.run ms).now)
  /-- Whatever becomes of the caller, nothing else runs for the call. -/
  ran : (w.run ms).handlingsFor w.invocations.size = [] ∨
    (w.run ms).handlingsFor w.invocations.size
      = [⟨l.object, w.invocations.size, m.name, r.call.body.values⟩]
  /-- It has come to an outcome when nothing can run. -/
  completed : (w.run ms).ready = [] → ∃ x, observe (settled t) w ms = [x]

section Connected

variable {p : Proxy} {m : Method} {l : Line} {c : PreparedCall} {purpose : Purpose} {t : Nat}

/-- What has come for a call that is connected, read by the caller. -/
theorem readReply_came {r : Request} {i d : Nat} {done : Handling} {f : SyncHandler}
    {args : List Value} {x : Except TransportError Container}
    (h : w.Came r i d done (replyOf m (f args)).result x) :
    (readReply m x = direct m f args ∧ w.handlingsFor i = [done]) ∨
      (x = .error .cancelled ∧ r.cancel.any w.hasFired = true) ∨
      (x = .error .timeout ∧ d ≤ w.now) := by
  cases h with
  | reply hs => exact Or.inl ⟨readReply_replyOf m f args, hs.ran⟩
  | cancelled hf => exact Or.inr (Or.inl ⟨rfl, hf⟩)
  | timeout hd => exact Or.inr (Or.inr ⟨rfl, hd⟩)

/-- **A call that is connected is transparent**, from its first poll on and in any order of
moves. -/
theorem transparent_connected (h : w.Sound) (hc : w.Connected p m l)
    (haimed : p.target.interface = p.interface.name) (hbody : c.body.tags = m.input)
    (hcancel : c.cancel.any w.hasFired = false)
    (ht : w.tasks.get? t = some (.request (callRequest p m c purpose) .unsent))
    (after : List Move) :
    w.Transparent t (callRequest p m c purpose) m l (.poll t :: after) := by
  obtain ⟨o, ho, hm, hf⟩ := hc.handlers
  have hroute := hc.route haimed hcancel purpose
  have hlink : (callRequest p m c purpose).link = .bus l.bus l.me := hc.link
  refine ⟨settled_once _ h.orderly, fun x hx => ?_, ?_, fun hidle => ?_⟩
  · exact readReply_came (came_routed h ht hlink hroute rfl ho hm hbody hf after hx)
  · rcases served_routed h ht hlink hroute rfl ho hm hbody hf after with htask | hs
    · exact Or.inl ((h.run _).unserved htask).1
    · exact Or.inr hs.ran
  · exact settled_served h ht hlink hroute rfl ho hm hbody hf after hidle

/-- One whose token has fired fails at once, and no handler runs. -/
theorem refused_connected (h : w.Sound) (hc : w.Connected p m l)
    (hcancel : c.cancel.any w.hasFired = true)
    (ht : w.tasks.get? t = some (.request (callRequest p m c purpose) .unsent)) :
    w.Refused t .cancelled := by
  have hlink : (callRequest p m c purpose).link = .bus l.bus l.me := hc.link
  exact refused_of_route h.orderly ht hlink (route_cancelled hc.isOpen hcancel)

end Connected

/-! ## 5. What the handlers of the caller are given -/

/-- What the moves that poll the task `t` give to completions. -/
def telling (t : Nat) (w : World) : Move → List Event
  | .poll s => if s = t then (w.act (.poll s)).told.drop w.told.length else []
  | _ => []

theorem telling_of_ne {t : Nat} {m : Move} (hm : m.polled ≠ some t) : telling t w m = [] := by
  cases m with
  | poll s => exact if_neg (fun heq => hm (congrArg some heq))
  | _ => rfl

theorem telling_poll (w : World) (t : Nat) :
    telling t w (.poll t) = (w.act (.poll t)).told.drop w.told.length := if_pos rfl

/-- A poll that comes to no outcome gives nothing to anybody. -/
theorem telling_of_waiting (hw : w.Orderly) {t : Nat} (ho : w.outcomeOf t = none) :
    telling t w (.poll t) = [] := by
  rw [telling_poll, (untold_poll hw ho).told, List.drop_length]

/-- A task that has ended tells nobody anything. -/
theorem telling_ended {t : Nat} (ms : List Move) {w : World} (hw : w.Orderly)
    (ht : w.tasks.get? t = none) (hlt : t < w.nextTask) : observe (telling t) w ms = [] := by
  induction ms generalizing w with
  | nil => rfl
  | cons m ms ih =>
    obtain ⟨ht', hlt'⟩ := ended_act hw ht hlt m
    rw [observe_cons, ih (orderly_act hw m) ht' hlt', List.append_nil]
    by_cases hm : m.polled = some t
    · obtain rfl := Move.eq_poll hm
      exact telling_of_waiting hw (by rw [outcomeOf, ht])
    · exact telling_of_ne hm

/-- The poll that settles an accepted call gives the outcome to its completion. -/
theorem Ledger.told_poll {A : List Submission} {C : List Settlement} (h : w.Ledger A C)
    (hw : w.Orderly) {a : Submission} (ha : a ∈ A) {t : Nat} {q : Progress}
    (ht : w.tasks.get? t = some (.request a.request q)) {o : Except TransportError Container}
    (ho : w.outcomeOf t = some o) : (w.act (.poll t)).told = w.told ++ a.call.tells o := by
  have hcalling : w.calling t = some a.request := by
    have hkey : a.request.purpose.key? = some a.key := by rw [h.purposes a ha]; rfl
    rw [calling, ht, Option.bind_some, Task.call?_request hkey]
  obtain ⟨b, hb, hrequest, -, -, v, p, hv, hp, hact⟩ := h.completing hw hcalling ho
  have hkey : b.key = a.key := h.key_eq hb ha (congrArg Request.purpose hrequest)
  cases List.inj_on_of_nodup_map h.distinct hb ha hkey
  rw [hact, (quiet_closeUnheld _).untold.told]
  change World.told ((v.setProxy a.proxy (p.leave a.number).1).complete a.call o) = _
  rw [told_complete, ← hv.told]
  rfl

/-- **The completion of a call is given what the call is settled with**, and nothing else. -/
theorem telling_run {t : Nat} {a : Submission} (ms : List Move) {w : World} {A : List Submission}
    {C : List Settlement} {q : Progress} (hw : w.Orderly) (h : w.Ledger A C) (ha : a ∈ A)
    (ht : w.tasks.get? t = some (.request a.request q)) :
    observe (telling t) w ms = (observe (settled t) w ms).flatMap a.call.tells := by
  induction ms generalizing w A C q with
  | nil => rfl
  | cons m ms ih =>
    have hw' := orderly_act hw m
    have ih {p : Progress} := ih (q := p) hw' (ledger_act h hw m) (List.mem_append_left _ ha)
    rw [observe_cons, observe_cons, List.flatMap_append]
    by_cases hm : m.polled = some t
    · obtain rfl := Move.eq_poll hm
      rw [settled_poll]
      cases ho : w.outcomeOf t with
      | none =>
        obtain ⟨q', ht'⟩ := waits_of_outcomeOf ht ho
        rw [telling_of_waiting hw ho]
        exact ih ht'
      | some o =>
        obtain ⟨ht', hlt'⟩ := ended_of_settle hw ho
        rw [telling_poll, h.told_poll hw ha ht ho, List.drop_left, telling_ended ms hw' ht' hlt',
          settled_ended ms hw' ht' hlt', Option.toList_some, List.flatMap_singleton,
          List.flatMap_nil]
    · rw [telling_of_ne hm, settled_of_ne hm]
      exact ih (task_act hw hm ht)

/-! ## 6. All three ways -/

/-- The connection of a call depends on the buses and the objects. -/
theorem Connected.congr {p : Proxy} {m : Method} {l : Line} (h : w.Connected p m l)
    (hbuses : w'.buses = w.buses) (hobjects : w'.objects = w.objects) : w'.Connected p m l := by
  have hbus : w'.bus l.bus = w.bus l.bus := by rw [bus, bus, hbuses]
  exact
    { h with
      isOpen := by rw [hbus]; exact h.isOpen
      found := by rw [hbus]; exact h.found
      serves := by rw [hobjects]; exact h.serves }

/-- The call of the task `t`, handed over by the first of the moves `ms`, fails at once if its token
has fired, and is transparent if not. -/
structure Carried (w : World) (t : Nat) (r : Request) (m : Method) (l : Line) (ms : List Move) :
    Prop where
  cancelled : r.cancel.any w.hasFired = true → w.Refused t .cancelled
  transparent : r.cancel.any w.hasFired = false → w.Transparent t r m l ms

/-- What the calls of a method by the proxy `p` come to that find their object. -/
structure RpcTransparent (w : World) (id : Nat) (p : Proxy) (m : Method) : Prop where
  /-- What is sent are the arguments of the method, packed against its input. -/
  packed : ∀ {mode args c}, prepare m mode p.convention args = .ok c →
    ∃ vs, args.take m.input.length = vs.map .value ∧ Container.pack m.input vs = .ok c.body
  /-- A call that somebody waits for, whatever happens before it is handed over and after that. -/
  asked : ∀ {args c l mid after}, prepare m .sync p.convention args = .ok c →
    (∀ n ∈ mid, Move.polled n ≠ some w.nextTask) →
    (w.run (.ask (callRequest p m c .answer) :: mid)).Connected p m l →
    (w.run (.ask (callRequest p m c .answer) :: mid)).Carried w.nextTask (callRequest p m c .answer)
      m l (.poll w.nextTask :: after)
  /-- The same as it is run: the caller gets the direct result, or is told of its token, which has
  fired, or of the deadline, which has passed. -/
  sync : ∀ {args c l}, prepare m .sync p.convention args = .ok c → w.Connected p m l →
    ∃ result, (w.callMethodSync p m args).2 = some result ∧
      ((result = direct m l.handler c.body.values ∧
          (w.callMethodSync p m args).1.handlingsFor w.invocations.size
            = [⟨l.object, w.invocations.size, m.name, c.body.values⟩]) ∨
        (result = .error (.transport .cancelled) ∧
          c.cancel.any (w.callMethodSync p m args).1.hasFired = true) ∨
        (result = .error (.transport .timeout) ∧
          w.deadlineOf l.bus (callRequest p m c .answer) ≤ (w.callMethodSync p m args).1.now))
  /-- An asynchronous call, whatever happens before it is handed over and after that: its handler is
  given what it comes to. -/
  async : ∀ {args c l mid after}, prepare m .async p.convention args = .ok c →
    (∀ n ∈ mid, Move.polled n ≠ some w.nextTask) →
    (w.run (.callAsync id m args :: mid)).Connected p m l →
    (w.run (.callAsync id m args :: mid)).Carried w.nextTask
        (callRequest p m c (.complete id p.nextCall)) m l (.poll w.nextTask :: after) ∧
      observe (telling w.nextTask) (w.run (.callAsync id m args :: mid)) (.poll w.nextTask :: after)
        = (observe (settled w.nextTask) (w.run (.callAsync id m args :: mid))
            (.poll w.nextTask :: after)).flatMap (PendingCall.tells ⟨m, c.cancel, c.completion⟩)
  /-- An error of a domain, with which the handler fails, reaches the caller unchanged. -/
  domain : ∀ {f : SyncHandler} {args : List Value} {e : DomainError} {context : Option String},
    f args = .error { cause := .domain e, context } →
      direct m f args = .error (.transport (.remote (.domain e)))

section Proxy

variable {id : Nat} {p : Proxy} {m : Method} {l : Line} {c : PreparedCall} {args : List Argument}

theorem carried_connected {purpose : Purpose} {t : Nat} (h : w.Sound) (hc : w.Connected p m l)
    (haimed : p.target.interface = p.interface.name) (hbody : c.body.tags = m.input)
    (ht : w.tasks.get? t = some (.request (callRequest p m c purpose) .unsent))
    (after : List Move) :
    w.Carried t (callRequest p m c purpose) m l (.poll t :: after) where
  cancelled := fun hcancel => refused_connected h hc hcancel ht
  transparent := fun hcancel => transparent_connected h hc haimed hbody hcancel ht after

/-- **Waiting for a call that is connected** gives the direct result, unless the token or the
deadline comes between. -/
theorem sync_connected (h : w.Sound) (hbelow : ∀ t, w.outcomes.get? t ≠ none → t < w.nextTask)
    (haimed : p.target.interface = p.interface.name)
    (hprepare : prepare m .sync p.convention args = .ok c) (hc : w.Connected p m l) :
    ∃ result, (w.callMethodSync p m args).2 = some result ∧
      ((result = direct m l.handler c.body.values ∧
          (w.callMethodSync p m args).1.handlingsFor w.invocations.size
            = [⟨l.object, w.invocations.size, m.name, c.body.values⟩]) ∨
        (result = .error (.transport .cancelled) ∧
          c.cancel.any (w.callMethodSync p m args).1.hasFired = true) ∨
        (result = .error (.transport .timeout) ∧
          w.deadlineOf l.bus (callRequest p m c .answer) ≤ (w.callMethodSync p m args).1.now)) := by
  have hr : (callRequest p m c .answer).purpose = .answer := rfl
  have hcall : w.callMethodSync p m args
      = ((w.await (callRequest p m c .answer)).1,
          (w.await (callRequest p m c .answer)).2.map (readReply m)) := by
    rw [callMethodSync, hprepare]
  have hbody := tags_prepare hprepare
  obtain ⟨steps, hawait⟩ := await_run h hbelow hr
  have hu := h.act (.ask (callRequest p m c .answer))
  have hask := act_ask w hr
  have ht : (w.act (.ask (callRequest p m c .answer))).tasks.get? w.nextTask
      = some (.request (callRequest p m c .answer) .unsent) := by
    rw [hask]
    exact Table.get?_insert_self _ _ _
  have hcu : (w.act (.ask (callRequest p m c .answer))).Connected p m l :=
    hc.congr (by rw [hask]) (by rw [hask])
  rw [hcall]
  cases hcancel : c.cancel.any w.hasFired with
  | true =>
    -- The token has fired before: the first poll is the last.
    have hrefused := refused_connected hu hcu (by rw [hask]; exact hcancel) ht
    rw [hawait, observe_cons, hrefused.settled]
    refine ⟨_, rfl, Or.inr (Or.inl ⟨rfl, ?_⟩)⟩
    exact (later_run _ h.orderly).cancelled hcancel
  | false =>
    have htransparent := transparent_connected hu hcu haimed hbody (by rw [hask]; exact hcancel) ht
      steps
    obtain ⟨o, ho, hm, hf⟩ := hc.handlers
    have hserved := await_served h hr hc.link (hc.route haimed hcancel .answer) rfl ho hm hbody hf
    obtain ⟨x, hx⟩ := Option.ne_none_iff_exists'.mp hserved
    have hmem : x ∈ observe (settled w.nextTask) (w.act (.ask (callRequest p m c .answer)))
        (.poll w.nextTask :: steps) := by
      rw [hawait] at hx
      exact List.mem_of_mem_head? hx
    have hsize : (w.act (.ask (callRequest p m c .answer))).invocations.size
        = w.invocations.size := by
      rw [hask]
    have hdeadline : (w.act (.ask (callRequest p m c .answer))).deadlineOf l.bus
        (callRequest p m c .answer) = w.deadlineOf l.bus (callRequest p m c .answer) := by
      rw [hask]
      rfl
    have houtcome := htransparent.outcome x hmem
    rw [hsize, hdeadline] at houtcome
    refine ⟨readReply m x, by rw [hx]; rfl, ?_⟩
    rw [hawait]
    rcases houtcome with ⟨hresult, hran⟩ | ⟨rfl, hfired⟩ | ⟨rfl, hpassed⟩
    · exact Or.inl ⟨hresult, hran⟩
    · exact Or.inr (Or.inl ⟨rfl, hfired⟩)
    · exact Or.inr (Or.inr ⟨rfl, hpassed⟩)

/-- **Calls through a bus are transparent**, in each of the three ways to make them. -/
theorem rpc_transparent (before : List Move) (hp : (empty.run before).proxies.get? id = some p) :
    (empty.run before).RpcTransparent id p m := by
  have h : (empty.run before).Sound := sound_empty.run before
  have hbelow := outcomesBelow_run before
  have hledger : (empty.run before).Ledger (observe submissions empty before)
      (observe settlements empty before) := by
    simpa using ledger_run before orderly_empty ledger_empty
  have haimed := h.orderly.aimed hp
  generalize empty.run before = w at hp h hbelow hledger
  refine ⟨prepare_packs, ?_, sync_connected h hbelow haimed, ?_, direct_domain⟩
  · intro args c l mid after hprepare hmid hc
    refine carried_connected (h.run _) hc haimed (tags_prepare hprepare) ?_ after
    refine task_run mid (orderly_act h.orderly _) hmid ?_
    rw [act_ask w rfl]
    exact Table.get?_insert_self _ _ _
  · intro args c l mid after hprepare hmid hc
    obtain ⟨e, he, -⟩ | ⟨c', hc', hcall, hone⟩ := submissions_callAsync hp m args
    · rw [hprepare] at he
      cases he
    · rw [hprepare] at hc'
      cases hc'
      have hact : w.act (.callAsync id m args)
          = (w.setProxy id (p.enter m c).1).spawn
              (.request (callRequest p m c (.complete id p.nextCall)) .unsent) := by
        simp only [act, withProxy, hp, Option.elim_some, hcall]
      have htask : (w.act (.callAsync id m args)).tasks.get? w.nextTask
          = some (.request (callRequest p m c (.complete id p.nextCall)) .unsent) := by
        rw [hact, spawn_eq]
        exact Table.get?_insert_self _ _ _
      have ht := task_run mid (orderly_act h.orderly _) hmid htask
      refine ⟨carried_connected (h.run _) hc haimed (tags_prepare hprepare) ht after, ?_⟩
      have hledger' := ledger_run (.callAsync id m args :: mid) h.orderly hledger
      rw [observe_cons, hone] at hledger'
      exact telling_run (.poll w.nextTask :: after) (h.run _).orderly hledger'
        (List.mem_append_right _ List.mem_cons_self) ht

end Proxy

/-! ## 7. A call that is echoed -/

/-- Two connections, and a proxy at the second for what the first exports. -/
def echoProxy : List Move :=
  echoBus ++
    [.arrange (.addProxy "echo" (.bus 0 ":1.2") echoInterface ":1.1" "/echo" none .none .full)]

/-- The line of its calls. -/
def echoLine : Line where
  bus := 0
  me := ":1.2"
  object := 0
  handler := fun args => .ok (.tuple args)

theorem connected_echo {p : Proxy} (hp : (empty.run echoProxy).proxies.get? 0 = some p) :
    (empty.run echoProxy).Connected p echo echoLine := by
  cases (Option.some.inj hp : _ = p)
  exact
    { link := rfl
      isOpen := by decide +kernel
      found := ⟨":1.1", by decide +kernel, by decide +kernel⟩
      serves := ⟨_, rfl, rfl, by rfl⟩
      declared := by decide +kernel
      ordinary := by decide +kernel }

/-- The proxy's calls find their object, and a text comes back as it was sent. -/
theorem rpc_transparent_echo :
    ∃ p, (empty.run echoProxy).proxies.get? 0 = some p ∧
      (empty.run echoProxy).Connected p echo echoLine ∧
      (empty.run echoProxy).RpcTransparent 0 p echo ∧
      direct echo echoLine.handler [.string "hello"] = .ok [.string "hello"] :=
  ⟨_, rfl, connected_echo rfl, rpc_transparent echoProxy rfl, by rfl⟩

end World

end MessageBus
