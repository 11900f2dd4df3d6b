/-
# Operations on properties that fail

Reading a property, writing one and loading all of them each have steps that may fail, and each
changes the cache of its proxy.  An operation that fails has not changed the cache
(`World.failures_change_nothing`), for two reasons.

Writing changes the cache before its request is packed.  What is packed there is an interface's name,
a property's name and a box, and these can be packed whatever they are, for a box is passed on as it
is, however deep it is (`Container.pack_getBody`, `Container.pack_setBody`).  So there is no failure
after the change: writing fails only as its checks do (`Proxy.startSet_eq_error`), and then nothing
has been sent, either.

Reading and loading change the cache after they have read the reply, and not if it cannot be read.
While they wait for it, other things may happen, and the cache may learn from those.  Nothing that
happens by itself makes it learn, except that signals are handed out; those that wait for a proxy are
on the bus of the proxy's own connection (`World.queued_for`), and a bus answers at once.
-/
import MessageBus.Proofs.Bulk

namespace MessageBus

/-! ## 1. What is packed -/

namespace Container

/-- The arguments of a request for one property can be packed, whatever the names are, -/
theorem pack_getBody (interface name : String) :
    pack [.string, .string] [.string interface, .string name] = .ok (getBody interface name) :=
  pack_of_canonical _ (by decide)

/-- and so can those of a request to write one, whatever is in the box, -/
theorem pack_setBody (interface name : String) (x : Variant) :
    pack [.string, .string, .variant] [.string interface, .string name, x.toValue]
      = .ok (setBody interface name x) :=
  pack_of_canonical _ (by decide)

/-- and that of a request for all of them. -/
theorem pack_getAllBody (interface : String) :
    pack [.string] [.string interface] = .ok (getAllBody interface) :=
  pack_of_canonical (.cons (.string _) .nil) (by decide)

end Container

namespace Proxy

variable {p : Proxy} {name : String} {e : CallError}

/-- Why a property is not given. -/
theorem property_eq_error {need : Need} : p.property name need = .error e ↔
    (p.interface.property? name = none ∧ e = .unknownMember name) ∨
      ∃ q, p.interface.property? name = some q ∧ need.allowedBy q.access = false ∧
        e = .propertyAccess name need := by
  unfold property
  cases hq : p.interface.property? name with
  | none =>
    constructor
    · intro h
      cases h
      exact Or.inl ⟨rfl, rfl⟩
    · rintro (⟨-, rfl⟩ | ⟨q, hq, -⟩)
      · rfl
      · cases hq
  | some q =>
    change (if need.allowedBy q.access then _ else _) = Except.error e ↔ _
    cases h : need.allowedBy q.access with
    | false =>
      constructor
      · intro h
        cases h
        exact Or.inr ⟨q, rfl, h, rfl⟩
      · rintro (⟨hq, -⟩ | ⟨q, -, -, rfl⟩)
        · cases hq
        · rfl
    | true => simp [h]

/-- **Why writing a property fails**: it is not declared, it may not be written, or the value does
not fit its tag. -/
theorem startSet_eq_error {v : Value} : p.startSet name v = .error e ↔
    (p.interface.property? name = none ∧ e = .unknownMember name) ∨
      (∃ q, p.interface.property? name = some q ∧ q.access.writable = false ∧
        e = .propertyAccess name .write) ∨
      ∃ q f, p.interface.property? name = some q ∧ q.access.writable = true ∧
        Variant.make q.tag v = .error f ∧ e = .codec f := by
  cases hq : p.property name .write with
  | error e' =>
    have hstart : p.startSet name v = .error e' := by rw [startSet, hq]; rfl
    have hcases : (p.interface.property? name = none ∧ e' = .unknownMember name) ∨
        ∃ q, p.interface.property? name = some q ∧ q.access.writable = false ∧
          e' = .propertyAccess name .write := property_eq_error.mp hq
    rw [hstart, Except.error.injEq]
    grind
  | ok q =>
    obtain ⟨hdeclared, hallowed⟩ := property_iff.mp hq
    have hwritable : q.access.writable = true := hallowed
    cases hx : Variant.make q.tag v with
    | error f =>
      have hstart : p.startSet name v = .error (.codec f) := by
        rw [startSet, hq]
        change ((Variant.make q.tag v).mapError CallError.codec >>= _) = _
        rw [hx]
        rfl
      rw [hstart, Except.error.injEq]
      grind
    | ok x =>
      -- There is nothing left that fails.
      have hstart := startSet_eq_ok.mpr ⟨q, x, hq, hx, rfl, rfl⟩
      rw [hstart]
      grind

/-- A reply that cannot be read leaves the proxy as it is, if it was asked for one property, -/
theorem finishGet_of_error {reply : Except TransportError Container}
    (h : readGet reply = .error e) : p.finishGet name reply = (p, .error e) := by
  rw [finishGet, h]

/-- and if it was asked for all of them. -/
theorem finishInit_of_error {reply : Except TransportError Container}
    (h : readGetAll reply = .error e) : p.finishInit reply = (p, .error e) := by
  rw [finishInit, h]

/-- Loading fails only if the reply cannot be read. -/
theorem readGetAll_of_error {reply : Except TransportError Container}
    (h : (p.finishInit reply).2 = .error e) : readGetAll reply = .error e := by
  unfold finishInit at h
  split at h
  · cases h
  · rename_i he
    cases h
    exact he

end Proxy

namespace World

variable {w : World} {m : Move} {x : Nat} {a : Account} {p : Proxy}

/-! ## 2. Moves from which a proxy learns nothing -/

/-- A proxy knows what it knew if all that it may learn is what it knows. -/
theorem account_kept (hw : w.Orderly) (ha : w.account? x = some a)
    (hlearns : ∀ p cache, w.Learns m x p cache → cache = p.cache) :
    (w.act m).account? x = some a := by
  refine act_keeps hw (P := fun v => v.account? x = some a) (fun {v v'} hc hv => ?_) ha
  rcases hc.account x with hsame | ⟨hnone, -⟩ | ⟨p, cache, hp, hlearned, hnew⟩
  · exact hsame.trans hv
  · rw [hv] at hnone
    cases hnone
  · rw [account?, hp, Option.map_some] at hv
    rw [hnew, ← hv, hlearns p cache hlearned]
    rfl

/-- A move of an operation on properties that waits for its reply, or fails. -/
inductive Futile (w : World) : Move → Prop where
  /-- A value is set that cannot be set. -/
  | set {y : Nat} {name : String} {v : Value}
      (h : ∀ p, w.proxies.get? y = some p → ∃ e, p.startSet name v = .error e) :
      Futile w (.setProperty y name v)
  /-- A request is made, -/
  | ask (r : Request) : Futile w (.ask r)
  /-- and looked at, -/
  | poll {t : Nat} {r : Request} {progress : Progress}
      (ht : w.tasks.get? t = some (.request r progress)) : Futile w (.poll t)
  /-- and what has come brings no value -/
  | endGet {y t : Nat} {name : String}
      (h : ∀ reply, w.outcomes.get? t = some reply → ∃ e, Proxy.readGet reply = .error e) :
      Futile w (.endGet y name t)
  /-- or no values. -/
  | endInit {y t : Nat}
      (h : ∀ reply, w.outcomes.get? t = some reply → ∃ e, Proxy.readGetAll reply = .error e) :
      Futile w (.endInit y t)

/-- Setting a value that cannot be set changes nothing. -/
theorem setProperty_of_error {name : String} {v : Value} {e : CallError}
    (h : p.startSet name v = .error e) : w.setProperty x p name v = (w, .error e) := by
  rw [setProperty, h]

/-- **From an operation that fails no proxy learns anything.** -/
theorem Futile.account (h : w.Futile m) (hw : w.Orderly) (ha : w.account? x = some a) :
    (w.act m).account? x = some a := by
  -- Only one that is handed a signal, or whose own operation ends, could learn.
  cases h with
  | @set y name v h =>
    have hact : w.act (.setProperty y name v) = w := by
      cases hp : w.proxies.get? y with
      | none => rw [act, withProxy, hp]; rfl
      | some p =>
        obtain ⟨e, he⟩ := h p hp
        rw [act, withProxy, hp, Option.elim_some, setProperty_of_error he]
    rw [hact]
    exact ha
  | ask r =>
    refine account_kept hw ha fun p cache hlearns => ?_
    cases hlearns with
    | told _ hs _ => cases hs with | delivered hs => cases hs
  | poll ht =>
    refine account_kept hw ha fun p cache hlearns => ?_
    cases hlearns with
    | told _ hs _ =>
      cases hs with
      | delivered hs =>
        simp only [handed, ht] at hs
        cases hs
  | endGet h =>
    refine account_kept hw ha fun p cache hlearns => ?_
    cases hlearns with
    | get _ name ht =>
      obtain ⟨e, he⟩ := h _ ht
      rw [Proxy.finishGet_of_error he]
    | told _ hs _ => cases hs with | delivered hs => cases hs
  | endInit h =>
    refine account_kept hw ha fun p cache hlearns => ?_
    cases hlearns with
    | init _ ht =>
      obtain ⟨e, he⟩ := h _ ht
      rw [Proxy.finishInit_of_error he]
    | told _ hs _ => cases hs with | delivered hs => cases hs

/-! ## 3. Where signals wait for a proxy -/

/-- **A signal that waits for a proxy** waits on the bus of the proxy's connection. -/
theorem queued_for (ms : List Move) : ∀ {n : Nat} {c : String} {s : SignalMessage},
    (.proxy x, s) ∈ ((empty.run ms).bus n).queue c →
      ∃ a me, (empty.run ms).account? x = some a ∧ a.link = .bus n me := by
  induction ms using List.reverseRecOn with
  | nil =>
    intro n c s hs
    cases hs
  | append_singleton ms m ih =>
    intro n c s hs
    rw [run_append, run_cons, run_nil] at hs ⊢
    have hold : ∀ {c s}, (.proxy x, s) ∈ ((empty.run ms).bus n).queue c →
        ∃ a me, ((empty.run ms).act m).account? x = some a ∧ a.link = .bus n me := by
      intro c s hs
      obtain ⟨a, me, ha, hlink⟩ := ih hs
      obtain ⟨cache, hact⟩ := account_act (orderly_run ms) ha m
      exact ⟨_, me, hact, hlink⟩
    cases motion_act (empty.run ms) n m with
    | opened hn =>
      rw [hn, bus_opened] at hs
      cases hs
    | still hstill _ _ =>
      rw [hstill.bus.queue] at hs
      exact hold hs
    | connect =>
      rw [bus_connect, Bus.queue_connect] at hs
      exact hold hs
    | @emit _ sender s' y hbroadcast hy hact =>
      rw [bus_emitted hact, Bus.queue_emit (attended_run n ms).orderly hy, List.mem_append] at hs
      rcases hs with hs | hs
      · exact hold hs
      · -- It is put there for a subscription of the proxy.
        obtain ⟨subscription, htaker, heq⟩ := List.mem_map.mp hs
        obtain ⟨hsink, -⟩ := Prod.mk.inj heq
        obtain ⟨hmem, -⟩ := Bus.mem_takers.mp htaker
        obtain ⟨a, ha, hlink, -⟩ := known_run n ms subscription hmem x hsink
        obtain ⟨cache, hrun⟩ := account_act (orderly_run ms) ha m
        exact ⟨_, _, hrun, hlink⟩
    | deliver ht =>
      rw [(still_delivered ht).queue, Bus.queue_drain] at hs
      split at hs
      · cases hs
      · exact hold hs

/-- What happens by itself teaches nothing to a proxy whose connection has a script. -/
theorem account_steps (ms : List Move) {k : Nat} (hlink : a.link = .scripted k)
    (ha : (empty.run ms).account? x = some a) (steps : List Move)
    (hsteps : ∀ m ∈ steps, m.isStep = true) :
    (empty.run (ms ++ steps)).account? x = some a := by
  induction steps using List.reverseRecOn with
  | nil =>
    rw [List.append_nil]
    exact ha
  | append_singleton steps m ih =>
    have hbefore := ih fun n hn => hsteps n (List.mem_append_left _ hn)
    have hm : m.isStep = true := hsteps m (by simp)
    rw [← List.append_assoc, run_append, run_cons, run_nil]
    refine account_kept (orderly_run _) hbefore fun p cache hlearns => ?_
    cases hlearns with
    | set _ => cases hm
    | get _ _ _ => cases hm
    | init _ _ => cases hm
    | told _ hs _ =>
      cases hs with
      | delivered hs =>
        obtain ⟨a', me, ha', hbus⟩ := queued_for (ms ++ steps) (mem_queue_of_handed hs)
        cases hbefore.symm.trans ha'
        rw [hlink] at hbus
        cases hbus
      | told _ _ => cases hm

/-! ## 4. Waiting for a reply -/

/-- **While a proxy waits for an answer about properties it learns nothing.** -/
theorem account_await (ms : List Move) (hp : (empty.run ms).proxies.get? x = some p)
    (member : String) (body : Container) :
    ((empty.run ms).await (plainRequest p (.properties p.target member body)
      .answer)).1.account? x = some p.account := by
  have hw := orderly_run ms
  have ha : (empty.run ms).account? x = some p.account := by rw [account?, hp, Option.map_some]
  generalize hr : plainRequest p (.properties p.target member body) .answer = r
  have hanswer : r.purpose = .answer := by rw [← hr]; rfl
  have hasked : ((empty.run ms).act (.ask r)).account? x = some p.account :=
    (Futile.ask r).account hw ha
  have ht : ((empty.run ms).act (.ask r)).tasks.get? (empty.run ms).nextTask
      = some (.request r .unsent) := by
    rw [act_ask _ hanswer]
    exact Table.get?_insert_self _ _ _
  have hpolled := (Futile.poll ht).account (orderly_act hw _) hasked
  cases hlink : p.link with
  | bus b me =>
    -- A bus answers at once.
    have hforProperties : ForProperties b me r := hr ▸ forProperties_plainRequest hlink member body _
    have hanswered : ∃ o, ((empty.run ms).act (.ask r)).outcomeOf (empty.run ms).nextTask
        = some o := by
      rcases outcomeOf_forProperties hforProperties ht with ⟨e, he⟩ | ⟨id, o, -, ho⟩
      · exact ⟨_, he⟩
      · exact ⟨_, ho⟩
    obtain ⟨o, ho⟩ := hanswered
    obtain ⟨steps, hsteps, hawait, -⟩ := await_settled hw hanswer ho
    rw [hawait]
    rcases hsteps with rfl | rfl
    · exact hpolled
    · rw [run_cons, run_cons, run_cons, run_nil,
        act_poll_ended (ended_of_settle (orderly_act hw _) ho).1]
      exact hpolled
  | scripted k =>
    have hasked : (empty.run (ms ++ [.ask r, .poll (empty.run ms).nextTask])).account? x
        = some p.account := by
      rw [run_append]
      exact hpolled
    have hsound : (((empty.run ms).act (.ask r)).act (.poll (empty.run ms).nextTask)).Sound :=
      ((sound_empty.run ms).act _).act _
    obtain ⟨steps, hsteps, hrun⟩ := runs_runToOutcome (empty.run ms).nextTask
      (((empty.run ms).act (.ask r)).act (.poll (empty.run ms).nextTask)).workload hsound
    rw [await_eq hw hanswer]
    have hkept := account_steps _ hlink hasked steps hsteps
    rw [run_append, run_append] at hkept
    simp only [hrun]
    exact hkept

/-! ## 5. Operations -/

/-- What the proxy `x` has cached. -/
def cache? (w : World) (x : Nat) : Option Cache := (w.proxies.get? x).map (·.cache)

theorem cache?_of_account (ha : w.account? x = some p.account) : w.cache? x = some p.cache := by
  obtain ⟨p', hp', haccount⟩ := Option.map_eq_some_iff.mp ha
  rw [cache?, hp', Option.map_some]
  exact congrArg some (Account.ext_iff.mp haccount).2.2.2

/-- Putting a proxy in its own place changes no cache. -/
theorem cache?_setProxy (hp : w.proxies.get? x = some p) : (w.setProxy x p).cache? x = w.cache? x := by
  rw [cache?, cache?, setProxy, Table.get?_insert_self, hp]

/-- The operations of the proxy `p`, of number `x`, on properties, when they fail. -/
structure FailsCleanly (w : World) (x : Nat) (p : Proxy) : Prop where
  /-- Setting a property fails only if it is not declared, or may not be written, or the value does
  not fit its tag, -/
  set_error : ∀ {name v e}, (w.setProperty x p name v).2 = .error e ↔
    (p.interface.property? name = none ∧ e = .unknownMember name) ∨
      (∃ q, p.interface.property? name = some q ∧ q.access.writable = false ∧
        e = .propertyAccess name .write) ∨
      ∃ q f, p.interface.property? name = some q ∧ q.access.writable = true ∧
        Variant.make q.tag v = .error f ∧ e = .codec f
  /-- and then it changes nothing at all: nothing is cached, and nothing is sent. -/
  set : ∀ {name v e w'}, w.setProperty x p name v = (w', .error e) → w' = w
  /-- Getting a property that fails leaves the cache as it is, -/
  get : ∀ {name e w'}, w.getProperty x p name = (w', some (.error e)) → w'.cache? x = some p.cache
  /-- and so does loading all of them. -/
  load : ∀ {e w'}, w.loadProperties x p = (w', some (.error e)) → w'.cache? x = some p.cache
  /-- It is the same if a property is got or set as a member. -/
  member : ∀ {name i args e w'}, p.interface.member? name = some (.property i) →
    w.invokeMember x p name args = (w', some (.error e)) →
      w'.cache? x = some p.cache ∧ (args ≠ [] → w' = w)

theorem setProperty_eq_error {name : String} {v : Value} {e : CallError} :
    (w.setProperty x p name v).2 = .error e ↔ p.startSet name v = .error e := by
  unfold setProperty
  split <;> rename_i h <;> simp [h]

theorem getProperty_failed (ms : List Move) (hp : (empty.run ms).proxies.get? x = some p)
    {name : String} {e : CallError} {w' : World}
    (h : (empty.run ms).getProperty x p name = (w', some (.error e))) :
    w'.cache? x = some p.cache := by
  unfold getProperty at h
  split at h
  · cases h
    rw [cache?, hp]
    rfl
  · cases h
  · rename_i call hstart
    obtain ⟨-, -, rfl⟩ := Proxy.startGet_eq_inr hstart
    have ha := account_await ms hp "Get" (getBody p.target.interface name)
    split at h
    · cases h
    · rename_i v reply hawait
      rw [hawait] at ha
      split at h
      · cases h
      · rename_i q hq
        have hread : Proxy.readGet reply = .error e := by
          rw [← Proxy.finishGet_snd q name]
          exact Option.some.inj (congrArg Prod.snd h)
        rw [Proxy.finishGet_of_error hread] at h
        cases h
        exact (cache?_setProxy hq).trans (cache?_of_account ha)

theorem loadProperties_failed (ms : List Move) (hp : (empty.run ms).proxies.get? x = some p)
    {e : CallError} {w' : World}
    (h : (empty.run ms).loadProperties x p = (w', some (.error e))) :
    w'.cache? x = some p.cache := by
  unfold loadProperties at h
  rw [Proxy.startInit_eq] at h
  have ha := account_await ms hp "GetAll" (getAllBody p.target.interface)
  simp only at h
  split at h
  · cases h
  · rename_i v reply hawait
    rw [hawait] at ha
    split at h
    · cases h
    · rename_i q hq
      have hsnd : (q.finishInit reply).2 = .error e := Option.some.inj (congrArg Prod.snd h)
      rw [Proxy.finishInit_of_error (Proxy.readGetAll_of_error hsnd)] at h
      cases h
      exact (cache?_setProxy hq).trans (cache?_of_account ha)

theorem invokeMember_failed (ms : List Move) (hp : (empty.run ms).proxies.get? x = some p)
    {name : String} {i : Nat} {args : List Argument} {e : CallError} {w' : World}
    (hmember : p.interface.member? name = some (.property i))
    (h : (empty.run ms).invokeMember x p name args = (w', some (.error e))) :
    w'.cache? x = some p.cache ∧ (args ≠ [] → w' = empty.run ms) := by
  have hcache : (empty.run ms).cache? x = some p.cache := by rw [cache?, hp]; rfl
  have hunchanged : w' = empty.run ms →
      w'.cache? x = some p.cache ∧ (args ≠ [] → w' = empty.run ms) := by
    rintro rfl
    exact ⟨hcache, fun _ => rfl⟩
  unfold invokeMember at h
  rw [hmember] at h
  simp only at h
  split at h
  · exact hunchanged (congrArg Prod.fst h).symm
  · rename_i q _
    match args with
    | [] =>
      refine ⟨?_, fun hne => absurd rfl hne⟩
      obtain ⟨v, result, hget⟩ : ∃ v result,
          (empty.run ms).getProperty x p q.name = (v, result) := ⟨_, _, rfl⟩
      simp only [hget, Prod.mk.injEq, Option.map_eq_some_iff] at h
      obtain ⟨rfl, r, rfl, hr⟩ := h
      cases r with
      | error e' => exact getProperty_failed ms hp hget
      | ok v => cases hr
    | [.value v] =>
      refine hunchanged ?_
      obtain ⟨u, result, hset⟩ : ∃ u result,
          (empty.run ms).setProperty x p q.name v = (u, result) := ⟨_, _, rfl⟩
      simp only [hset, Prod.mk.injEq, Option.some.injEq] at h
      obtain ⟨rfl, hr⟩ := h
      cases result with
      | error e' =>
        have hstart := setProperty_eq_error.mp (congrArg Prod.snd hset)
        rw [setProperty_of_error hstart] at hset
        exact (congrArg Prod.fst hset).symm
      | ok _ => cases hr
    | [.cancel _] | [.reply _] | [.finish _] => exact hunchanged (congrArg Prod.fst h).symm
    | a :: _ :: _ => cases a <;> exact hunchanged (congrArg Prod.fst h).symm

/-- **Operations on properties that fail change nothing on the proxy.**  What they pack for their
requests can always be packed.  Each operation, as a whole, leaves the cache as it is if it fails,
whatever the connection does, and setting leaves everything as it is.  Other things may happen while
a reply is waited for, but no proxy learns anything from the moves of an operation that fails; and
its end leaves the proxy as it is, whatever the reply was. -/
theorem failures_change_nothing :
    (∀ (interface name : String) (y : Variant),
      Container.pack [.string, .string] [.string interface, .string name]
          = .ok (getBody interface name) ∧
        Container.pack [.string, .string, .variant]
            [.string interface, .string name, y.toValue] = .ok (setBody interface name y) ∧
        Container.pack [.string] [.string interface] = .ok (getAllBody interface)) ∧
    (∀ (ms : List Move) (x : Nat) (p : Proxy), (empty.run ms).proxies.get? x = some p →
      (empty.run ms).FailsCleanly x p) ∧
    (∀ (ms : List Move) (m : Move), (empty.run ms).Futile m →
      ∀ x p, (empty.run ms).proxies.get? x = some p →
        ((empty.run ms).act m).cache? x = some p.cache) ∧
    ∀ (p : Proxy) (name : String) (reply : Except TransportError Container) (e : CallError),
      ((p.finishGet name reply).2 = .error e → (p.finishGet name reply).1 = p) ∧
        ((p.finishInit reply).2 = .error e → (p.finishInit reply).1 = p) := by
  refine ⟨?_, ?_, ?_, ?_⟩
  · intro interface name y
    exact ⟨Container.pack_getBody interface name, Container.pack_setBody interface name y,
      Container.pack_getAllBody interface⟩
  · intro ms x p hp
    refine ⟨setProperty_eq_error.trans Proxy.startSet_eq_error, fun h => ?_,
      getProperty_failed ms hp, loadProperties_failed ms hp, invokeMember_failed ms hp⟩
    have hstart := setProperty_eq_error.mp (congrArg Prod.snd h)
    rw [setProperty_of_error hstart] at h
    exact (congrArg Prod.fst h).symm
  · intro ms m hm x p hp
    have ha : (empty.run ms).account? x = some p.account := by rw [account?, hp, Option.map_some]
    exact cache?_of_account (hm.account (orderly_run ms) ha)
  · intro p name reply e
    refine ⟨fun h => ?_, fun h => ?_⟩
    · rw [Proxy.finishGet_of_error ((p.finishGet_snd name reply).symm.trans h)]
    · rw [Proxy.finishInit_of_error (Proxy.readGetAll_of_error h)]

/-! ## 6. A gauge that is gone -/

/-- The proxy of the gauge has set the note, and its connection is closed. -/
def goneMoves : List Move := aheadMoves ++ [.arrange (.close 0 ":1.2")]

/-- Neither getting the level, nor loading everything, nor setting the level to what it cannot be
takes the note from the cache. -/
theorem failures_change_nothing_gone :
    (empty.run goneMoves).proxies.get? 0 = some aheadProxy ∧
      ((empty.run goneMoves).getProperty 0 aheadProxy "Level").2
        = some (.error (.transport .disconnected)) ∧
      ((empty.run goneMoves).getProperty 0 aheadProxy "Level").1.cache? 0
        = some aheadProxy.cache ∧
      ((empty.run goneMoves).loadProperties 0 aheadProxy).2
        = some (.error (.transport .disconnected)) ∧
      ((empty.run goneMoves).loadProperties 0 aheadProxy).1.cache? 0 = some aheadProxy.cache ∧
      ((empty.run goneMoves).setProperty 0 aheadProxy "Level" (.string "full")).2
        = .error (.codec (.typeMismatch (.int .int32) .string)) ∧
      ((empty.run goneMoves).setProperty 0 aheadProxy "Level" (.string "full")).1
        = empty.run goneMoves := by
  have hp : (empty.run goneMoves).proxies.get? 0 = some aheadProxy := by rfl
  have hfails := failures_change_nothing.2.1 goneMoves 0 aheadProxy hp
  have hget : ((empty.run goneMoves).getProperty 0 aheadProxy "Level").2
      = some (.error (.transport .disconnected)) := by rfl
  have hload : ((empty.run goneMoves).loadProperties 0 aheadProxy).2
      = some (.error (.transport .disconnected)) := by rfl
  have hset : ((empty.run goneMoves).setProperty 0 aheadProxy "Level" (.string "full")).2
      = .error (.codec (.typeMismatch (.int .int32) .string)) := by rfl
  exact ⟨hp, hget, hfails.get (Prod.ext rfl hget), hload, hfails.load (Prod.ext rfl hload), hset,
    hfails.set (Prod.ext rfl hset)⟩

end World

end MessageBus
