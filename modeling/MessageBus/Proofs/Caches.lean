/-
# Caches are well typed

A cache is written to in five ways: a value is set, one comes back, all come back, a notification
brings new values, and a notification takes some away.  None of them looks at the type of a value.
That what is cached for a property is canonical for its tag all the same (`World.caches_typed`) is
the work of those at the other end, who pack what they send, and it holds only if they go by the
same interface as the proxy.  So it has to be said of every object that is ever exported where the
proxy looks, under the name of the proxy's interface (`World.Uniform`).

Two things lie between the two ends.  A reply is laid by until somebody takes it up, and a
notification waits in a queue.  For a reply one goes back to the poll that has laid it by
(`World.replied_forProperties`).  A notification in a queue is harmless when it is put there, and
stays so (`World.queues_keep`): whether a signal keeps caches well typed depends on nothing but the
signal (`SignalMessage.Keeps`).
-/
import MessageBus.Proofs.Properties

namespace MessageBus

/-! ## 1. Well-typed caches -/

/-- Every name in the cache is that of a declared property, and its value is canonical for the
property's tag. -/
def Interface.Types (i : Interface) (c : Cache) : Prop :=
  ∀ name v, c.get? name = some v → ∃ q, i.property? name = some q ∧ Canonical q.tag v

namespace Interface

variable {i : Interface} {c : Cache}

theorem types_empty (i : Interface) : i.Types .empty := fun name v h => by cases h

theorem Types.insert (h : i.Types c) {name : String} {q : Property} {v : Value}
    (hq : i.property? name = some q) (hv : Canonical q.tag v) : i.Types (c.insert name v) := by
  intro n u hu
  rw [Table.get?_insert] at hu
  split at hu
  · rename_i heq
    cases hu
    exact ⟨q, heq ▸ hq, hv⟩
  · exact h n u hu

theorem Types.erase (h : i.Types c) (name : String) : i.Types (c.erase name) := by
  intro n u hu
  rw [Table.get?_erase] at hu
  split at hu
  · cases hu
  · exact h n u hu

theorem property?_name {name : String} {q : Property} (h : i.property? name = some q) :
    q.name = name := by simpa using List.find?_some h

/-- A declared property is the one that its name stands for. -/
theorem property?_of_nodup (hnodup : (i.properties.map Property.name).Nodup) {q : Property}
    (hq : q ∈ i.properties) : i.property? q.name = some q :=
  find?_of_nodup_map hnodup hq

end Interface

/-! ## 2. What services tell -/

namespace Service

variable {s : Service} {i : Interface} {cells : Cells}

/-- What is told of one property is the present value, boxed with the property's tag. -/
theorem readReply_eq_ok {q : Property} {x : Variant} :
    (s.readReply cells q).result = .ok (some x) ↔
      ∃ v, s.get cells q.name = some v ∧ Variant.make q.tag v = .ok x := by
  unfold readReply read
  cases s.get cells q.name with
  | none => simp [Logged.quiet]
  | some v => cases hx : Variant.make q.tag v <;> simp [hx, Except.map, Logged.quiet]

theorem propertyGet_eq_ok {name : String} {x : Variant} :
    (s.propertyGet i cells name).result = .ok (some x) ↔
      ∃ q, i.property? name = some q ∧ q.access.readable = true ∧
        (s.readReply cells q).result = .ok (some x) := by
  unfold propertyGet property
  cases i.property? name with
  | none => simp [Logged.quiet]
  | some q => by_cases hread : q.access.readable <;> simp [hread, Logged.quiet]

/-- What is told of all properties: the readable ones that have a value that fits. -/
theorem mem_propertyGetAll {e : String × Variant} :
    e ∈ (s.propertyGetAll i cells).result ↔
      ∃ q ∈ i.properties, q.access.readable = true ∧ q.name = e.1 ∧
        (s.readReply cells q).result = .ok (some e.2) := by
  obtain ⟨name, x⟩ := e
  simp only [propertyGetAll, List.mem_filterMap, List.mem_filter]
  constructor
  · rintro ⟨q, ⟨hq, hread⟩, h⟩
    split at h
    · rename_i y hy
      cases h
      exact ⟨q, hq, hread, rfl, hy⟩
    · cases h
  · rintro ⟨q, hq, hread, rfl, hx⟩
    exact ⟨q, ⟨hq, hread⟩, by simp only [hx]⟩

/-- No property is told of twice. -/
theorem nodup_propertyGetAll (hnodup : (i.properties.map Property.name).Nodup) :
    ((s.propertyGetAll i cells).result.map Prod.fst).Nodup := by
  have hreadable := (List.pairwise_map.mp hnodup).filter (·.access.readable)
  refine List.pairwise_map.mpr (hreadable.filterMap _ fun q q' hne e he e' he' => ?_)
  -- An entry has the name of its property.
  split at he <;> cases he
  split at he' <;> cases he'
  exact hne

/-- The answer to a request for one property brings a value that is canonical for its tag. -/
theorem typed_get {a name : String} {v : Option Value}
    (h : Proxy.readGet (s.answerProperties i cells "Get" (getBody a name).values).outcome = .ok v) :
    ∃ q u, i.property? name = some q ∧ v = some u ∧ Canonical q.tag u := by
  obtain ⟨x, hx, rfl⟩ := Proxy.readGet_replyGet.mp h
  obtain ⟨q, hq, -, hread⟩ := propertyGet_eq_ok.mp hx
  obtain ⟨u, -, hmake⟩ := readReply_eq_ok.mp hread
  exact ⟨q, x.value, hq, rfl, Variant.canonical_of_make hmake⟩

/-- The answer to a request for all properties makes a well-typed cache. -/
theorem typed_getAll (hnodup : (i.properties.map Property.name).Nodup) {a : String}
    {entries : List (Value × Value)}
    (h : Proxy.readGetAll (s.answerProperties i cells "GetAll" (getAllBody a).values).outcome
      = .ok entries) : i.Types (Cache.learn .empty entries) := by
  cases (Proxy.readGetAll_replyGetAll _).symm.trans h
  intro name v hv
  rcases Cache.get?_learn hv with ⟨x, hx, rfl⟩ | hv
  · obtain ⟨q, hq, -, hname, hread⟩ := mem_propertyGetAll.mp hx
    obtain ⟨u, -, hmake⟩ := readReply_eq_ok.mp hread
    cases hname
    exact ⟨q, Interface.property?_of_nodup hnodup hq, Variant.canonical_of_make hmake⟩
  · cases hv

end Service

/-! ## 3. What notifications tell -/

/-- The signal tells of properties that have changed. -/
def SignalMessage.isChange (s : SignalMessage) : Prop :=
  s.interface = propertiesInterface ∧ s.member = propertiesChanged

/-- What the signal tells keeps the caches of an interface well typed. -/
def SignalMessage.Keeps (i : Interface) (s : SignalMessage) : Prop :=
  ∀ c, i.Types c → i.Types (c.applyChange i.name s.args).result

/-- The notification of a new value has this value, boxed with the property's tag; that of an
unknown one has the name only. -/
theorem Object.changeBody_eq_ok {o : Object} {name : String} {value : Option Value} {c : Container}
    (h : o.changeBody name value = .ok c) : ∃ q, o.interface.property? name = some q ∧
      ((∃ v x, value = some v ∧ Variant.make q.tag v = .ok x ∧ c.values
          = [.string o.interface.name, .dict [(.string name, x.toValue)], .array []]) ∨
        c.values = [.string o.interface.name, .dict [], .array [.string name]]) := by
  have hpack : ∀ changed invalidated, CanonicalAll Object.changeTags
        [.string o.interface.name, .dict changed, .array invalidated] →
      (Container.pack Object.changeTags
        [.string o.interface.name, .dict changed, .array invalidated]).mapError CallError.codec
          = .ok c →
      c.values = [.string o.interface.name, .dict changed, .array invalidated] := by
    intro changed invalidated hcanonical hc
    rw [Container.pack_of_canonical hcanonical (by decide)] at hc
    cases hc
    rfl
  unfold changeBody at h
  split at h
  · cases h
  · rename_i q hq
    refine ⟨q, hq, ?_⟩
    cases value with
    | none =>
      refine Or.inr (hpack [] [.string name] ?_ h)
      refine .cons (.string _) (.cons (.dict _ _ _ (by simp) (by simp)) (.cons ?_ .nil))
      exact .array _ _ fun v hv => List.mem_singleton.mp hv ▸ .string name
    | some v =>
      obtain ⟨x, hx, h⟩ := bind_eq_ok.1 h
      refine Or.inl ⟨v, x, rfl, mapError_eq_ok.mp hx, hpack _ _ ?_ h⟩
      refine .cons (.string _) (.cons (.dict _ _ _ ?_ ?_) (.cons (.array _ _ (by simp)) .nil))
      · exact fun e he => List.mem_singleton.mp he ▸ .string name
      · exact fun e he => List.mem_singleton.mp he ▸ .variant x.tag x.value

/-- **An object's notifications keep caches well typed**, those of its own interface, and those of
an interface with another name. -/
theorem Object.keeps_changeBody {o : Object} {i : Interface}
    (hi : o.interface.name = i.name → o.interface = i) {name : String} {value : Option Value}
    {s : SignalMessage} {c : Container} (hs : s.body = some c)
    (h : o.changeBody name value = .ok c) : s.Keeps i := by
  have hargs : s.args = c.values := by rw [SignalMessage.args, hs]; rfl
  intro cache hcache
  obtain ⟨q, hq, hcases⟩ := changeBody_eq_ok h
  rw [hargs]
  by_cases hname : o.interface.name = i.name
  · rw [hi hname] at hq
    rcases hcases with ⟨v, x, -, hx, hvalues⟩ | hvalues
    · rw [hvalues]
      simp only [Cache.applyChange, hname, if_true]
      exact hcache.insert hq (Variant.canonical_of_make hx)
    · rw [hvalues]
      simp only [Cache.applyChange, hname, if_true]
      exact hcache.erase name
  · have hother : ∀ changed invalidated, (cache.applyChange i.name
        [.string o.interface.name, changed, invalidated]).result = cache := by
      intro changed invalidated
      simp only [Cache.applyChange, hname, if_false]
      rfl
    rcases hcases with ⟨v, x, -, -, hvalues⟩ | hvalues <;> rw [hvalues, hother] <;> exact hcache

namespace World

variable {w w' : World} {b t x : Nat} {me : String} {m : Move}

/-! ## 4. Who subscribes for a proxy -/

/-- A subscription that leads to a proxy is made through the proxy's own connection, for the signals
of its target. -/
def Known (b : Nat) (w : World) : Prop :=
  ∀ s ∈ (w.bus b).subscriptions, ∀ id, s.sink = .proxy id →
    ∃ a, w.account? id = some a ∧ a.link = .bus b s.owner ∧ s.rule = Proxy.rule a.target

theorem known_act (hw : w.Orderly) (ho : (w.bus b).Orderly) (h : Known b w) (m : Move) :
    Known b (w.act m) := by
  -- What was there before is known still.
  have hold : ∀ s ∈ (w.bus b).subscriptions, ∀ id, s.sink = .proxy id →
      ∃ a, (w.act m).account? id = some a ∧ a.link = .bus b s.owner ∧
        s.rule = Proxy.rule a.target := by
    intro s hs id hsink
    obtain ⟨a, ha, hlink, hrule⟩ := h s hs id hsink
    obtain ⟨cache, hact⟩ := account_act hw ha m
    exact ⟨_, hact, hlink, hrule⟩
  intro s hs
  cases dealing_act hw b m with
  | opened hb =>
    rw [hb, bus_opened] at hs
    cases hs
  | aside haside =>
    obtain ⟨ops, hops, hrun⟩ := haside.bus
    have htrims := Bus.trims_run ops ho hops
    rw [← hrun] at htrims
    exact hold s (htrims.older s hs)
  | subscribe =>
    rw [bus_subscribed] at hs
    rcases List.mem_append.mp hs with hs | hs
    · exact hold s hs
    · cases List.mem_singleton.mp hs
      intro id hsink
      cases hsink
  | unsubscribe =>
    rw [bus_unsubscribed] at hs
    exact hold s (List.mem_filter.mp hs).1
  | @addProxy label me i name path timeout flags convention =>
    rw [bus_addProxy] at hs
    rcases List.mem_append.mp hs with hs | hs
    · exact hold s hs
    · cases List.mem_singleton.mp hs
      intro id hsink
      cases hsink
      obtain ⟨p, -, hlink, htarget, -, -, -, hproxies⟩ :=
        proxies_addProxy w label (.bus b me) i name path timeout flags convention
      refine ⟨p.account, ?_, hlink, congrArg Proxy.rule htarget.symm⟩
      exact (account?_insert hproxies _).trans (if_pos rfl)
  | @dropProxy id p me hp hlink =>
    obtain ⟨ops, hops, hrun⟩ := bus_dropProxy hp hlink
    have hremoved := (Bus.still_unsubscribe (w.bus b) p.subscription).orderly ho
    have htrims := Bus.trims_run ops hremoved hops
    rw [← hrun] at htrims
    exact hold s (List.mem_filter.mp (htrims.older s hs)).1

theorem known_run (b : Nat) (ms : List Move) : Known b (empty.run ms) := by
  induction ms using List.reverseRecOn with
  | nil => exact fun s hs => by cases hs
  | append_singleton ms m ih =>
    rw [run_append, run_cons, run_nil]
    exact known_act (orderly_run ms) (attended_run b ms).orderly ih m

/-! ## 5. What a run is asked for -/

/-- The task `t` is a request that the proxy `x` has made, by a call of the sort `sort`. -/
def Asked (ms : List Move) (x t : Nat) (sort : Proxy → MethodCall → Prop) : Prop :=
  ∃ before after p call, ms = before ++ .ask (plainRequest p call .answer) :: after ∧
    (empty.run before).nextTask = t ∧ (empty.run before).proxies.get? x = some p ∧ sort p call

/-- In the run `ms`, all that has to do with the properties of the target of the proxy `x`, on the
bus `b`, goes by the proxy's own interface. -/
structure Uniform (ms : List Move) (b x : Nat) (p : Proxy) : Prop where
  /-- Whatever is exported at the path of the proxy's target, and offers an interface of this name,
  offers the proxy's interface. -/
  exports : ∀ {before after id o me n}, ms = before ++ after →
    (empty.run before).objects.get? id = some o →
    o.binding = some ⟨.bus b me, p.target.path, n⟩ →
    o.interface.name = p.interface.name → o.interface = p.interface
  /-- That properties have changed is announced by objects only, each for its own interface, -/
  announced : ∀ {before m after link s}, ms = before ++ m :: after →
    (empty.run before).broadcasting m = some (link, s) → s.isChange →
    ∃ id name v, m = .arrange (.emitChanged id name v)
  /-- and not by a script. -/
  unscripted : ∀ {n s}, .arrange (.signalScripted n s) ∈ ms → ¬ s.isChange
  /-- Who reads a property gets the reply to his own request, -/
  gets : ∀ {before after name t}, ms = before ++ .endGet x name t :: after →
    Asked before x t fun p call => p.startGet name = .ok (.inr call)
  /-- and so does who loads all of them. -/
  inits : ∀ {before after t}, ms = before ++ .endInit x t :: after →
    Asked before x t fun p call => p.startInit = .ok call

section Uniform

variable {ms before after : List Move} {p : Proxy}

/-- A request for the properties of the target that reaches an object reaches one of the proxy's
interface. -/
theorem Uniform.interface (h : Uniform ms b x p) (hreopened : observe reopened empty ms = [])
    (haimed : p.target.interface = p.interface.name) (hms : ms = before ++ after) {r : Request}
    {id : Nat} {o : Object} (hr : (empty.run before).Reaches b me r id o)
    (hpath : r.call.path = p.target.path)
    (hinterface : PropertyCall.interface r.call.body.values = .ok p.target.interface) :
    o.interface = p.interface := by
  obtain ⟨owner, i, n, -, hi, hregistered⟩ := hr.registered
  cases hinterface.symm.trans hi
  have hlinked := linked_run before (reopened_of_append (hms ▸ hreopened))
  obtain ⟨o', ho', hname, hbinding⟩ := place?_eq_some.mp (hlinked.bound hregistered)
  cases hr.object.symm.trans ho'
  exact h.exports hms hr.object (hpath ▸ hbinding) (hname.trans haimed)

/-! ## 6. Notifications on their way -/

theorem mem_queue_of_handed {n : Nat} {c : String} {d : Sink × SignalMessage}
    (h : d ∈ w.handed n c m) : d ∈ (w.bus n).queue c := by
  unfold handed at h
  split at h
  · split at h
    · split at h
      · exact h
      · cases h
    · cases h
  · cases h

/-- What is announced at the path of the target keeps the proxy's cache well typed. -/
theorem Uniform.keeps (h : Uniform ms b x p) (hms : ms = before ++ m :: after) {s : SignalMessage}
    (hs : (empty.run before).broadcasting m = some (.bus b me, s)) (hpath : s.path = p.target.path)
    (hchange : s.isChange) : s.Keeps p.interface := by
  obtain ⟨id, name, v, rfl⟩ := h.announced hms hs hchange
  simp only [broadcasting, signalOf, Option.bind_eq_some_iff, Option.map_eq_some_iff] at hs
  obtain ⟨o, ho, c, hc, place, hplace, hsignal⟩ := hs
  obtain ⟨hlink, rfl⟩ := Prod.mk.inj hsignal
  obtain ⟨body, hbody, rfl⟩ : ∃ body, o.changeBody name v = .ok body ∧ some body = c := by
    cases hx : o.changeBody name v with
    | error e => rw [hx] at hc; cases hc
    | ok body => rw [hx] at hc; cases hc; exact ⟨body, rfl, rfl⟩
  refine Object.keeps_changeBody (o := o) (fun hname => ?_) rfl hbody
  obtain ⟨link, path, n⟩ := place
  exact h.exports hms ho (by rw [hplace, ← hpath, ← hlink]) hname

/-- **No notification in a queue harms the proxy's cache.** -/
theorem queues_keep (h : Uniform ms b x p) (hp : (empty.run ms).proxies.get? x = some p)
    (hlink : p.link = .bus b me) (before : List Move) :
    ∀ {after : List Move}, ms = before ++ after → ∀ {n : Nat} {c : String} {s : SignalMessage},
      (.proxy x, s) ∈ ((empty.run before).bus n).queue c → s.isChange → s.Keeps p.interface := by
  induction before using List.reverseRecOn with
  | nil =>
    intro after _ n c s hs
    cases hs
  | append_singleton before m ih =>
    intro after hms n c s hs hchange
    have hms' : ms = before ++ m :: after := by rw [hms]; simp
    have hold : ∀ {n c s}, (.proxy x, s) ∈ ((empty.run before).bus n).queue c →
        s.isChange → s.Keeps p.interface := ih hms'
    rw [run_append, run_cons, run_nil] at hs
    cases motion_act (empty.run before) n m with
    | opened hn =>
      rw [hn, bus_opened] at hs
      cases hs
    | still hstill _ _ =>
      rw [hstill.bus.queue] at hs
      exact hold hs hchange
    | connect =>
      rw [bus_connect, Bus.queue_connect] at hs
      exact hold hs hchange
    | @emit _ sender s' y hbroadcast hy hact =>
      have horderly := (attended_run n before).orderly
      rw [bus_emitted hact, Bus.queue_emit horderly hy, List.mem_append] at hs
      rcases hs with hs | hs
      · exact hold hs hchange
      · -- It is put there for a subscription of the proxy, so it comes from the proxy's target.
        obtain ⟨subscription, htaker, heq⟩ := List.mem_map.mp hs
        obtain ⟨hsink, rfl⟩ := Prod.mk.inj heq
        obtain ⟨hmem, -, -, hadmits⟩ := Bus.mem_takers.mp htaker
        obtain ⟨a, ha, hlink', hrule⟩ := known_run n before subscription hmem x hsink
        obtain ⟨cache, hrun⟩ := account_run (m :: after) (orderly_run before) ha
        rw [← run_append, ← hms', account?, hp, Option.map_some] at hrun
        have haccount := Account.ext_iff.mp (Option.some.inj hrun)
        have hsame : Link.bus b me = .bus n subscription.owner :=
          (hlink.symm.trans haccount.2.1).trans hlink'
        cases hsame
        have hpath : p.target.path = s'.path := by
          refine hadmits.1 p.target.path ?_
          rw [hrule, ← haccount.2.2.1]
          rfl
        -- The bus has put the sender's name on it; whether it keeps caches is not a matter of that.
        have hkeeps : s'.Keeps p.interface := h.keeps hms' hbroadcast hpath.symm hchange
        exact hkeeps
    | deliver ht =>
      rw [(still_delivered ht).queue, Bus.queue_drain] at hs
      split at hs
      · cases hs
      · exact hold hs hchange

/-- **No notification that is handed to the proxy harms its cache.** -/
theorem Uniform.hands_keep (h : Uniform ms b x p) (hp : (empty.run ms).proxies.get? x = some p)
    (hlink : p.link = .bus b me) (hms : ms = before ++ m :: after) {s : SignalMessage}
    (hs : (empty.run before).Hands m x s) (hchange : s.isChange) : s.Keeps p.interface := by
  cases hs with
  | @delivered _ n c _ _ hs =>
    have hqueue : (.proxy x, s) ∈ ((empty.run before).bus n).queue c := mem_queue_of_handed hs
    exact queues_keep h hp hlink before hms hqueue hchange
  | @told n k y _ _ _ _ =>
    have hmem : .arrange (.signalScripted n s) ∈ ms := by rw [hms]; simp
    exact absurd hchange (h.unscripted hmem)

/-! ## 7. Replies on their way -/

/-- What the proxy is told of its own request came from an object of its own interface, or it is an
error. -/
theorem Uniform.replied (h : Uniform ms b x p) (hreopened : observe reopened empty ms = [])
    (hp : (empty.run ms).proxies.get? x = some p) (hlink : p.link = .bus b me)
    (hms : ms = before ++ after) {sort : Proxy → MethodCall → Prop} (hasked : Asked before x t sort)
    {member : String} (body : Container)
    (hbody : PropertyCall.interface body.values = .ok p.target.interface)
    (hsort : ∀ p₀ call, p₀.target = p.target → sort p₀ call →
      call = .properties p.target member body)
    {reply : Except TransportError Container}
    (ht : (empty.run before).outcomes.get? t = some reply) :
    (∃ e, reply = .error e) ∨ ∃ (s : Service) (cells : Cells),
      reply = (s.answerProperties p.interface cells member body.values).outcome := by
  obtain ⟨earlier, later, p₀, call, rfl, rfl, hp₀, hcall⟩ := hasked
  -- The proxy was then what it is in the end.
  obtain ⟨p', hp', -, hlink₀, htarget₀⟩ :=
    proxy_run (.ask (plainRequest p₀ call .answer) :: later ++ after) (orderly_run earlier) hp₀
  rw [← run_append, ← List.append_assoc, ← hms, hp] at hp'
  cases hp'
  have hcall := hsort p₀ call htarget₀.symm hcall
  have haimed := (orderly_run ms).aimed hp
  have hr : ForProperties b me (plainRequest p₀ call .answer) :=
    ⟨hlink₀.symm.trans hlink, by rw [hcall]; rfl⟩
  -- What was found when the request was handed over was found in a world of the run.
  obtain ⟨mid, rest, rfl, hmid, houtcome⟩ := replied_asked hr rfl earlier ht
  rcases outcomeOf_forProperties hr hmid with ⟨e, he⟩ | ⟨id, o, hreaches, ho⟩
  · rw [houtcome] at he
    exact Or.inl ⟨e, Option.some.inj he⟩
  · rw [houtcome] at ho
    have hms' : ms = (earlier ++ .ask (plainRequest p₀ call .answer) :: mid)
        ++ (.poll (empty.run earlier).nextTask :: rest ++ after) := by
      rw [hms]
      simp
    have hinterface := h.interface hreopened haimed hms' hreaches (by rw [plainRequest, hcall]; rfl)
      (by rw [plainRequest, hcall]; exact hbody)
    have hreply := Option.some.inj ho
    rw [plainRequest, hcall, outcome_answeredBy, hinterface] at hreply
    exact Or.inr ⟨o.service, _, hreply⟩

/-! ## 8. Caches are well typed -/

/-- If the proxy `x` is one for the target of `p`, its cache is well typed. -/
def Typed (x : Nat) (p : Proxy) (w : World) : Prop :=
  ∀ a, w.account? x = some a → a.interface = p.interface → a.target = p.target →
    p.interface.Types a.cache

/-- **What a cache learns is well typed**, whichever way it comes. -/
theorem Uniform.learns (h : Uniform ms b x p) (hreopened : observe reopened empty ms = [])
    (hp : (empty.run ms).proxies.get? x = some p) (hlink : p.link = .bus b me)
    (hnodup : (p.interface.properties.map Property.name).Nodup) (hms : ms = before ++ m :: after)
    {p' : Proxy} {cache : Cache} (hlearns : (empty.run before).Learns m x p' cache)
    (hinterface : p'.interface = p.interface) (htarget : p'.target = p.target)
    (hcache : p.interface.Types p'.cache) : p.interface.Types cache := by
  cases hlearns with
  | set hset =>
    obtain ⟨q, v, hq, hmake, rfl, -⟩ := Proxy.startSet_eq_ok.mp hset
    rw [← hinterface]
    exact Interface.Types.insert (hinterface ▸ hcache) (Proxy.property_eq_ok hq)
      (Variant.canonical_of_make hmake)
  | @get _ t reply _ name ht =>
    have hreplied := h.replied hreopened hp hlink hms (h.gets hms)
      (getBody p.target.interface name) rfl
      (fun p₀ call htarget₀ hcall => htarget₀ ▸ (Proxy.startGet_eq_inr hcall).2.2) ht
    unfold Proxy.finishGet
    split
    · rename_i v hread
      rcases hreplied with ⟨e, rfl⟩ | ⟨s, cells, rfl⟩
      · cases hread
      · obtain ⟨q, u, hq, heq, hu⟩ := Service.typed_get hread
        cases heq
        exact hcache.insert hq hu
    · exact hcache
    · exact hcache
  | @init _ t reply _ ht =>
    have hreplied := h.replied hreopened hp hlink hms (h.inits hms)
      (getAllBody p.target.interface) rfl
      (fun p₀ call htarget₀ hcall => by
        rw [Proxy.startInit_eq, htarget₀] at hcall
        exact (Except.ok.inj hcall).symm) ht
    unfold Proxy.finishInit
    split
    · rename_i entries hread
      rcases hreplied with ⟨e, rfl⟩ | ⟨s, cells, rfl⟩
      · cases hread
      · exact Service.typed_getAll hnodup hread
    · exact hcache
  | @told _ _ s _ hs hchange =>
    rw [htarget, (orderly_run ms).aimed hp]
    exact h.hands_keep hp hlink hms hs hchange p'.cache hcache

/-- **Every move of such a run keeps the cache well typed.** -/
theorem Uniform.typed (h : Uniform ms b x p) (hreopened : observe reopened empty ms = [])
    (hp : (empty.run ms).proxies.get? x = some p) (hlink : p.link = .bus b me)
    (hnodup : (p.interface.properties.map Property.name).Nodup) (before : List Move) :
    ∀ {after : List Move}, ms = before ++ after → Typed x p (empty.run before) := by
  induction before using List.reverseRecOn with
  | nil => exact fun _ a ha => by cases ha
  | append_singleton before m ih =>
    intro after hms
    have hms' : ms = before ++ m :: after := by rw [hms]; simp
    rw [run_append, run_cons, run_nil]
    refine act_keeps (orderly_run before) (P := Typed x p) (fun {v v'} hc hv => ?_) (ih hms')
    intro a ha hinterface htarget
    rcases hc.account x with hsame | ⟨-, a', ha', hempty⟩ | ⟨p', cache, hp', hlearns, ha'⟩
    · exact hv a (hsame ▸ ha) hinterface htarget
    · cases ha.symm.trans ha'
      rw [hempty]
      exact Interface.types_empty _
    · cases ha.symm.trans ha'
      have hold : v.account? x = some p'.account := by rw [account?, hp', Option.map_some]
      exact h.learns hreopened hp hlink hnodup hms' hlearns hinterface htarget
        (hv p'.account hold hinterface htarget)

/-- What is read of a property is there, and is canonical for the property's tag. -/
theorem Uniform.typed_getProperty (h : Uniform ms b x p)
    (hreopened : observe reopened empty ms = [])
    (hp : (empty.run ms).proxies.get? x = some p) (hlink : p.link = .bus b me)
    (hcache : p.interface.Types p.cache) {name : String} {v : Option Value}
    (hget : ((empty.run ms).getProperty x p name).2 = some (.ok v)) :
    ∃ q u, p.interface.property? name = some q ∧ v = some u ∧ Canonical q.tag u := by
  unfold getProperty at hget
  split at hget
  · cases hget
  · rename_i u hstart
    cases hget
    obtain ⟨q, hq, hu⟩ := hcache name u (Proxy.startGet_eq_inl hstart)
    exact ⟨q, u, hq, rfl, hu⟩
  · rename_i call hstart
    obtain ⟨-, -, rfl⟩ := Proxy.startGet_eq_inr hstart
    have hr := forProperties_plainRequest hlink "Get" (getBody p.target.interface name) .answer
    obtain ⟨steps, outcome, hawait, hcases, hanswered⟩ :=
      await_forProperties (sound_empty.run ms) (outcomesBelow_run ms) hr rfl
    rw [hawait] at hget
    simp only at hget
    split at hget
    · cases hget
    · rw [Proxy.finishGet_snd] at hget
      have hread := Option.some.inj hget
      rcases hcases with ⟨e, rfl⟩ | ⟨id, o, hreaches⟩
      · cases hread
      · have hinterface := h.interface hreopened ((orderly_run ms).aimed hp)
          (List.append_nil ms).symm hreaches rfl rfl
        rw [hanswered id o hreaches, plainRequest, outcome_answeredBy, hinterface] at hread
        exact Service.typed_get hread

/-- **The caches of proxies are well typed**: in any state that is reached while all that has to do
with the properties of a proxy's target goes by the proxy's own interface, every cached name is a
declared property's and its value is canonical for the property's tag.  So what is read of a
property is a value, and a canonical one. -/
theorem caches_typed (ms : List Move) (hreopened : observe reopened empty ms = [])
    (hp : (empty.run ms).proxies.get? x = some p) (hlink : p.link = .bus b me) {name : String}
    {ds : List Declaration} (hbuilt : Interface.build name ds = .ok p.interface)
    (h : Uniform ms b x p) :
    p.interface.Types p.cache ∧
      ∀ property v, ((empty.run ms).getProperty x p property).2 = some (.ok v) →
        ∃ q u, p.interface.property? property = some q ∧ v = some u ∧ Canonical q.tag u := by
  have hnodup := Interface.properties_nodup hbuilt
  have haccount : (empty.run ms).account? x = some p.account := by
    rw [account?, hp, Option.map_some]
  have hcache : p.interface.Types p.cache :=
    h.typed hreopened hp hlink hnodup ms (List.append_nil ms).symm p.account haccount rfl rfl
  exact ⟨hcache, fun property v hget => h.typed_getProperty hreopened hp hlink hcache hget⟩

end Uniform

/-! ## 9. A cache that is written to in every way -/

/-- An interface with a level and a note of any type, as it is declared, -/
def gaugeDeclarations : List Declaration :=
  [.property "Level" "i" .readWrite, .property "Note" "v" .readWrite]

/-- and as it is built. -/
def gauge : Interface where
  name := "org.example.Gauge"
  methods := []
  properties := [⟨"Level", .int .int32, .readWrite⟩, ⟨"Note", .variant, .readWrite⟩]
  signals := []
  members := [("Level", .property 0), ("Note", .property 1)]

/-- A level. -/
def level (n : IntKind.int32.Number) : Value := .int .int32 n

/-- A gauge at one connection, with a level and without a note, and a proxy for it at another. -/
def gaugeMoves : List Move :=
  [.arrange (.addBus 25000), .arrange (.connect 0), .arrange (.connect 0),
    .arrange (.addObject gauge (.ofParts [.field "Level" (level ⟨1, by decide⟩)])),
    .arrange (.exportObject 0 (.bus 0 ":1.1") "/gauge"),
    .arrange (.addProxy "gauge" (.bus 0 ":1.2") gauge ":1.1" "/gauge" none .none .full)]

/-- The proxy, when it knows nothing. -/
def gaugeProxy : Proxy where
  label := "gauge"
  interface := gauge
  link := .bus 0 ":1.2"
  target := ⟨":1.1", "/gauge", "org.example.Gauge"⟩
  timeout := none
  flags := .none
  convention := .full
  cache := .empty
  relay := .empty
  subscription := 2
  nextCall := 1
  pending := .empty
  alive := true

/-- The proxy's request for its level, -/
def getLevel : Request :=
  plainRequest gaugeProxy
    (.properties gaugeProxy.target "Get" (getBody gaugeProxy.target.interface "Level")) .answer

/-- and its request for everything. -/
def getGauge : Request :=
  plainRequest gaugeProxy
    (.properties gaugeProxy.target "GetAll" (getAllBody gaugeProxy.target.interface)) .answer

/-- The proxy reads the level, loads everything, sets the note, and is told of a new level and that
the note is not known any more. -/
def learningMoves : List Move :=
  gaugeMoves ++
    [.ask getLevel, .poll 2, .endGet 0 "Level" 2, .ask getGauge, .poll 3, .endInit 0 3,
      .setProperty 0 "Note" (.string "full"),
      .arrange (.emitChanged 0 "Level" (some (level ⟨7, by decide⟩))),
      .arrange (.emitChanged 0 "Note" none), .poll 1]

/-- The proxy after all this. -/
def learnedProxy : Proxy :=
  { gaugeProxy with cache := .ofList [("Level", level ⟨7, by decide⟩)] }

theorem uniform_learning : Uniform learningMoves 0 0 learnedProxy where
  exports := by
    intro before after id o me n hms ho _ _
    -- There is one object in the end, and objects keep their interfaces.
    obtain ⟨last, hobjects, hlast⟩ : ∃ last, (empty.run learningMoves).objects = ⟨[(0, last)]⟩ ∧
        last.interface = gauge := ⟨_, rfl, rfl⟩
    have hhandlers : (empty.run before).handlers? id = some o.handlers := by
      rw [handlers?, ho, Option.map_some]
    have hfinal := (later_run after (orderly_run before)).handlers hhandlers
    rw [← run_append, ← hms, handlers?, hobjects] at hfinal
    obtain ⟨o', ho', hsame⟩ := Option.map_eq_some_iff.mp hfinal
    simp only [Table.get?, Table.find] at ho'
    split at ho'
    · cases ho'
      exact (congrArg Handlers.interface hsame).symm.trans hlast
    · cases ho'
  announced := by
    intro before m after link s hms hs _
    have hall : ∀ m ∈ learningMoves, (∃ id name v, m = .arrange (.emitChanged id name v)) ∨
        ∀ w : World, w.broadcasting m = none := by
      simp [learningMoves, gaugeMoves, broadcasting]
    rcases hall m (by rw [hms]; simp) with hannounced | hsilent
    · exact hannounced
    · rw [hsilent] at hs
      cases hs
  unscripted := by
    intro n s hmem
    simp [learningMoves, gaugeMoves] at hmem
  gets := by
    intro before after name t hms
    obtain ⟨rfl, rfl, rfl⟩ : before = gaugeMoves ++ [.ask getLevel, .poll 2] ∧ name = "Level" ∧
        t = 2 := by
      simp [learningMoves, gaugeMoves, List.cons_eq_append_iff] at hms ⊢
      exact ⟨hms.1, hms.2.1⟩
    exact ⟨gaugeMoves, [.poll 2], gaugeProxy, _, rfl, rfl, rfl, rfl⟩
  inits := by
    intro before after t hms
    obtain ⟨rfl, rfl⟩ : before = gaugeMoves ++ [.ask getLevel, .poll 2, .endGet 0 "Level" 2,
        .ask getGauge, .poll 3] ∧ t = 3 := by
      simp [learningMoves, gaugeMoves, List.cons_eq_append_iff] at hms ⊢
      exact ⟨hms.1, hms.2.1⟩
    exact ⟨gaugeMoves ++ [.ask getLevel, .poll 2, .endGet 0 "Level" 2], [.poll 3],
      { gaugeProxy with cache := .ofList [("Level", level ⟨1, by decide⟩)] }, _, rfl, rfl, rfl, rfl⟩

/-- What the proxy has read, loaded, set and been told is well typed in the end. -/
theorem caches_typed_gauge :
    observe reopened empty learningMoves = [] ∧
      (empty.run learningMoves).proxies.get? 0 = some learnedProxy ∧
      Interface.build "org.example.Gauge" gaugeDeclarations = .ok gauge ∧
      Uniform learningMoves 0 0 learnedProxy ∧
      gauge.Types learnedProxy.cache ∧
      ((empty.run learningMoves).getProperty 0 learnedProxy "Level").2
        = some (.ok (some (level ⟨7, by decide⟩))) := by
  have htyped := caches_typed learningMoves (by rfl) (by rfl) (by rfl)
    (show Interface.build "org.example.Gauge" gaugeDeclarations = .ok learnedProxy.interface by rfl)
    uniform_learning
  exact ⟨by rfl, by rfl, by rfl, uniform_learning, htyped.1, by rfl⟩

end World

end MessageBus
