/-
# Reading all properties, and reading them one by one

A service tells its properties in two ways, each with its own code: all at once, as a dictionary, or
the one that is asked for.  They agree (`Service.mem_propertyGetAll_iff`), since no two properties of
an interface have the same name: the first one found under a name is the one that is listed under it.

So a proxy that loads all properties knows afterwards just what it would be told if it knew nothing
and asked for each (`World.bulk_agrees`).  The dictionary is packed and unpacked on its way, and read
into the cache entry by entry; nothing is lost or overwritten there, again because no name comes
twice.  What was cached before makes no difference.

Both requests are answered when they are polled for the first time (`World.await_settled`), by the
object as it is then.
-/
import MessageBus.Proofs.Caches

namespace MessageBus

/-! ## 1. The two ways of reading -/

namespace Service

variable {s : Service} {i : Interface} {cells : Cells}

/-- **An entry for each property that can be read**: what is listed under a name is what is told of
this name alone. -/
theorem mem_propertyGetAll_iff (hnodup : (i.properties.map Property.name).Nodup) {name : String}
    {x : Variant} : (name, x) ∈ (s.propertyGetAll i cells).result ↔
      (s.propertyGet i cells name).result = .ok (some x) := by
  rw [mem_propertyGetAll, propertyGet_eq_ok]
  constructor
  · rintro ⟨q, hq, hreadable, rfl, hx⟩
    exact ⟨q, Interface.property?_of_nodup hnodup hq, hreadable, hx⟩
  · rintro ⟨q, hq, hreadable, hx⟩
    exact ⟨q, List.mem_of_find?_eq_some hq, hreadable, Interface.property?_name hq, hx⟩

/-- The entries stand in the order of the declarations. -/
theorem propertyGetAll_sublist (s : Service) (i : Interface) (cells : Cells) :
    ((s.propertyGetAll i cells).result.map Prod.fst).Sublist (i.properties.map Property.name) := by
  have hkept : ∀ {f : Property → Option (String × Variant)},
      (∀ q e, f q = some e → e.1 = q.name) → ∀ qs : List Property,
        ((qs.filterMap f).map Prod.fst).Sublist (qs.map Property.name) := by
    intro f hf qs
    induction qs with
    | nil => exact .slnil
    | cons q qs ih =>
      rw [List.filterMap_cons]
      split
      · exact ih.cons _
      · rename_i e he
        rw [List.map_cons, List.map_cons, hf q e he]
        exact ih.cons_cons _
  refine (hkept (fun q e he => ?_) _).trans (List.filter_sublist.map _)
  split at he <;> cases he
  rfl

end Service

/-- The cache that has learned the entries of a reply, and nothing else. -/
def Cache.ofReply (entries : List (String × Variant)) : Cache :=
  Cache.learn .empty (entries.map fun e => (.string e.1, e.2.toValue))

/-- It has what stands in the entries, if no name comes twice. -/
theorem Cache.get?_ofReply {entries : List (String × Variant)}
    (hnodup : (entries.map Prod.fst).Nodup) {name : String} {v : Value} :
    (Cache.ofReply entries).get? name = some v ↔ ∃ x, (name, x) ∈ entries ∧ x.value = v := by
  constructor
  · intro h
    rcases Cache.get?_learn h with ⟨x, hx, rfl⟩ | h
    · exact ⟨x, hx, rfl⟩
    · cases h
  · rintro ⟨x, hx, rfl⟩
    exact Cache.get?_learn_of_mem hnodup .empty hx

/-- Whether the access to a property allows what is needed. -/
def Need.allowedBy (need : Need) (a : Access) : Bool :=
  match need with
  | .read => a.readable
  | .write => a.writable

namespace Proxy

variable {p : Proxy} {name : String}

/-- What is cached after all properties have been loaded are the entries of the reply, whatever was
cached before. -/
theorem finishInit_replyGetAll (p : Proxy) (entries : List (String × Variant)) :
    p.finishInit (Service.replyGetAll entries)
      = ({ p with cache := .ofReply entries }, .ok ()) := by
  rw [finishInit, readGetAll_replyGetAll]
  rfl

/-- A property that is not cached is asked for if it can be read. -/
theorem startGet_unknown (hcache : p.cache.get? name = none) {q : Property}
    (hq : p.property name .read = .ok q) : p.startGet name
      = .ok (.inr (.properties p.target "Get" (getBody p.target.interface name))) := by
  unfold startGet
  rw [hq, hcache, request_get]
  rfl

/-- A property is given for what its access allows, if it is declared. -/
theorem property_iff {need : Need} {q : Property} : p.property name need = .ok q ↔
    p.interface.property? name = some q ∧ need.allowedBy q.access = true := by
  unfold property
  cases p.interface.property? name with
  | none => simp
  | some d =>
    change (if need.allowedBy d.access then _ else _) = Except.ok q ↔ _
    cases hd : need.allowedBy d.access with
    | false =>
      simp only [Bool.false_eq_true, if_false, reduceCtorEq, Option.some.injEq, false_iff, not_and]
      rintro rfl
      simp [hd]
    | true =>
      simp only [if_true, Except.ok.injEq, Option.some.injEq]
      exact ⟨fun h => ⟨h, h ▸ hd⟩, And.left⟩

end Proxy

namespace World

variable {w : World} {b t x : Nat} {me : String} {r : Request} {p : Proxy} {i : Interface} {id : Nat}

/-! ## 2. Waiting for what is settled at once -/

/-- A poll of a task that has ended takes it from the queue. -/
theorem act_poll_ended (ht : w.tasks.get? t = none) : w.act (.poll t) = w.taken t := by
  simp only [act, poll, ht, taken]

/-- **Waiting for a request that is settled by its first poll**: it is polled, and perhaps looked for
once more. -/
theorem await_settled (h : w.Orderly) (hr : r.purpose = .answer)
    {o : Except TransportError Container} (ho : (w.act (.ask r)).outcomeOf w.nextTask = some o) :
    ∃ steps, (steps = [] ∨ steps = [.poll w.nextTask]) ∧
      w.await r = ((w.run (.ask r :: .poll w.nextTask :: steps)).dropOutcome w.nextTask, some o) ∧
      (w.run (.ask r :: .poll w.nextTask :: steps)).outcomes.get? w.nextTask = some o := by
  have ht : (w.act (.ask r)).tasks.get? w.nextTask = some (.request r .unsent) := by
    rw [act_ask w hr]
    exact Table.get?_insert_self _ _ _
  have hw := orderly_act h (.ask r)
  obtain ⟨hended, -⟩ := ended_of_settle hw ho
  have hlaid : ((w.act (.ask r)).act (.poll w.nextTask)).outcomes.get? w.nextTask = some o := by
    rw [outcomes_polled hw, laid_request ht hr, ho]
    rfl
  rw [await_eq h hr]
  generalize hu : (w.act (.ask r)).act (.poll w.nextTask) = u at hended hlaid
  -- The outcome is there in the first round, and stays if the task is looked for.
  have hlooked : ∃ steps, (steps = [] ∨ steps = [.poll w.nextTask]) ∧
      u.lookedAt w.nextTask = u.run steps ∧ (u.run steps).outcomes.get? w.nextTask = some o := by
    unfold lookedAt
    split
    · refine ⟨_, Or.inr rfl, rfl, ?_⟩
      rw [run_cons, run_nil, act_poll_ended hended]
      exact hlaid
    · exact ⟨[], Or.inl rfl, rfl, hlaid⟩
  obtain ⟨steps, hsteps, hrun, houtcome⟩ := hlooked
  have hwait : runToOutcome u.workload w.nextTask u = u.run steps := by
    rw [workload, runToOutcome_succ, hrun, houtcome]
    rfl
  refine ⟨steps, hsteps, ?_, ?_⟩
  · simp only [hwait, houtcome, run_cons, hu]
    rfl
  · rw [run_cons, run_cons, hu]
    exact houtcome

theorem proxies_closeUnheld (w : World) : w.closeUnheld.proxies = w.proxies := by
  refine foldl_same proxies (fun w n => ?_) _ w
  refine foldl_same proxies (fun w name => ?_) _ w
  split <;> rfl

theorem cells_closeUnheld (w : World) : w.closeUnheld.cells = w.cells := by
  refine foldl_same cells (fun w n => ?_) _ w
  refine foldl_same cells (fun w name => ?_) _ w
  split <;> rfl

/-- **Waiting for an answer about properties**: the object answers, and but for what it does with its
state nothing happens to objects and proxies. -/
theorem Reaches.await {o : Object} (h : w.Reaches b me r id o) (hw : w.Orderly)
    (hlink : r.link = .bus b me) (hr : r.purpose = .answer) :
    ∃ steps, let v := w.run (.ask r :: .poll w.nextTask :: steps)
      w.await r = (v.dropOutcome w.nextTask, some (w.answeredBy id o r.call).2) ∧
        v.outcomes.get? w.nextTask = some (w.answeredBy id o r.call).2 ∧
        v.proxies = w.proxies ∧ v.objects = (w.answeredBy id o r.call).1.objects ∧
        v.cells = (w.answeredBy id o r.call).1.cells := by
  have ht : (w.act (.ask r)).tasks.get? w.nextTask = some (.request r .unsent) := by
    rw [act_ask w hr]
    exact Table.get?_insert_self _ _ _
  have hasked : (w.act (.ask r)).Reaches b me r id o := (reaches_ask hr).mpr h
  have hanswer : (w.act (.ask r)).answeredBy id o r.call
      = (((w.act (.ask r)).answeredBy id o r.call).1, (w.answeredBy id o r.call).2) := by
    rw [act_ask w hr]
    rfl
  have ho := hasked.outcomeOf hlink ht
  rw [hanswer] at ho
  obtain ⟨steps, hsteps, hawait, houtcome⟩ := await_settled hw hr ho
  refine ⟨steps, hawait, houtcome, ?_⟩
  -- The first poll hands the request over, and lays the answer by.
  have hpolled : ((w.act (.ask r)).act (.poll w.nextTask)).proxies = w.proxies ∧
      ((w.act (.ask r)).act (.poll w.nextTask)).objects = (w.answeredBy id o r.call).1.objects ∧
      ((w.act (.ask r)).act (.poll w.nextTask)).cells = (w.answeredBy id o r.call).1.cells := by
    have htaken : ((w.act (.ask r)).taken w.nextTask).Reaches b me r id o :=
      ⟨hasked.registered, hasked.object⟩
    have hlook : ((w.act (.ask r)).taken w.nextTask).look r .unsent
        = ((((w.act (.ask r)).taken w.nextTask).answeredBy id o r.call).1,
          .inl (((w.act (.ask r)).taken w.nextTask).answeredBy id o r.call).2) := by
      rw [look, hlink]
      exact htaken.issueBus
    rw [act_settle ht (by rw [hlook]), hlook, proxies_closeUnheld, objects_closeUnheld_eq,
      cells_closeUnheld, hr, act_ask w hr]
    exact ⟨rfl, rfl, rfl⟩
  rcases hsteps with rfl | rfl
  · exact hpolled
  · rw [run_cons, run_cons, run_cons, run_nil,
      act_poll_ended (ended_of_settle (orderly_act hw _) ho).1]
    exact hpolled

/-! ## 3. What a proxy is told -/

/-- The target, seen from the open connection `me`, is the object `o`, of number `id`. -/
structure Offers (w : World) (b : Nat) (me : String) (target : Target) (id : Nat) (o : Object) :
    Prop where
  isOpen : (w.bus b).isOpen me = true
  found : ∃ owner, (w.bus b).resolve target.name = some owner ∧
    (w.bus b).handler? ⟨owner, target.path, target.interface⟩ = some id
  object : w.objects.get? id = some o

/-- A request for properties of the target reaches the object. -/
theorem Offers.reaches {o : Object} (h : w.Offers b me p.target id o) (member : String)
    (body : Container) (hbody : PropertyCall.interface body.values = .ok p.target.interface) :
    w.Reaches b me (plainRequest p (.properties p.target member body) .answer) id o := by
  obtain ⟨owner, hresolve, hhandler⟩ := h.found
  obtain ⟨⟨n, _⟩, hregistered, rfl⟩ := Option.map_eq_some_iff.mp hhandler
  refine ⟨⟨owner, p.target.interface, n, ?_, hbody, hregistered⟩, h.object⟩
  exact route_eq_properties.mpr ⟨h.isOpen, rfl, hresolve, rfl⟩

/-- The proxy `p`, of number `x`, has the interface `i`, knows of no property, and its target is the
object `id`. -/
structure Fresh (w : World) (i : Interface) (id x : Nat) (p : Proxy) : Prop where
  proxy : w.proxies.get? x = some p
  interface : p.interface = i
  cache : p.cache = .empty
  offered : ∃ b me o, p.link = .bus b me ∧ w.Offers b me p.target id o

/-- **What a fresh proxy is told of a property** is what the service tells of it. -/
theorem Fresh.getProperty (h : w.Fresh i id x p) (hw : w.Orderly) {o : Object}
    (ho : w.objects.get? id = some o) (hi : o.interface = i) {name : String} {v : Value} :
    (w.getProperty x p name).2 = some (.ok (some v)) ↔
      ∃ y, (o.service.propertyGet i w.cells name).result = .ok (some y) ∧ y.value = v := by
  obtain ⟨b, me, o', hlink, hoffers⟩ := h.offered
  cases ho.symm.trans hoffers.object
  have hunknown : p.cache.get? name = none := by rw [h.cache]; rfl
  unfold World.getProperty
  cases hproperty : p.property name .read with
  | error e =>
    have hstart : p.startGet name = .error e := by rw [Proxy.startGet, hproperty]; rfl
    simp only [hstart]
    constructor
    · intro hv
      cases hv
    · rintro ⟨y, hy, -⟩
      -- The service would not tell it, either.
      obtain ⟨q, hq, hreadable, -⟩ := Service.propertyGet_eq_ok.mp hy
      rw [← h.interface] at hq
      have hallowed : Need.read.allowedBy q.access = true := hreadable
      rw [Proxy.property_iff.mpr ⟨hq, hallowed⟩] at hproperty
      cases hproperty
  | ok q =>
    rw [Proxy.startGet_unknown hunknown hproperty]
    obtain ⟨steps, hawait, -, hproxies, -⟩ := (hoffers.reaches "Get"
      (getBody p.target.interface name) rfl).await hw hlink rfl
    simp only [hawait]
    have hp : ((w.run (.ask (plainRequest p (.properties p.target "Get"
        (getBody p.target.interface name)) .answer) :: .poll w.nextTask :: steps)).dropOutcome
          w.nextTask).proxies.get? x = some p := by
      rw [dropOutcome, hproxies]
      exact h.proxy
    rw [hp]
    simp only [Proxy.finishGet_snd, plainRequest, outcome_answeredBy]
    rw [Option.some.injEq]
    change Proxy.readGet (Service.replyGet name
      (o.service.propertyGet o.interface w.cells name).result) = .ok (some v) ↔ _
    rw [Proxy.readGet_replyGet, hi]
    simp only [Option.some.injEq, eq_comm]

/-- **Loading all properties** of an object that is there succeeds: the cache is what the service
tells of all properties, and neither the object nor any cell changes. -/
theorem Offers.load {o : Object} (h : w.Offers b me p.target id o) (hw : w.Orderly)
    (hp : w.proxies.get? x = some p) (hlink : p.link = .bus b me) :
    ∃ moves, w.loadProperties x p = (w.run moves, some (.ok ())) ∧
      (w.run moves).proxies.get? x
        = some { p with cache := .ofReply (o.service.propertyGetAll o.interface w.cells).result } ∧
      (w.run moves).objects.get? id = some o ∧ (w.run moves).cells = w.cells := by
  obtain ⟨steps, hawait, houtcome, hproxies, hobjects, hcells⟩ := (h.reaches "GetAll"
    (getAllBody p.target.interface) rfl).await hw hlink rfl
  generalize hmoves : Move.ask (plainRequest p (.properties p.target "GetAll"
    (getAllBody p.target.interface)) .answer) :: .poll w.nextTask :: steps = moves at *
  generalize hv : w.run moves = v at *
  -- The reply is laid by, and the load is ended by taking it up.
  have hp' : (v.dropOutcome w.nextTask).proxies.get? x = some p := by
    rw [dropOutcome, hproxies]
    exact hp
  have hfinish : p.finishInit (w.answeredBy id o (plainRequest p (.properties p.target "GetAll"
      (getAllBody p.target.interface)) .answer).call).2
      = ({ p with cache := .ofReply (o.service.propertyGetAll o.interface w.cells).result },
          .ok ()) := Proxy.finishInit_replyGetAll p _
  have hend : w.run (moves ++ [.endInit x w.nextTask]) = (v.dropOutcome w.nextTask).setProxy x
      { p with cache := .ofReply (o.service.propertyGetAll o.interface w.cells).result } := by
    rw [run_append, hv, run_cons, run_nil, act]
    simp only [houtcome, withProxy, hp', Option.elim_some, hfinish]
  refine ⟨moves ++ [.endInit x w.nextTask], ?_, ?_, ?_, ?_⟩
  · unfold loadProperties
    rw [Proxy.startInit_eq]
    simp only [hawait, hp', hfinish, hend]
  · rw [hend]
    exact Table.get?_insert_self _ _ _
  · rw [hend, setProxy, dropOutcome, hobjects]
    exact Table.get?_insert_self _ _ _
  · rw [hend, setProxy, dropOutcome, hcells]
    rfl

/-! ## 4. Both ways agree -/

/-- What is in the cache is what every fresh proxy of the object would be told. -/
def Mirrors (w : World) (i : Interface) (id : Nat) (c : Cache) : Prop :=
  ∀ y q, w.Fresh i id y q → ∀ name v,
    c.get? name = some v ↔ (w.getProperty y q name).2 = some (.ok (some v))

/-- The entries that an object tells make a cache that mirrors it. -/
theorem mirrors_ofReply (hnodup : (i.properties.map Property.name).Nodup) (hw : w.Orderly)
    {o : Object} (ho : w.objects.get? id = some o) (hi : o.interface = i) :
    w.Mirrors i id (.ofReply (o.service.propertyGetAll i w.cells).result) := by
  intro y q hfresh name v
  rw [Cache.get?_ofReply (Service.nodup_propertyGetAll hnodup), hfresh.getProperty hw ho hi]
  simp only [Service.mem_propertyGetAll_iff hnodup]

/-- **Reading all properties agrees with reading each.**  A service lists `x` under a name just if
it tells `x` of this name, in the order of the declarations, and no name twice.  If the target of a
proxy, on an open connection, is an object of this interface, then loading all properties succeeds,
and whatever was cached before, the cache then has just what a fresh proxy is told, before the load
and after it, for as long as the object's service and the cells are not written to. -/
theorem bulk_agrees {name : String} {ds : List Declaration}
    (hbuilt : Interface.build name ds = .ok i) :
    (∀ (s : Service) (cells : Cells),
      (∀ property y, (property, y) ∈ (s.propertyGetAll i cells).result ↔
        (s.propertyGet i cells property).result = .ok (some y)) ∧
      ((s.propertyGetAll i cells).result.map Prod.fst).Sublist (i.properties.map Property.name) ∧
      ((s.propertyGetAll i cells).result.map Prod.fst).Nodup) ∧
    ∀ (ms : List Move) (x : Nat) (p : Proxy) (b : Nat) (me : String) (id : Nat) (o : Object),
      (empty.run ms).proxies.get? x = some p → p.link = .bus b me →
      (empty.run ms).Offers b me p.target id o → o.interface = i →
      ∃ w' p', (empty.run ms).loadProperties x p = (w', some (.ok ())) ∧
        w'.proxies.get? x = some p' ∧
        (empty.run ms).Mirrors i id p'.cache ∧
        ∀ later, (∃ o', (w'.run later).objects.get? id = some o' ∧ o'.service = o.service) →
          (w'.run later).cells = (empty.run ms).cells → (w'.run later).Mirrors i id p'.cache := by
  have hnodup := Interface.properties_nodup hbuilt
  refine ⟨fun s cells => ⟨fun property y => Service.mem_propertyGetAll_iff hnodup,
    s.propertyGetAll_sublist i cells, Service.nodup_propertyGetAll hnodup⟩, ?_⟩
  intro ms x p b me id o hp hlink hoffers hi
  have hw := orderly_run ms
  obtain ⟨moves, hload, hp', ho', hcells⟩ := hoffers.load hw hp hlink
  rw [hi] at hp'
  have hw' := (later_run moves hw).orderly hw
  refine ⟨_, _, hload, hp', mirrors_ofReply hnodup hw hoffers.object hi, ?_⟩
  rintro later ⟨o'', ho'', hservice⟩ hsame
  have hlater := later_run later hw'
  -- The object has kept its interface.
  have hhandlers := hlater.handlers (show _ = some o.handlers by rw [handlers?, ho', Option.map_some])
  rw [handlers?, ho'', Option.map_some, Option.some.injEq] at hhandlers
  have hi' : o''.interface = i := (congrArg Handlers.interface hhandlers).trans hi
  have hmirrors := mirrors_ofReply hnodup (hlater.orderly hw') ho'' hi'
  rw [hservice, hsame] at hmirrors
  exact hmirrors

/-! ## 5. A cache that is behind -/

/-- The proxy of the gauge has set the note, which the gauge does not know yet. -/
def aheadMoves : List Move := gaugeMoves ++ [.setProperty 0 "Note" (.string "full")]

/-- The proxy, when it knows of a note only. -/
def aheadProxy : Proxy :=
  { gaugeProxy with cache := .ofList [("Note", .variant .string (.string "full"))] }

/-- Another proxy comes. -/
def addReader : Move :=
  .arrange (.addProxy "reader" (.bus 0 ":1.2") gauge ":1.1" "/gauge" none .none .full)

/-- What the proxy knows after it has loaded all properties is what another one is told, which comes
after that: the level, and no note. -/
theorem bulk_agrees_gauge :
    Interface.build "org.example.Gauge" gaugeDeclarations = .ok gauge ∧
      (empty.run aheadMoves).proxies.get? 0 = some aheadProxy ∧
      ∃ w' p' reader, (empty.run aheadMoves).loadProperties 0 aheadProxy = (w', some (.ok ())) ∧
        w'.proxies.get? 0 = some p' ∧
        p'.cache.get? "Level" = some (level ⟨1, by decide⟩) ∧ p'.cache.get? "Note" = none ∧
        (w'.run [addReader]).Fresh gauge 0 1 reader ∧
        ∀ name v, p'.cache.get? name = some v ↔
          ((w'.run [addReader]).getProperty 1 reader name).2 = some (.ok (some v)) := by
  have hbuilt : Interface.build "org.example.Gauge" gaugeDeclarations = .ok gauge := by rfl
  obtain ⟨w', p', hload, hp', -, hmirrors⟩ := (bulk_agrees hbuilt).2 aheadMoves 0 aheadProxy 0
    ":1.2" 0 _ (by rfl) rfl ⟨by rfl, ⟨":1.1", by rfl, by rfl⟩, by rfl⟩ (by rfl)
  obtain rfl : ((empty.run aheadMoves).loadProperties 0 aheadProxy).1 = w' := by rw [hload]
  obtain rfl : { aheadProxy with cache := .ofList [("Level", level ⟨1, by decide⟩)] } = p' :=
    Option.some.inj (hp'.symm.trans (by rfl)).symm
  have hfresh : ∃ reader, (((empty.run aheadMoves).loadProperties 0 aheadProxy).1.run
      [addReader]).Fresh gauge 0 1 reader :=
    ⟨_, by rfl, rfl, rfl, 0, ":1.2", _, rfl, by rfl, ⟨":1.1", by rfl, by rfl⟩, by rfl⟩
  obtain ⟨reader, hreader⟩ := hfresh
  exact ⟨hbuilt, by rfl, _, _, reader, hload, hp', by rfl, by rfl, hreader,
    hmirrors [addReader] ⟨_, by rfl, by rfl⟩ (by rfl) 1 reader hreader⟩

end World

end MessageBus
