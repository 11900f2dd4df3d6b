/-
# Reading and writing a property through a bus

A proxy reads a property, reads all of them, or writes one, by a call on the properties interface.
On its way a value is packed four times: by the proxy, into the body of the call, by the service,
and into the body of the reply.  All but the first of these find it packed already, for a boxed
value is canonical whatever is in the box, and packing what is canonical for a shallow tag changes
nothing (`Container.pack_of_canonical`).  So the two ends of an exchange fit together: what a
service writes down is what a proxy reads (`Proxy.readGet_replyGet`,
`Proxy.readGetAll_replyGetAll`).

A bus answers such a call on the spot (`World.issueBus_forProperties`).  Its request is therefore
unsent, or it has ended (`World.replied_forProperties`), and whoever waits for it waits for nobody
else (`World.await_forProperties`).
-/
import MessageBus.Proofs.Declared
import MessageBus.Proofs.Exports
import MessageBus.Proofs.Fitting
import MessageBus.Proofs.Notifications
import MessageBus.Proofs.Transparency

namespace MessageBus

/-! ## 1. What is sent -/

/-- Packing what is canonical for tags within the limit on nesting changes nothing. -/
theorem Container.pack_of_canonical {ts : List Tag} {vs : List Value} (h : CanonicalAll ts vs)
    (hdepth : ∀ t ∈ ts, t.depth < levels) : Container.pack ts vs = .ok ⟨ts, vs, h⟩ := by
  refine Container.pack_eq_ok.mpr ⟨rfl, ?_⟩
  refine Value.fitAll_of_canonicalAll (fun t ht v hv => ?_) h
  exact Value.fitWithin_of_canonical levels t v hv (hdepth t ht)

/-- The arguments with which one property is asked for. -/
def getBody (interface name : String) : Container :=
  ⟨[.string, .string], [.string interface, .string name],
    .cons (.string _) (.cons (.string _) .nil)⟩

/-- The arguments with which one property is written. -/
def setBody (interface name : String) (x : Variant) : Container :=
  ⟨[.string, .string, .variant], [.string interface, .string name, x.toValue],
    .cons (.string _) (.cons (.string _) (.cons (.variant _ _) .nil))⟩

/-- The argument with which all properties are asked for. -/
def getAllBody (interface : String) : Container :=
  ⟨[.string], [.string interface], .cons (.string _) .nil⟩

namespace Proxy

variable {p p' : Proxy} {name : String} {call : MethodCall}

theorem property_eq_ok {need : Need} {q : Property} (h : p.property name need = .ok q) :
    p.interface.property? name = some q := by
  unfold property at h
  split at h
  · cases h
  · rename_i hq
    simp only at h
    split_ifs at h
    cases h
    exact hq

theorem property_readWrite {q : Property} (hq : p.interface.property? name = some q)
    (haccess : q.access = .readWrite) (need : Need) : p.property name need = .ok q := by
  cases need <;> simp [property, hq, haccess, Access.readable, Access.writable]

theorem request_eq (p : Proxy) (member : String) {ts : List Tag} {vs : List Value}
    (h : CanonicalAll ts vs) (hdepth : ∀ t ∈ ts, t.depth < levels) :
    p.request member ts vs = .ok (.properties p.target member ⟨ts, vs, h⟩) := by
  unfold request
  rw [Container.pack_of_canonical h hdepth]
  rfl

theorem request_get (p : Proxy) (name : String) :
    p.request "Get" [.string, .string] [.string p.target.interface, .string name]
      = .ok (.properties p.target "Get" (getBody p.target.interface name)) :=
  p.request_eq "Get" _ (by decide)

theorem request_set (p : Proxy) (name : String) (x : Variant) :
    p.request "Set" [.string, .string, .variant]
        [.string p.target.interface, .string name, x.toValue]
      = .ok (.properties p.target "Set" (setBody p.target.interface name x)) :=
  p.request_eq "Set" _ (by decide)

/-- A property is asked for that is declared and not in the cache. -/
theorem startGet_eq_inr (h : p.startGet name = .ok (.inr call)) :
    (∃ q, p.interface.property? name = some q) ∧ p.cache.get? name = none ∧
      call = .properties p.target "Get" (getBody p.target.interface name) := by
  unfold startGet at h
  obtain ⟨q, hq, h⟩ := bind_eq_ok.1 h
  split at h
  · cases h
  · rename_i hnone
    obtain ⟨c, hc, h⟩ := bind_eq_ok.1 h
    cases (p.request_get name).symm.trans hc
    cases h
    exact ⟨⟨q, property_eq_ok hq⟩, hnone, rfl⟩

/-- What is in the cache is read from there. -/
theorem startGet_eq_inl {v : Value} (h : p.startGet name = .ok (.inl v)) :
    p.cache.get? name = some v := by
  unfold startGet at h
  obtain ⟨q, -, h⟩ := bind_eq_ok.1 h
  split at h
  · rename_i hsome
    cases h
    exact hsome
  · obtain ⟨c, -, h⟩ := bind_eq_ok.1 h
    cases h

/-- All properties are asked for, whatever the proxy knows of them. -/
theorem startInit_eq (p : Proxy) :
    p.startInit = .ok (.properties p.target "GetAll" (getAllBody p.target.interface)) :=
  p.request_eq "GetAll" (.cons (.string _) .nil) (by decide)

/-- **Writing a property**: it has to be declared as writable, and the value has to fit its tag;
what is cached and sent is the value that fits. -/
theorem startSet_eq_ok {v : Value} : p.startSet name v = .ok (p', call) ↔
    ∃ q x, p.property name .write = .ok q ∧ Variant.make q.tag v = .ok x ∧
      p' = { p with cache := p.cache.insert name x.value } ∧
      call = .properties p.target "Set" (setBody p.target.interface name x) := by
  have hrequest : ∀ x : Variant, Proxy.request { p with cache := p.cache.insert name x.value } "Set"
      [.string, .string, .variant] [.string p.target.interface, .string name, x.toValue]
        = .ok (.properties p.target "Set" (setBody p.target.interface name x)) := fun x =>
    request_set { p with cache := p.cache.insert name x.value } name x
  unfold startSet
  constructor
  · intro h
    obtain ⟨q, hq, h⟩ := bind_eq_ok.1 h
    obtain ⟨x, hx, h⟩ := bind_eq_ok.1 h
    obtain ⟨c, hc, h⟩ := bind_eq_ok.1 h
    cases (hrequest x).symm.trans hc
    cases h
    exact ⟨q, x, hq, mapError_eq_ok.mp hx, rfl, rfl⟩
  · rintro ⟨q, x, hq, hx, rfl, rfl⟩
    refine bind_eq_ok.2 ⟨q, hq, bind_eq_ok.2 ⟨x, mapError_eq_ok.mpr hx, ?_⟩⟩
    exact bind_eq_ok.2 ⟨_, hrequest x, rfl⟩

end Proxy

/-! ## 2. What comes back -/

theorem Variant.make_eq_ok {t : Tag} {v : Value} {x : Variant} :
    Variant.make t v = .ok x ↔ x.tag = t ∧ Value.fit t v = .ok x.value := by
  unfold Variant.make
  constructor
  · intro h
    obtain ⟨u, hu, h⟩ := bind_eq_ok.1 h
    cases h
    exact ⟨rfl, hu⟩
  · rintro ⟨rfl, hx⟩
    exact bind_eq_ok.2 ⟨x.value, hx, rfl⟩

/-- What is boxed with a tag is canonical for it. -/
theorem Variant.canonical_of_make {t : Tag} {v : Value} {x : Variant}
    (h : Variant.make t v = .ok x) : Canonical t x.value :=
  Value.canonical_of_fit (Variant.make_eq_ok.mp h).2

/-- A value that has been boxed once is boxed as it is. -/
theorem Variant.make_again {t : Tag} {v : Value} {x : Variant} (h : Variant.make t v = .ok x) :
    Variant.make t x.value = .ok x := by
  obtain ⟨rfl, hfit⟩ := Variant.make_eq_ok.mp h
  exact Variant.make_eq_ok.mpr ⟨rfl, Value.fitWithin_idempotent levels x.tag v x.value hfit⟩

namespace Proxy

/-- Reading ends with what has been read. -/
theorem finishGet_snd (p : Proxy) (name : String) (reply : Except TransportError Container) :
    (p.finishGet name reply).2 = readGet reply := by
  unfold finishGet
  split <;> rename_i h <;> exact h.symm

/-- **What is read for one property** is the value of the reply. -/
theorem readGet_replyGet {name : String} {reply : Reply (Option Variant)} {v : Option Value} :
    readGet (Service.replyGet name reply) = .ok v ↔
      ∃ x, reply = .ok (some x) ∧ v = some x.value := by
  cases reply with
  | error e => simp [Service.replyGet, readGet, bind, Except.bind]
  | ok x =>
    cases x with
    | none => simp [Service.replyGet, readGet, bind, Except.bind]
    | some x =>
      have hcanonical : CanonicalAll [.variant] [x.toValue] := .cons (.variant _ _) .nil
      have hpack := Container.pack_of_canonical hcanonical (by decide)
      have hread : readGet (Service.replyGet name (.ok (some x))) = .ok (some x.value) := by
        simp only [Service.replyGet, readGet, hpack]
        rfl
      rw [hread]
      simp [eq_comm]

/-- **What is read for all properties** are the entries of the reply. -/
theorem readGetAll_replyGetAll (entries : List (String × Variant)) :
    readGetAll (Service.replyGetAll entries)
      = .ok (entries.map fun e => (.string e.1, e.2.toValue)) := by
  have hcanonical : CanonicalAll [.dict .string .variant]
      [.dict (entries.map fun e => (.string e.1, e.2.toValue))] := by
    refine .cons (.dict _ _ _ (fun e he => ?_) fun e he => ?_) .nil
    · obtain ⟨x, -, rfl⟩ := List.mem_map.mp he
      exact .string _
    · obtain ⟨x, -, rfl⟩ := List.mem_map.mp he
      exact .variant _ _
  unfold Service.replyGetAll readGetAll
  rw [Container.pack_of_canonical hcanonical (by decide)]
  rfl

end Proxy

namespace Cache

/-- What is known after it has come from the entries, or was known before. -/
theorem get?_learn {entries : List (String × Variant)} {c : Cache} {name : String} {v : Value}
    (h : (c.learn (entries.map fun e => (.string e.1, e.2.toValue))).get? name = some v) :
    (∃ x, (name, x) ∈ entries ∧ v = x.value) ∨ c.get? name = some v := by
  by_cases hbox : ∃ t u, (.string name, .variant t u)
      ∈ entries.map fun e => (Value.string e.1, e.2.toValue)
  · obtain ⟨u, hlast⟩ := exists_lastBox.mpr hbox
    rw [get?_learn_of_lastBox hlast] at h
    cases h
    obtain ⟨t, hmem⟩ := hlast.mem
    obtain ⟨⟨_, x⟩, hx, heq⟩ := List.mem_map.mp hmem
    cases heq
    exact Or.inl ⟨x, hx, rfl⟩
  · rw [get?_learn_of_absent fun t u hmem => hbox ⟨t, u, hmem⟩] at h
    exact Or.inr h

/-- If no name comes twice, all that has come is known. -/
theorem get?_learn_of_mem {entries : List (String × Variant)}
    (hnodup : (entries.map Prod.fst).Nodup) (c : Cache) {name : String} {x : Variant}
    (h : (name, x) ∈ entries) :
    (c.learn (entries.map fun e => (.string e.1, e.2.toValue))).get? name = some x.value := by
  obtain ⟨before, after, rfl⟩ := List.append_of_mem h
  refine get?_learn_of_lastBox ⟨_, x.tag, _, List.map_append, fun s w hmem => ?_⟩ c
  obtain ⟨⟨_, y⟩, hy, heq⟩ := List.mem_map.mp hmem
  cases heq
  rw [List.map_append, List.map_cons] at hnodup
  have hafter := (List.nodup_cons.mp (List.nodup_append.mp hnodup).2.1).1
  exact hafter (List.mem_map.mpr ⟨_, hy, rfl⟩)

end Cache

namespace World

variable {w w' : World} {b t : Nat} {me : String} {r : Request}

/-! ## 3. Requests on the properties interface -/

/-- The request goes through the connection `me` of the bus `b`, and to the properties interface. -/
structure ForProperties (b : Nat) (me : String) (r : Request) : Prop where
  link : r.link = .bus b me
  interface : r.call.interface = propertiesInterface

theorem forProperties_plainRequest {p : Proxy} (hlink : p.link = .bus b me) (member : String)
    (body : Container) (purpose : Purpose) :
    ForProperties b me (plainRequest p (.properties p.target member body) purpose) := ⟨hlink, rfl⟩

theorem outcome_answeredBy (w : World) (id : Nat) (o : Object) (target : Target) (member : String)
    (body : Container) : (w.answeredBy id o (.properties target member body)).2
      = (o.service.answerProperties o.interface w.cells member body.values).outcome := rfl

/-- The request reaches the object `o`, of number `id`. -/
structure Reaches (w : World) (b : Nat) (me : String) (r : Request) (id : Nat) (o : Object) :
    Prop where
  registered : ∃ owner interface n, w.route b me r.call r.cancel = .ok (.properties owner) ∧
    PropertyCall.interface r.call.body.values = .ok interface ∧
    (w.bus b).objects.get? ⟨owner, r.call.path, interface⟩ = some ⟨n, id⟩
  object : w.objects.get? id = some o

theorem Reaches.issueBus {id : Nat} {o : Object} (h : w.Reaches b me r id o) :
    w.issueBus b me r = ((w.answeredBy id o r.call).1, .inl (w.answeredBy id o r.call).2) := by
  obtain ⟨owner, interface, n, hroute, hinterface, hregistered⟩ := h.registered
  have hfound : ((w.bus b).handler? ⟨owner, r.call.path, interface⟩).bind
      (fun id => (w.objects.get? id).map fun o => (id, o)) = some (id, o) := by
    simp [Bus.handler?, hregistered, h.object]
  simp only [World.issueBus, hroute, answerProperties, hinterface, hfound]
  rfl

/-- **A bus answers on the spot**: a request for properties fails and changes nothing, or reaches an
object, which answers. -/
theorem issueBus_forProperties (h : ForProperties b me r) :
    (∃ e, w.issueBus b me r = (w, .inl (.error e))) ∨ ∃ id o, w.Reaches b me r id o := by
  cases hroute : w.route b me r.call r.cancel with
  | error e => exact Or.inl ⟨e, by rw [issueBus, hroute]⟩
  | ok route =>
    cases route with
    | object object =>
      obtain ⟨-, -, owner, -, hordinary, -⟩ := route_eq_object.mp hroute
      exact absurd h.interface hordinary
    | properties owner =>
      rcases answerProperties_cases w b owner r.call with ⟨e, he⟩ | ⟨i, n, id, o, hi, hr, ho, -⟩
      · exact Or.inl ⟨e, by rw [issueBus, hroute]; simp only [he]⟩
      · exact Or.inr ⟨id, o, ⟨owner, i, n, hroute, hi, hr⟩, ho⟩

/-- What an unsent request for properties comes to when it is polled. -/
theorem outcomeOf_forProperties (h : ForProperties b me r)
    (ht : w.tasks.get? t = some (.request r .unsent)) :
    (∃ e, w.outcomeOf t = some (.error e)) ∨
      ∃ id o, w.Reaches b me r id o ∧ w.outcomeOf t = some (w.answeredBy id o r.call).2 := by
  have hlook : (w.taken t).look r .unsent = (w.taken t).issueBus b me r := by rw [look, h.link]
  rcases issueBus_forProperties (w := w.taken t) h with ⟨e, he⟩ | ⟨id, o, hreaches⟩
  · exact Or.inl ⟨e, outcomeOf_eq_some.mpr ⟨r, .unsent, ht, by rw [hlook, he]⟩⟩
  · refine Or.inr ⟨id, o, ⟨hreaches.registered, hreaches.object⟩, ?_⟩
    exact outcomeOf_eq_some.mpr ⟨r, .unsent, ht, by rw [hlook, hreaches.issueBus]; rfl⟩

theorem Reaches.outcomeOf {id : Nat} {o : Object} (h : w.Reaches b me r id o)
    (hlink : r.link = .bus b me) (ht : w.tasks.get? t = some (.request r .unsent)) :
    w.outcomeOf t = some (w.answeredBy id o r.call).2 := by
  have hreaches : (w.taken t).Reaches b me r id o := ⟨h.registered, h.object⟩
  refine outcomeOf_eq_some.mpr ⟨r, .unsent, ht, ?_⟩
  rw [look, hlink]
  simp only [hreaches.issueBus]
  rfl

/-- The poll of a request that reaches an object leaves the object as it has answered. -/
theorem Reaches.objects_poll {id : Nat} {o : Object} (h : w.Reaches b me r id o)
    (hlink : r.link = .bus b me) (ht : w.tasks.get? t = some (.request r .unsent)) :
    (w.act (.poll t)).objects = (w.answeredBy id o r.call).1.objects := by
  have hreaches : (w.taken t).Reaches b me r id o := ⟨h.registered, h.object⟩
  have hlook : (w.taken t).look r .unsent = (((w.taken t).answeredBy id o r.call).1,
      .inl ((w.taken t).answeredBy id o r.call).2) := by
    rw [look, hlink]
    exact hreaches.issueBus
  rw [act_settle ht (by rw [hlook]), hlook, objects_closeUnheld_eq]
  exact ((inert_settleRequest _ t r.purpose _).trans (inert_endTask _ t)).objects

/-! ## 4. From the request to its outcome -/

/-- What has been laid by was laid by before, or has just been laid by. -/
theorem outcomes_act (hw : w.Orderly) {m : Move} {o : Except TransportError Container}
    (h : (w.act m).outcomes.get? t = some o) :
    w.outcomes.get? t = some o ∨ m = .poll t ∧ w.outcomeOf t = some o := by
  cases hm : m.polled with
  | some s =>
    obtain rfl := Move.eq_poll hm
    rw [outcomes_step hw rfl, Option.or_eq_some_iff] at h
    rcases h with h | ⟨-, h⟩
    · split_ifs at h with heq
      obtain rfl := Option.some.inj heq
      unfold laid at h
      split at h
      · split_ifs at h
        exact Or.inr ⟨rfl, h⟩
      · cases h
    · exact Or.inl h
  | none =>
    by_cases hsub : submissions w m = []
    · obtain ⟨v, hv, huntold⟩ := untold_act hw hm hsub
      rw [huntold.outcomes] at h
      rcases hv with rfl | ⟨task, rfl⟩
      · exact Or.inl h
      · rw [dropOutcome, Table.get?_erase] at h
        split_ifs at h
        exact Or.inl h
    · obtain ⟨id, p, method, args, c, -, -, -, hact, -⟩ := submitting hsub
      rw [hact, spawn_eq] at h
      exact Or.inl h

/-- What is laid by for a task that has ended was laid by when it ended. -/
theorem outcomes_ended (ms : List Move) {w : World} (hw : w.Orderly) (ht : w.tasks.get? t = none)
    (hlt : t < w.nextTask) {o : Except TransportError Container}
    (h : (w.run ms).outcomes.get? t = some o) : w.outcomes.get? t = some o := by
  induction ms generalizing w with
  | nil => exact h
  | cons m ms ih =>
    obtain ⟨ht', hlt'⟩ := ended_act hw ht hlt m
    rcases outcomes_act hw (ih (orderly_act hw m) ht' hlt' h) with hold | ⟨-, hnew⟩
    · exact hold
    · rw [outcomeOf, ht] at hnew
      cases hnew

/-- **What somebody is told of a request for properties** is what it came to when it was handed
over. -/
theorem replied_forProperties (hr : ForProperties b me r) (ms : List Move) {w : World}
    (hw : w.Orderly) (ht : w.tasks.get? t = some (.request r .unsent))
    (ho : w.outcomes.get? t = none) {o : Except TransportError Container}
    (h : (w.run ms).outcomes.get? t = some o) :
    ∃ before after, ms = before ++ .poll t :: after ∧
      (w.run before).tasks.get? t = some (.request r .unsent) ∧
      (w.run before).outcomeOf t = some o := by
  induction ms generalizing w with
  | nil =>
    rw [run_nil, ho] at h
    cases h
  | cons m ms ih =>
    by_cases hm : m.polled = some t
    · obtain rfl := Move.eq_poll hm
      -- The first poll is the last.
      have hends : ∃ x, w.outcomeOf t = some x := by
        rcases outcomeOf_forProperties hr ht with ⟨e, he⟩ | ⟨id, o, -, ho⟩
        · exact ⟨_, he⟩
        · exact ⟨_, ho⟩
      obtain ⟨x, hx⟩ := hends
      obtain ⟨ht', hlt'⟩ := ended_of_settle hw hx
      have hlaid := outcomes_ended ms (orderly_act hw _) ht' hlt' h
      rcases outcomes_act hw hlaid with hold | ⟨-, hnew⟩
      · rw [ho] at hold
        cases hold
      · exact ⟨[], ms, rfl, ht, hnew⟩
    · have ho' : (w.act m).outcomes.get? t = none := by
        cases hx : (w.act m).outcomes.get? t with
        | none => rfl
        | some x =>
          rcases outcomes_act hw hx with hold | ⟨rfl, -⟩
          · rw [ho] at hold
            cases hold
          · exact absurd rfl hm
      obtain ⟨before, after, rfl, hbefore⟩ := ih (orderly_act hw m) (task_act hw hm ht) ho' h
      exact ⟨m :: before, after, rfl, hbefore⟩

/-- What somebody is told in a run of a request that he has made there. -/
theorem replied_asked (hr : ForProperties b me r) (hanswer : r.purpose = .answer)
    (earlier : List Move) {later : List Move} {o : Except TransportError Container}
    (h : (empty.run (earlier ++ .ask r :: later)).outcomes.get? (empty.run earlier).nextTask
      = some o) :
    ∃ mid rest, later = mid ++ .poll (empty.run earlier).nextTask :: rest ∧
      (empty.run (earlier ++ .ask r :: mid)).tasks.get? (empty.run earlier).nextTask
        = some (.request r .unsent) ∧
      (empty.run (earlier ++ .ask r :: mid)).outcomeOf (empty.run earlier).nextTask = some o := by
  have hask := act_ask (empty.run earlier) hanswer
  have htask : ((empty.run earlier).act (.ask r)).tasks.get? (empty.run earlier).nextTask
      = some (.request r .unsent) := by
    rw [hask]
    exact Table.get?_insert_self _ _ _
  have hnone : ((empty.run earlier).act (.ask r)).outcomes.get? (empty.run earlier).nextTask
      = none := by
    rw [hask]
    exact Classical.byContradiction fun hsome =>
      Nat.lt_irrefl _ (outcomesBelow_run earlier _ hsome)
  rw [run_append, run_cons] at h
  obtain ⟨mid, rest, rfl, hmid, houtcome⟩ :=
    replied_forProperties hr later (orderly_act (orderly_run earlier) _) htask hnone h
  refine ⟨mid, rest, rfl, ?_⟩
  rw [run_append, run_cons]
  exact ⟨hmid, houtcome⟩

/-- A request that is made reaches what it would have reached before. -/
theorem reaches_ask {q : Request} (hanswer : q.purpose = .answer) {id : Nat} {o : Object} :
    (w.act (.ask q)).Reaches b me r id o ↔ w.Reaches b me r id o := by
  rw [act_ask w hanswer]
  exact ⟨fun h => ⟨h.registered, h.object⟩, fun h => ⟨h.registered, h.object⟩⟩

/-- **Whoever waits for properties** gets what their request comes to when it is made: an error, or
the answer of the object that it reaches. -/
theorem await_forProperties (h : w.Sound)
    (hbelow : ∀ t, w.outcomes.get? t ≠ none → t < w.nextTask) (hr : ForProperties b me r)
    (hanswer : r.purpose = .answer) :
    ∃ steps outcome, w.await r =
        ({ w.run (.ask r :: .poll w.nextTask :: steps) with
            outcomes := (w.run (.ask r :: .poll w.nextTask :: steps)).outcomes.erase w.nextTask },
          some outcome) ∧
      ((∃ e, outcome = .error e) ∨ ∃ id o, w.Reaches b me r id o) ∧
      ∀ id o, w.Reaches b me r id o → outcome = (w.answeredBy id o r.call).2 := by
  have ht : (w.act (.ask r)).tasks.get? w.nextTask = some (.request r .unsent) := by
    rw [act_ask w hanswer]
    exact Table.get?_insert_self _ _ _
  have hcells : (w.act (.ask r)).cells = w.cells := by rw [act_ask w hanswer]
  -- What it comes to where it reaches an object.
  have hanswered : ∀ {x}, (w.act (.ask r)).outcomeOf w.nextTask = some x →
      ∀ id o, w.Reaches b me r id o → x = (w.answeredBy id o r.call).2 := by
    intro x hx id o hreaches
    have houtcome := ((reaches_ask hanswer).mpr hreaches).outcomeOf hr.link ht
    rw [hx] at houtcome
    refine (Option.some.inj houtcome).trans ?_
    simp only [answeredBy, hcells]
  obtain ⟨steps, hawait⟩ := await_run h hbelow hanswer
  rw [observe_cons, settled_poll] at hawait
  rcases outcomeOf_forProperties hr ht with ⟨e, ho⟩ | ⟨id, o, hreaches, ho⟩
  · refine ⟨steps, .error e, ?_, Or.inl ⟨e, rfl⟩, hanswered ho⟩
    rw [hawait, ho]
    rfl
  · refine ⟨steps, _, ?_, Or.inr ⟨id, o, (reaches_ask hanswer).mp hreaches⟩, hanswered ho⟩
    rw [hawait, ho]
    rfl

end World

end MessageBus
