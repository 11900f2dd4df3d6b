/-
# Properties that are written in the background

A proxy that sets a property has the new value in its cache at once, and the object has it when the
request that was set going is polled.  In between other things may happen, among them further writes
of the same property.

What is sent is what is cached, and what the object keeps is what was sent: a value that has been
packed once is packed as it is (`Variant.make_again`).  Of the writes that a run has started, some
have run, and the rest are under way.  If they are served in their order, those that have run came
first, and the object holds the value of the last of them (`World.Backlog`).  When none is under way
this is the value that was set last, and whoever asks for the property is told it
(`World.writes_read_back`).
-/
import MessageBus.Proofs.Caches
import Mathlib.Tactic.IntervalCases

namespace MessageBus

/-- A property that an object on a bus holds as a plain field. -/
structure PlainField where
  bus : Nat
  object : Nat
  property : Property

namespace PlainField

/-- The property's name. -/
abbrev name (f : PlainField) : String := f.property.name

/-- The property's tag. -/
abbrev tag (f : PlainField) : Tag := f.property.tag

/-- A value as the object tells it, if it fits. -/
def told (f : PlainField) (v : Value) : Option Value :=
  (Variant.make f.tag v).toOption.map (·.value)

theorem told_eq_some {f : PlainField} {v u : Value} :
    f.told v = some u ↔ ∃ x, Variant.make f.tag v = .ok x ∧ x.value = u := by
  unfold told
  cases Variant.make f.tag v <;> simp [Except.toOption]

end PlainField

/-- A property that is not in the cache is asked for. -/
theorem Proxy.startGet_fresh {p : Proxy} {name : String} {q : Property}
    (hq : p.interface.property? name = some q) (haccess : q.access = .readWrite)
    (hfresh : p.cache.get? name = none) :
    p.startGet name
      = .ok (.inr (.properties p.target "Get" (getBody p.target.interface name))) := by
  unfold startGet
  rw [property_readWrite hq haccess, hfresh, request_get]
  rfl

namespace World

variable {w w' : World} {p : Proxy} {f : PlainField} {x : Nat}

/-! ## 1. Where a property is -/

/-- What the object holds. -/
def stored (w : World) (f : PlainField) : Option Value :=
  (w.objects.get? f.object).bind fun o => o.service.fields.get? f.name

/-- What the proxy has cached. -/
def cached (w : World) (x : Nat) (name : String) : Option Value :=
  (w.account? x).bind fun a => a.cache.get? name

/-- The object has the interface and holds the property as a plain field. -/
structure Plain (i : Interface) (f : PlainField) (o : Object) : Prop where
  interface : o.interface = i
  noGetter : o.service.getters.get? f.name = none
  noSetter : o.service.setters.get? f.name = none

/-- The property can be read and written, through an open connection, where the proxy looks. -/
structure Holds (w : World) (p : Proxy) (f : PlainField) : Prop where
  declared : p.interface.property? f.name = some f.property
  access : f.property.access = .readWrite
  isOpen : ∃ me, p.link = .bus f.bus me ∧ (w.bus f.bus).isOpen me = true
  found : ∃ owner, (w.bus f.bus).resolve p.target.name = some owner ∧
    (w.bus f.bus).handler? ⟨owner, p.target.path, p.interface.name⟩ = some f.object
  plain : ∃ o, w.objects.get? f.object = some o ∧ Plain p.interface f o

/-- A request for properties of the target that comes from an open connection reaches the object. -/
theorem Holds.reaches (h : w.Holds p f) (haimed : p.target.interface = p.interface.name)
    {me : String} (hopen : (w.bus f.bus).isOpen me = true) {r : Request} {member : String}
    {body : Container}
    (hcall : r.call = .properties p.target member body) (hcancel : r.cancel = none)
    (hbody : PropertyCall.interface body.values = .ok p.target.interface) :
    ∃ o, w.Reaches f.bus me r f.object o ∧ Plain p.interface f o := by
  obtain ⟨owner, hresolve, hhandler⟩ := h.found
  obtain ⟨o, ho, hplain⟩ := h.plain
  obtain ⟨⟨n, _⟩, hregistered, rfl⟩ := Option.map_eq_some_iff.mp hhandler
  have hroute : w.route f.bus me r.call r.cancel = .ok (.properties owner) := by
    refine route_eq_properties.mpr ⟨hopen, ?_, ?_, ?_⟩
    · rw [hcancel]
      rfl
    · rw [hcall]
      exact hresolve
    · rw [hcall]
      rfl
  have hinterface : PropertyCall.interface r.call.body.values = .ok p.target.interface := by
    rw [hcall]
    exact hbody
  refine ⟨o, ⟨⟨owner, p.target.interface, n, hroute, hinterface, ?_⟩, ho⟩, hplain⟩
  rw [hcall, haimed]
  exact hregistered

/-- So does the request of any proxy for the target, and the object that it reaches holds the
property. -/
theorem Holds.reaches_asked (h : w.Holds p f) (haimed : p.target.interface = p.interface.name)
    {q : Proxy} (htarget : q.target = p.target) {me : String}
    (hopen : (w.bus f.bus).isOpen me = true) (member : String) (body : Container)
    (hbody : PropertyCall.interface body.values = .ok q.target.interface) :
    ∃ o, w.Reaches f.bus me (plainRequest q (.properties q.target member body) .answer) f.object o ∧
      Plain p.interface f o ∧ w.stored f = o.service.fields.get? f.name := by
  rw [htarget] at hbody ⊢
  obtain ⟨o, hreaches, hplain⟩ := h.reaches haimed hopen
    (r := plainRequest q (.properties p.target member body) .answer) rfl rfl hbody
  refine ⟨o, hreaches, hplain, ?_⟩
  rw [stored, hreaches.object, Option.bind_some]

/-! ## 2. What the object answers -/

section Plain

variable {i : Interface} {o : Object} {cells : Cells} {a : String}

/-- The object keeps a value that fits as it is sent. -/
theorem Plain.set (hp : Plain i f o) (hdeclared : i.property? f.name = some f.property)
    (haccess : f.property.access = .readWrite) {v : Value} {y : Variant}
    (hy : Variant.make f.tag v = .ok y) :
    o.service.answerProperties o.interface cells "Set" (setBody a f.name y).values
      = ⟨.ok .empty, [], { o.service with fields := o.service.fields.insert f.name y.value },
          cells⟩ := by
  have hset : o.service.propertySet i cells f.name y.value
      = .ok ({ o.service with fields := o.service.fields.insert f.name y.value }, cells) := by
    simp [Service.propertySet, Service.property, hdeclared, haccess, Access.writable,
      Variant.make_again hy, Service.set, hp.noSetter]
  have hvalues : (setBody a f.name y).values = [.string a, .string f.name, y.toValue] := rfl
  simp only [hvalues, Service.answerProperties, Variant.toValue, hp.interface, hset]

/-- What the object tells of the property is what it holds, boxed. -/
theorem Plain.readReply (hp : Plain i f o) {y : Variant} :
    (o.service.readReply cells f.property).result = .ok (some y) ↔
      ∃ v, o.service.fields.get? f.name = some v ∧ Variant.make f.tag v = .ok y := by
  rw [Service.readReply_eq_ok, Service.get, hp.noGetter]

/-- The reply to a request for the property. -/
theorem Plain.get (hp : Plain i f o) (hdeclared : i.property? f.name = some f.property)
    (haccess : f.property.access = .readWrite) {u : Value} :
    Proxy.readGet (o.service.answerProperties o.interface cells "Get"
        (getBody a f.name).values).outcome = .ok (some u) ↔
      (o.service.fields.get? f.name).bind f.told = some u := by
  have hanswer : (o.service.answerProperties o.interface cells "Get"
        (getBody a f.name).values).outcome
      = Service.replyGet f.name (o.service.propertyGet i cells f.name).result := by
    rw [← hp.interface]
    rfl
  rw [hanswer, Proxy.readGet_replyGet, Option.bind_eq_some_iff]
  simp only [Service.propertyGet_eq_ok, hdeclared, Option.some.injEq, exists_eq_left', haccess,
    Access.readable, true_and, hp.readReply, PlainField.told_eq_some]
  constructor
  · rintro ⟨y, ⟨v, hv, hy⟩, rfl⟩
    exact ⟨v, hv, y, hy, rfl⟩
  · rintro ⟨v, hv, y, hy, rfl⟩
    exact ⟨y, ⟨v, hv, hy⟩, rfl⟩

/-- When all properties have come, what is cached of this one is what the object tells of it. -/
theorem Plain.getAll (hp : Plain i f o) (hdeclared : i.property? f.name = some f.property)
    (haccess : f.property.access = .readWrite)
    (hnodup : (i.properties.map Property.name).Nodup) (q : Proxy) :
    (q.finishInit (o.service.answerProperties o.interface cells "GetAll"
        (getAllBody a).values).outcome).1.cache.get? f.name
      = (o.service.fields.get? f.name).bind f.told := by
  have hanswer : (o.service.answerProperties o.interface cells "GetAll"
        (getAllBody a).values).outcome
      = Service.replyGetAll (o.service.propertyGetAll i cells).result := by
    rw [← hp.interface]
    rfl
  have hmember : f.property ∈ i.properties := List.mem_of_find?_eq_some hdeclared
  rw [hanswer, Proxy.finishInit, Proxy.readGetAll_replyGetAll]
  refine Option.ext fun u => ?_
  rw [Option.bind_eq_some_iff]
  constructor
  · intro hu
    rcases Cache.get?_learn hu with ⟨y, hy, rfl⟩ | hempty
    · obtain ⟨d, hd, -, hname, hread⟩ := Service.mem_propertyGetAll.mp hy
      obtain rfl := List.inj_on_of_nodup_map hnodup hd hmember hname
      obtain ⟨v, hv, hmake⟩ := hp.readReply.mp hread
      exact ⟨v, hv, PlainField.told_eq_some.mpr ⟨y, hmake, rfl⟩⟩
    · cases hempty
  · rintro ⟨v, hv, htold⟩
    obtain ⟨y, hmake, rfl⟩ := PlainField.told_eq_some.mp htold
    have hy : (f.name, y) ∈ (o.service.propertyGetAll i cells).result := by
      refine Service.mem_propertyGetAll.mpr ⟨f.property, hmember, ?_, rfl, ?_⟩
      · rw [haccess]
        rfl
      · exact hp.readReply.mpr ⟨v, hv, hmake⟩
    exact Cache.get?_learn_of_mem (Service.nodup_propertyGetAll hnodup) .empty hy

end Plain

/-! ## 3. Writes that are under way -/

/-- The write that a move starts, if it sets the property on the proxy `x`: its task, and the value
that is cached. -/
def writes (x : Nat) (name : String) (w : World) : Move → List (Nat × Value)
  | .setProperty y n v =>
    if y = x ∧ n = name then
      match w.proxies.get? x with
      | some q =>
        match q.startSet name v with
        | .ok (q, _) => ((q.cache.get? name).map fun u => (w.nextTask, u)).toList
        | .error _ => []
      | none => []
    else []
  | _ => []

/-- The writes of a run that have run, -/
def written (x : Nat) (name : String) (w : World) (ms : List Move) : List (Nat × Value) :=
  (observe (writes x name) w ms).filter fun e => ((w.run ms).tasks.get? e.1).isNone

/-- and those that are under way. -/
def underway (x : Nat) (name : String) (w : World) (ms : List Move) : List (Nat × Value) :=
  (observe (writes x name) w ms).filter fun e => ((w.run ms).tasks.get? e.1).isSome

/-- The request to write a value. -/
def writeRequest (q : Proxy) (name : String) (y : Variant) : Request :=
  plainRequest q (.properties q.target "Set" (setBody q.target.interface name y)) (.write name)

section Set

variable {q : Proxy} {d : Property} {name : String} {v : Value} {y : Variant} {m : Move}

/-- Setting a property that is writable to a value that fits. -/
theorem setProperty_ok (w : World) (x : Nat) (hd : q.property name .write = .ok d)
    (hy : Variant.make d.tag v = .ok y) :
    w.setProperty x q name v
      = ((w.setProxy x { q with cache := q.cache.insert name y.value }).spawn
          (.request (writeRequest q name y) .unsent), .ok ()) := by
  have hset := Proxy.startSet_eq_ok.mpr ⟨d, y, hd, hy, rfl, rfl⟩
  simp only [setProperty, hset]
  rfl

/-- Setting it to a value that does not fit changes nothing. -/
theorem setProperty_error (w : World) (x : Nat) (hd : q.property name .write = .ok d)
    {e : PackError} (hy : Variant.make d.tag v = .error e) :
    w.setProperty x q name v = (w, .error (.codec e)) := by
  have hset : q.startSet name v = .error (.codec e) := by
    rw [Proxy.startSet, hd]
    change (Variant.make d.tag v).mapError CallError.codec >>= _ = _
    rw [hy]
    rfl
  simp only [setProperty, hset]

theorem act_setProperty (hq : w.proxies.get? x = some q) (name : String) (v : Value) :
    w.act (.setProperty x name v) = (w.setProperty x q name v).1 := by
  rw [act, withProxy, hq]
  rfl

theorem writes_set (hq : w.proxies.get? x = some q) (hd : q.property name .write = .ok d)
    (hy : Variant.make d.tag v = .ok y) :
    writes x name w (.setProperty x name v) = [(w.nextTask, y.value)] := by
  have hset := Proxy.startSet_eq_ok.mpr ⟨d, y, hd, hy, rfl, rfl⟩
  simp [writes, hq, hset]

/-- What is set is known at once. -/
theorem cached_set (hq : w.proxies.get? x = some q) (hd : q.property name .write = .ok d)
    (hy : Variant.make d.tag v = .ok y) :
    (w.act (.setProperty x name v)).cached x name = some y.value := by
  rw [act_setProperty hq, setProperty_ok w x hd hy, spawn_eq, cached, account?_insert rfl,
    if_pos rfl]
  exact Table.get?_insert_self _ _ _

/-- A move starts no write, or it is a successful set. -/
theorem writes_cases (x : Nat) (name : String) (w : World) (m : Move) :
    writes x name w m = [] ∨ ∃ q v d y, m = .setProperty x name v ∧ w.proxies.get? x = some q ∧
      q.property name .write = .ok d ∧ Variant.make d.tag v = .ok y ∧
      writes x name w m = [(w.nextTask, y.value)] := by
  cases m with
  | setProperty n s v =>
    by_cases hthis : n = x ∧ s = name
    · obtain ⟨rfl, rfl⟩ := hthis
      cases hq : w.proxies.get? n with
      | none => simp [writes, hq]
      | some q =>
        cases hset : q.startSet s v with
        | error e => simp [writes, hq, hset]
        | ok r =>
          obtain ⟨d, y, hd, hy, -, -⟩ := Proxy.startSet_eq_ok.mp hset
          exact Or.inr ⟨q, v, d, y, rfl, rfl, hd, hy, writes_set hq hd hy⟩
    · exact Or.inl (if_neg hthis)
  | _ => exact Or.inl rfl

end Set

/-- The request writes the value `u` into the property at the target of the proxy. -/
structure Sends (p : Proxy) (f : PlainField) (r : Request) (u : Value) : Prop where
  link : r.link = p.link
  cancel : r.cancel = none
  call : ∃ v y, Variant.make f.tag v = .ok y ∧ y.value = u ∧
    r.call = .properties p.target "Set" (setBody p.target.interface f.name y)

/-- A write that runs leaves its value in the field, and has ended. -/
theorem Holds.poll_write (h : w.Holds p f) (hw : w.Orderly)
    (haimed : p.target.interface = p.interface.name) {t : Nat} {r : Request} {u : Value}
    (hr : Sends p f r u) (ht : w.tasks.get? t = some (.request r .unsent)) :
    (w.act (.poll t)).stored f = some u ∧ (w.act (.poll t)).tasks.get? t = none := by
  obtain ⟨me, hlink, hopen⟩ := h.isOpen
  obtain ⟨v, y, hy, rfl, hcall⟩ := hr.call
  obtain ⟨o, hreaches, hplain⟩ := h.reaches haimed hopen hcall hr.cancel rfl
  have hlink := hr.link.trans hlink
  refine ⟨?_, (ended_of_settle hw (hreaches.outcomeOf hlink ht)).1⟩
  have hobjects := hreaches.objects_poll hlink ht
  rw [hcall] at hobjects
  change _ = Table.insert _ _ { o with service := (Service.answerProperties o.service o.interface
    w.cells "Set" (setBody p.target.interface f.name y).values).service } at hobjects
  rw [hplain.set h.declared h.access hy] at hobjects
  rw [stored, hobjects, Table.get?_insert_self]
  exact Table.get?_insert_self _ _ _

/-- What does not write to the field leaves it alone. -/
theorem stored_act (hw : w.Orderly) {o : Object} (ho : w.objects.get? f.object = some o) {m : Move}
    (halone : ∀ {s cells}, w.Writes m f.object o s cells →
      s.fields.get? f.name = o.service.fields.get? f.name) :
    (w.act m).stored f = w.stored f := by
  obtain ⟨o', ho', -, hservice⟩ := object_act hw ho m
  rw [stored, stored, ho', ho]
  rcases hservice with hsame | ⟨cells, hwrites⟩
  · exact congrArg (fun s : Service => s.fields.get? f.name) hsame
  · exact halone hwrites

/-! ## 4. First come, first served -/

/-- Of the writes of a run, those in `done` have run, and those in `pending` are under way and stand
in the queue in their order; the field holds the value of the last one that has run. -/
structure Backlog (p : Proxy) (f : PlainField) (initial : Option Value)
    (done pending : List (Nat × Value)) (w : World) : Prop where
  ended : ∀ e ∈ done, w.tasks.get? e.1 = none ∧ e.1 < w.nextTask
  sent : ∀ e ∈ pending, ∃ r, w.tasks.get? e.1 = some (.request r .unsent) ∧ Sends p f r e.2
  queued : (pending.map Prod.fst).Sublist w.ready
  stored : w.stored f = (done.getLast?.map Prod.snd).or initial
  fits : ∀ e ∈ done, f.told e.2 = some e.2

/-- What stands in the queue stands there in the same order until it is polled. -/
theorem queued_act (hw : w.Orderly) {m : Move} {ts : List Nat} (hts : ts.Sublist w.ready)
    (hm : ∀ t ∈ ts, m.polled ≠ some t) : ts.Sublist (w.act m).ready := by
  refine List.Sublist.trans ?_ (onward_act hw m).ready.sublist
  cases m with
  | poll s =>
    have hs : s ∉ ts := fun hmem => hm s hmem rfl
    have herased := hts.erase s
    rwa [List.erase_of_not_mem hs] at herased
  | _ => exact hts

/-- Of some that stand in a queue in their order, the first in the queue is the first of them. -/
theorem find?_of_sublist {ts queue : List Nat} (h : ts.Sublist queue) (hqueue : queue.Nodup) :
    queue.find? (fun t => decide (t ∈ ts)) = ts.head? := by
  induction h with
  | slnil => rfl
  | @cons ts queue s hts ih =>
    obtain ⟨hs, hqueue⟩ := List.nodup_cons.mp hqueue
    have hother : s ∉ ts := fun hmem => hs (hts.subset hmem)
    rw [List.find?_cons_of_neg (by simpa using hother)]
    exact ih hqueue
  | cons_cons s => exact List.find?_cons_of_pos (by simp)

namespace Backlog

variable {initial : Option Value} {done pending : List (Nat × Value)} {m : Move}

/-- A move that neither polls a write nor touches the field. -/
theorem act_other (h : Backlog p f initial done pending w) (hw : w.Orderly)
    (hm : ∀ e ∈ pending, m.polled ≠ some e.1) (hstored : (w.act m).stored f = w.stored f) :
    Backlog p f initial done pending (w.act m) where
  ended := fun e he => ended_act hw (h.ended e he).1 (h.ended e he).2 m
  sent := by
    intro e he
    obtain ⟨r, ht, hr⟩ := h.sent e he
    exact ⟨r, task_act hw (hm e he) ht, hr⟩
  queued := by
    refine queued_act hw h.queued fun t ht => ?_
    obtain ⟨e, he, rfl⟩ := List.mem_map.mp ht
    exact hm e he
  stored := hstored.trans h.stored
  fits := h.fits

/-- A further write is put behind the others. -/
theorem act_set (h : Backlog p f initial done pending w) (hw : w.Orderly) {q : Proxy} {v : Value}
    {y : Variant} (hq : w.proxies.get? x = some q)
    (hd : q.property f.name .write = .ok f.property) (hy : Variant.make f.tag v = .ok y)
    (hlink : q.link = p.link) (htarget : q.target = p.target)
    (hstored : (w.act (.setProperty x f.name v)).stored f = w.stored f) :
    Backlog p f initial done (pending ++ [(w.nextTask, y.value)])
      (w.act (.setProperty x f.name v)) := by
  have hkept := h.act_other hw (m := .setProperty x f.name v) (fun e _ => nofun) hstored
  have hnew : w.nextTask ∉ w.ready := fun hmem => Nat.lt_irrefl _ (hw.readyBelow _ hmem)
  have hact : w.act (.setProperty x f.name v)
      = (w.setProxy x { q with cache := q.cache.insert f.name y.value }).spawn
          (.request (writeRequest q f.name y) .unsent) := by
    rw [act_setProperty hq, setProperty_ok w x hd hy]
  have htask : (w.act (.setProperty x f.name v)).tasks.get? w.nextTask
      = some (.request (writeRequest q f.name y) .unsent) := by
    rw [hact, spawn_eq]
    exact Table.get?_insert_self _ _ _
  have hready : (w.act (.setProperty x f.name v)).ready = w.ready ++ [w.nextTask] := by
    rw [hact]
    exact ready_enqueue_new hnew
  refine ⟨hkept.ended, fun e he => ?_, ?_, hkept.stored, h.fits⟩
  · rcases List.mem_append.mp he with he | he
    · exact hkept.sent e he
    · cases List.mem_singleton.mp he
      exact ⟨_, htask, hlink, rfl, v, y, hy, rfl, by rw [writeRequest, plainRequest, htarget]⟩
  · rw [hready, List.map_append, List.map_singleton]
    exact h.queued.append (.refl _)

/-- The first write runs. -/
theorem act_poll {t : Nat} {u : Value} (h : Backlog p f initial done ((t, u) :: pending) w)
    (hw : w.Orderly) (hholds : w.Holds p f) (haimed : p.target.interface = p.interface.name) :
    Backlog p f initial (done ++ [(t, u)]) pending (w.act (.poll t)) := by
  obtain ⟨r, ht, hr⟩ := h.sent (t, u) List.mem_cons_self
  obtain ⟨hstored, hended⟩ := hholds.poll_write hw haimed hr ht
  -- The others have other numbers.
  have hdistinct : t ∉ pending.map Prod.fst :=
    (List.nodup_cons.mp (h.queued.nodup hw.readyDistinct)).1
  have hother : ∀ s ∈ pending.map Prod.fst, (Move.poll t).polled ≠ some s := by
    rintro s hs heq
    cases heq
    exact hdistinct hs
  refine ⟨fun e he => ?_, fun e he => ?_, ?_, ?_, fun e he => ?_⟩
  · rcases List.mem_append.mp he with he | he
    · exact ended_act hw (h.ended e he).1 (h.ended e he).2 _
    · cases List.mem_singleton.mp he
      exact ⟨hended, Nat.lt_of_lt_of_le (hw.task_lt ht) (later_act hw _).nextTask⟩
  · obtain ⟨r', ht', hr'⟩ := h.sent e (List.mem_cons_of_mem _ he)
    exact ⟨r', task_act hw (hother e.1 (List.mem_map_of_mem he)) ht', hr'⟩
  · exact queued_act hw ((List.sublist_cons_self _ _).trans h.queued) hother
  · rw [hstored, List.getLast?_append]
    rfl
  · rcases List.mem_append.mp he with he | he
    · exact h.fits e he
    · cases List.mem_singleton.mp he
      obtain ⟨v, y, hy, rfl, -⟩ := hr.call
      exact PlainField.told_eq_some.mpr ⟨y, Variant.make_again hy, rfl⟩

/-- What has run and what is under way. -/
theorem parts {name : String} {ms : List Move} (h : Backlog p f initial done pending (w.run ms))
    (hparted : observe (writes x name) w ms = done ++ pending) :
    written x name w ms = done ∧ underway x name w ms = pending := by
  have hdone : ∀ e ∈ done, (w.run ms).tasks.get? e.1 = none := fun e he => (h.ended e he).1
  have hpending : ∀ e ∈ pending, ((w.run ms).tasks.get? e.1).isSome = true := by
    intro e he
    obtain ⟨r, ht, -⟩ := h.sent e he
    rw [ht]
    rfl
  rw [written, underway, hparted, List.filter_append, List.filter_append]
  constructor
  · rw [List.filter_eq_self.mpr fun e he => by rw [hdone e he]; rfl,
      List.filter_eq_nil_iff.mpr fun e he => by simp [Option.isSome_iff_ne_none.mp (hpending e he)],
      List.append_nil]
  · rw [List.filter_eq_nil_iff.mpr fun e he => by simp [hdone e he],
      List.filter_eq_self.mpr hpending, List.nil_append]

end Backlog

/-- In the run `ms`, nothing comes between the property and the writes of the proxy `x`, which knows
of properties what `p` knows. -/
structure Undisturbed (w : World) (ms : List Move) (x : Nat) (p : Proxy) (f : PlainField) :
    Prop where
  /-- The object stays where the proxy looks, and the connection stays open. -/
  holds : ∀ {before after}, ms = before ++ after → (w.run before).Holds p f
  /-- Nobody else writes to the field. -/
  alone : ∀ {before m after o s cells}, ms = before ++ m :: after →
    (w.run before).objects.get? f.object = some o → (w.run before).Writes m f.object o s cells →
    s.fields.get? f.name = o.service.fields.get? f.name ∨
      ∃ e ∈ observe (writes x f.name) w before, m = .poll e.1

/-- First come, first served: of the writes that stand in the queue, the first is polled. -/
def ServedInOrder (x : Nat) (name : String) (w : World) (ms : List Move) : Prop :=
  ∀ {before t after}, ms = before ++ .poll t :: after →
    t ∈ (underway x name w before).map Prod.fst →
    (w.run before).ready.find? (fun s => decide (s ∈ (underway x name w before).map Prod.fst))
      = some t

section Undisturbed

variable {ms before after : List Move} {m : Move} {done pending : List (Nat × Value)}

theorem Undisturbed.stored_act (h : Undisturbed w ms x p f) (hw : w.Orderly)
    (hms : ms = before ++ m :: after)
    (hm : ∀ e ∈ observe (writes x f.name) w before, m = .poll e.1 →
      (w.run before).tasks.get? e.1 = none) :
    ((w.run before).act m).stored f = (w.run before).stored f := by
  obtain ⟨o, ho, -⟩ := (h.holds hms).plain
  refine World.stored_act ((later_run before hw).orderly hw) ho fun {s cells} hwrites => ?_
  rcases h.alone hms ho hwrites with hsame | ⟨e, he, rfl⟩
  · exact hsame
  · -- What has ended does not write.
    have hnone := hm e he rfl
    cases hwrites with
    | answered _ ht _ _ _ _ =>
      rw [hnone] at ht
      cases ht

/-- **Every move of such a run keeps the backlog.** -/
theorem Undisturbed.backlog_act (h : Undisturbed w ms x p f) (hw : w.Orderly)
    (hp : w.proxies.get? x = some p) (hms : ms = before ++ m :: after)
    (hfirst : ∀ {t}, m = .poll t → t ∈ pending.map Prod.fst →
      (pending.map Prod.fst).head? = some t)
    (hparted : observe (writes x f.name) w before = done ++ pending)
    (hbacklog : Backlog p f (w.stored f) done pending (w.run before)) :
    ∃ done' pending', observe (writes x f.name) w (before ++ [m]) = done' ++ pending' ∧
      Backlog p f (w.stored f) done' pending' ((w.run before).act m) := by
  have hv := (later_run before hw).orderly hw
  have hholds := h.holds hms
  rw [observe_append, observe_cons, observe_nil, List.append_nil, hparted]
  rcases writes_cases x f.name (w.run before) m with
    hnone | ⟨q, v, d, y, rfl, hq, hd, hy, hwrites⟩
  · rw [hnone, List.append_nil]
    by_cases hpolled : ∃ e ∈ pending, m.polled = some e.1
    · -- The first of the writes that are under way runs.
      obtain ⟨e, he, hm⟩ := hpolled
      obtain rfl := Move.eq_poll hm
      have hhead := hfirst rfl (List.mem_map_of_mem he)
      cases pending with
      | nil => cases he
      | cons first rest =>
        have hnumber : first.1 = e.1 := by simpa using hhead
        refine ⟨done ++ [first], rest, by simp, ?_⟩
        rw [← hnumber]
        exact hbacklog.act_poll hv hholds (hw.aimed hp)
    · have hnot : ∀ e ∈ pending, m.polled ≠ some e.1 := fun e he hm => hpolled ⟨e, he, hm⟩
      refine ⟨done, pending, rfl, hbacklog.act_other hv hnot (h.stored_act hw hms ?_)⟩
      rintro e he rfl
      rw [hparted] at he
      rcases List.mem_append.mp he with he | he
      · exact (hbacklog.ended e he).1
      · exact absurd rfl (hnot e he)
  · rw [hwrites, List.append_assoc]
    obtain ⟨q', hq', hinterface, hlink, htarget⟩ := proxy_run before hw hp
    cases hq.symm.trans hq'
    have hproperty := Proxy.property_eq_ok hd
    rw [hinterface, hholds.declared] at hproperty
    cases hproperty
    exact ⟨done, _, rfl, hbacklog.act_set hv hq hd hy hlink htarget
      (h.stored_act hw hms fun e _ => nofun)⟩

/-- **The field holds what the last write that has run has brought**, if the first of those that are
under way is polled each time. -/
theorem Undisturbed.backlog (h : Undisturbed w ms x p f) (hw : w.Orderly)
    (hp : w.proxies.get? x = some p)
    (hfirst : ∀ {before t after}, ms = before ++ .poll t :: after →
      ((underway x f.name w before).map Prod.fst).Sublist (w.run before).ready →
      t ∈ (underway x f.name w before).map Prod.fst →
      ((underway x f.name w before).map Prod.fst).head? = some t)
    (before : List Move) : ∀ {after : List Move}, ms = before ++ after →
      observe (writes x f.name) w before = written x f.name w before ++ underway x f.name w before ∧
      Backlog p f (w.stored f) (written x f.name w before) (underway x f.name w before)
        (w.run before) := by
  induction before using List.reverseRecOn with
  | nil => exact fun _ => ⟨rfl, nofun, nofun, List.nil_sublist _, rfl, nofun⟩
  | append_singleton before m ih =>
    intro after hms
    have hms' : ms = before ++ m :: after := by rw [hms]; simp
    obtain ⟨hparted, hbacklog⟩ := ih hms'
    obtain ⟨done, pending, hparted', hbacklog'⟩ := h.backlog_act hw hp hms'
      (fun {t} ht hmem => hfirst (ht ▸ hms') hbacklog.queued hmem) hparted hbacklog
    have hrun : (w.run before).act m = w.run (before ++ [m]) := by
      rw [run_append, run_cons, run_nil]
    rw [hrun] at hbacklog'
    obtain ⟨hdone, hpending⟩ := hbacklog'.parts hparted'
    rw [hdone, hpending]
    exact ⟨hparted', hbacklog'⟩

/-- What is first in the queue has come first. -/
theorem ServedInOrder.first (h : ServedInOrder x f.name w ms) (hw : w.Orderly) {t : Nat}
    (hms : ms = before ++ .poll t :: after)
    (hqueued : ((underway x f.name w before).map Prod.fst).Sublist (w.run before).ready)
    (ht : t ∈ (underway x f.name w before).map Prod.fst) :
    ((underway x f.name w before).map Prod.fst).head? = some t := by
  rw [← find?_of_sublist hqueued ((later_run before hw).orderly hw).readyDistinct]
  exact h hms ht

/-! ## 5. Reading back -/

/-- Whoever asks for the property is told what the object holds. -/
theorem Holds.getProperty (h : w.Holds p f) (hsound : w.Sound)
    (hbelow : ∀ t, w.outcomes.get? t ≠ none → t < w.nextTask)
    (haimed : p.target.interface = p.interface.name) {y : Nat} {q : Proxy}
    (hq : w.proxies.get? y = some q) (hinterface : q.interface = p.interface)
    (htarget : q.target = p.target) {me : String} (hlink : q.link = .bus f.bus me)
    (hopen : (w.bus f.bus).isOpen me = true) (hfresh : q.cache.get? f.name = none) {u : Value}
    (hu : (w.stored f).bind f.told = some u) :
    (w.getProperty y q f.name).2 = some (.ok (some u)) := by
  have hstart := Proxy.startGet_fresh (hinterface ▸ h.declared) h.access hfresh
  have hr := forProperties_plainRequest hlink "Get" (getBody q.target.interface f.name) .answer
  obtain ⟨o, hreaches, hplain, hstored⟩ :=
    h.reaches_asked haimed htarget hopen "Get" (getBody q.target.interface f.name) rfl
  obtain ⟨steps, outcome, hawait, -, hanswered⟩ := await_forProperties hsound hbelow hr rfl
  obtain rfl := hanswered _ o hreaches
  obtain ⟨q', hq', -⟩ := proxy_run (_ :: _ :: steps) hsound.orderly hq
  unfold World.getProperty
  rw [hstart]
  simp only [hawait]
  rw [hq']
  simp only [Proxy.finishGet_snd, plainRequest, outcome_answeredBy]
  rw [(hplain.get h.declared h.access).mpr (hstored ▸ hu)]

/-- What is set is read back. -/
structure ReadsBack (w : World) (ms : List Move) (x : Nat) (p : Proxy) (f : PlainField) : Prop where
  /-- Setting succeeds if the value fits.  The proxy then knows the value that fits, and a write of
  it is under way. -/
  set : ∀ {before v after q y}, ms = before ++ .setProperty x f.name v :: after →
    (w.run before).proxies.get? x = some q → Variant.make f.tag v = .ok y →
    ((w.run before).setProperty x q f.name v).2 = .ok () ∧
      ((w.run before).act (.setProperty x f.name v)).cached x f.name = some y.value ∧
      writes x f.name (w.run before) (.setProperty x f.name v)
        = [((w.run before).nextTask, y.value)]
  /-- If it does not fit, nothing changes. -/
  refused : ∀ {before v after q e}, ms = before ++ .setProperty x f.name v :: after →
    (w.run before).proxies.get? x = some q → Variant.make f.tag v = .error e →
    (w.run before).setProperty x q f.name v = (w.run before, .error (.codec e))
  /-- When no task can run, no write is under way. -/
  idle : (w.run ms).ready = [] → underway x f.name w ms = []
  /-- When no write is under way, the field has the value that was cached by the last one, -/
  stored : underway x f.name w ms = [] →
    (w.run ms).stored f
      = ((observe (writes x f.name) w ms).getLast?.map Prod.snd).or (w.stored f)
  /-- and a proxy that does not know the property is told this value. -/
  told : underway x f.name w ms = [] →
    ∀ {t u}, (observe (writes x f.name) w ms).getLast? = some (t, u) →
    ∀ {y q me}, (w.run ms).proxies.get? y = some q → q.interface = p.interface →
      q.target = p.target → q.link = .bus f.bus me → ((w.run ms).bus f.bus).isOpen me = true →
      q.cache.get? f.name = none →
      ((w.run ms).getProperty y q f.name).2 = some (.ok (some u))

/-- **What is set is read back**: while the object stays where the proxy looks, connections stay
open, nobody else writes to the property, and the writes are served first come first served. -/
theorem writes_read_back (past : List Move) {ms : List Move}
    (hp : (empty.run past).proxies.get? x = some p) (h : Undisturbed (empty.run past) ms x p f)
    (horder : ServedInOrder x f.name (empty.run past) ms) :
    ReadsBack (empty.run past) ms x p f := by
  have hw := orderly_run past
  obtain ⟨hparted, hbacklog⟩ := h.backlog hw hp (horder.first hw) ms (List.append_nil ms).symm
  have hdone : underway x f.name (empty.run past) ms = [] →
      observe (writes x f.name) (empty.run past) ms = written x f.name (empty.run past) ms := by
    intro hnone
    rw [hparted, hnone, List.append_nil]
  -- The property can be set, at any time.
  have hproperty : ∀ {before after q}, ms = before ++ after →
      ((empty.run past).run before).proxies.get? x = some q →
      q.property f.name .write = .ok f.property := by
    intro before after q hms hq
    obtain ⟨q', hq', hinterface, -⟩ := proxy_run before hw hp
    cases hq.symm.trans hq'
    have hholds := h.holds hms
    exact Proxy.property_readWrite (hinterface ▸ hholds.declared) hholds.access _
  refine ⟨?_, ?_, ?_, ?_, ?_⟩
  · intro before v after q y hms hq hy
    have hset := setProperty_ok ((empty.run past).run before) x (hproperty hms hq) hy
    exact ⟨by rw [hset], cached_set hq (hproperty hms hq) hy, writes_set hq (hproperty hms hq) hy⟩
  · intro before v after q e hms hq he
    exact setProperty_error _ x (hproperty hms hq) he
  · intro hidle
    have hqueued := hbacklog.queued
    rw [hidle, List.sublist_nil, List.map_eq_nil_iff] at hqueued
    exact hqueued
  · intro hnone
    rw [hdone hnone]
    exact hbacklog.stored
  · intro hnone t u hlast y q me hq hinterface htarget hlink hopen hfresh
    rw [hdone hnone] at hlast
    have hholds := h.holds (List.append_nil ms).symm
    have htold := hbacklog.fits (t, u) (List.mem_of_getLast? hlast)
    rw [← run_append] at hq hopen hholds hbacklog ⊢
    refine hholds.getProperty (sound_empty.run _) (outcomesBelow_run _) (hw.aimed hp) hq hinterface
      htarget hlink hopen hfresh ?_
    rw [hbacklog.stored, hlast]
    exact htold

end Undisturbed

/-! ## 6. A level that is set twice -/

/-- The level of the gauge. -/
def gaugeLevel : PlainField := ⟨0, 0, ⟨"Level", .int .int32, .readWrite⟩⟩

/-- The gauge is where it was exported, and its proxy's connection is open. -/
theorem gauge_holds (hopen : (w.bus 0).isOpen ":1.2" = true)
    (hresolve : (w.bus 0).resolve ":1.1" = some ":1.1")
    (hhandler : (w.bus 0).handler? ⟨":1.1", "/gauge", "org.example.Gauge"⟩ = some 0)
    (hobject : (w.objects.get? 0).map (fun o => (o.interface, o.service.getters, o.service.setters))
      = some (gauge, .empty, .empty)) : w.Holds gaugeProxy gaugeLevel where
  declared := rfl
  access := rfl
  isOpen := ⟨_, rfl, hopen⟩
  found := ⟨_, hresolve, hhandler⟩
  plain := by
    obtain ⟨o, ho, heq⟩ := Option.map_eq_some_iff.mp hobject
    obtain ⟨hinterface, hgetters, hsetters⟩ := Prod.mk.inj heq |>.imp_right Prod.mk.inj
    refine ⟨o, ho, hinterface, ?_, ?_⟩
    · rw [hgetters]
      rfl
    · rw [hsetters]
      rfl

/-- Who is asked for everything keeps its fields. -/
theorem service_getGauge {t : Nat} {o : Object} {s : Service} {cells : Cells}
    (ht : w.tasks.get? t = some (.request getGauge .unsent))
    (h : w.Writes (.poll t) 0 o s cells) : s = o.service := by
  cases h with
  | answered _ ht' _ _ _ _ =>
    cases ht.symm.trans ht'
    rfl

/-- A run is undisturbed if the gauge stays, nobody writes to it directly, and all that is polled
are writes of its level and requests for everything. -/
theorem gauge_undisturbed {ms : List Move}
    (hholds : ∀ n ≤ ms.length,
      ((empty.run gaugeMoves).run (ms.take n)).Holds gaugeProxy gaugeLevel)
    (hdirect : ∀ id name v, .arrange (.serviceSet id name v) ∉ ms ∧
      .arrange (.propertySet id name v) ∉ ms)
    (hpolls : ∀ {before t after}, ms = before ++ .poll t :: after →
      t ∈ (observe (writes 0 "Level") (empty.run gaugeMoves) before).map Prod.fst ∨
        ((empty.run gaugeMoves).run before).tasks.get? t = some (.request getGauge .unsent)) :
    Undisturbed (empty.run gaugeMoves) ms 0 gaugeProxy gaugeLevel where
  holds := by
    intro before after hms
    have hbefore := hholds before.length (by simp [hms])
    rwa [hms, List.take_left] at hbefore
  alone := by
    intro before m after o s cells hms _ hwrites
    have hmem : m ∈ ms := by rw [hms]; simp
    cases hwrites with
    | serviceSet id o name v => exact absurd hmem (hdirect 0 name v).1
    | propertySet _ => exact absurd hmem (hdirect 0 _ _).2
    | answered _ ht hlink hroute hi hid =>
      rcases hpolls hms with hwrite | hread
      · obtain ⟨e, he, rfl⟩ := List.mem_map.mp hwrite
        exact Or.inr ⟨e, he, rfl⟩
      · refine Or.inl ?_
        rw [service_getGauge hread (.answered o ht hlink hroute hi hid)]

/-- Where a move stands in a run. -/
theorem move_at_length {ms before after : List Move} {m : Move} (hms : ms = before ++ m :: after) :
    before = ms.take before.length ∧ ms[before.length]? = some m := by
  rw [hms]
  simp

theorem holds_seven : IntKind.int32.Holds 7 := by decide

/-- The level is set, not set, and set again; another proxy comes, and the writes run. -/
def raisingMoves : List Move :=
  [.setProperty 0 "Level" (level ⟨7, holds_seven⟩), .setProperty 0 "Level" (.string "full"),
    .setProperty 0 "Level" (level ⟨9, by decide⟩),
    .arrange (.addProxy "reader" (.bus 0 ":1.2") gauge ":1.1" "/gauge" none .none .full),
    .poll 2, .poll 3]

theorem raising_polls {before after : List Move} {t : Nat}
    (hms : raisingMoves = before ++ .poll t :: after) :
    before = raisingMoves.take 4 ∧ t = 2 ∨ before = raisingMoves.take 5 ∧ t = 3 := by
  obtain ⟨hbefore, hmove⟩ := move_at_length hms
  generalize before.length = n at hbefore hmove
  match n with
  | 0 | 1 | 2 | 3 => cases hmove
  | 4 => cases hmove; exact Or.inl ⟨hbefore, rfl⟩
  | 5 => cases hmove; exact Or.inr ⟨hbefore, rfl⟩
  | n + 6 => cases hmove

theorem undisturbed_raising :
    Undisturbed (empty.run gaugeMoves) raisingMoves 0 gaugeProxy gaugeLevel := by
  refine gauge_undisturbed (fun n (hn : n ≤ 6) => ?_) (by simp [raisingMoves]) fun hms => Or.inl ?_
  · interval_cases n <;> exact gauge_holds rfl rfl rfl rfl
  · rcases raising_polls hms with ⟨rfl, rfl⟩ | ⟨rfl, rfl⟩
    · exact .head _
    · exact .tail _ (.head _)

theorem raising_in_order : ServedInOrder 0 "Level" (empty.run gaugeMoves) raisingMoves := by
  intro before t after hms _
  rcases raising_polls hms with ⟨rfl, rfl⟩ | ⟨rfl, rfl⟩ <;> rfl

/-- The level that was set last is what the object holds, and what another proxy reads. -/
theorem writes_read_back_gauge :
    (empty.run gaugeMoves).proxies.get? 0 = some gaugeProxy ∧
      Undisturbed (empty.run gaugeMoves) raisingMoves 0 gaugeProxy gaugeLevel ∧
      ServedInOrder 0 "Level" (empty.run gaugeMoves) raisingMoves ∧
      observe (writes 0 "Level") (empty.run gaugeMoves) raisingMoves
        = [(2, level ⟨7, by decide⟩), (3, level ⟨9, by decide⟩)] ∧
      ((empty.run gaugeMoves).run raisingMoves).stored gaugeLevel = some (level ⟨9, by decide⟩) ∧
      ∃ reader, ((empty.run gaugeMoves).run raisingMoves).proxies.get? 1 = some reader ∧
        (((empty.run gaugeMoves).run raisingMoves).getProperty 1 reader "Level").2
          = some (.ok (some (level ⟨9, by decide⟩))) := by
  have hback := writes_read_back gaugeMoves (by rfl) undisturbed_raising raising_in_order
  exact ⟨by rfl, undisturbed_raising, raising_in_order, by rfl, hback.stored (by rfl), _, by rfl,
    hback.told (by rfl) (by rfl) (by rfl) (by rfl) (by rfl) (by rfl) (by rfl) (by rfl)⟩

end World

end MessageBus
