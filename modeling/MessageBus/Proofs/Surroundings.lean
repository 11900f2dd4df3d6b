/-
# Arrangements are quiet

`World.quiet_arrange`: no change of the surroundings touches a call that is under way.  On the way,
each operation on a bus is shown to register nothing but what it is told to, and each operation on
links, objects and proxies to be quiet.  The same operations are what a poll does besides its own
work, so `World.quiet_closeUnheld`, `World.quiet_deliver` and `World.quiet_answerProperties` are
used again for polls.
-/
import MessageBus.Proofs.Frames

namespace MessageBus

/-! ## 1. What is registered on a bus -/

namespace Bus

variable {η σ : Type} {b b' : Bus η σ}

theorem objects_close {me : String} {r : Registration η} (h : r ∈ (b.close me).objects.values) :
    r ∈ b.objects.values := by
  unfold close at h
  split at h
  · exact Table.mem_values_filter h
  · exact h

theorem objects_ownName {me name : String} (h : b.ownName me name = .ok b') :
    b'.objects = b.objects := by
  unfold ownName at h
  obtain ⟨-, -, h⟩ := bind_eq_ok.1 h
  split at h
  · cases h
    rfl
  · split at h
    · cases h
      rfl
    · cases h

theorem objects_releaseName (b : Bus η σ) (me name : String) :
    (b.releaseName me name).1.objects = b.objects := by
  unfold releaseName
  split <;> rfl

/-- A registration succeeds only on an open connection, under a valid path and a free key. -/
theorem register_eq_ok {me path interface : String} {handler : η} {id : Nat}
    (h : b.register me path interface handler = .ok (b', id)) :
    id = b.nextId ∧ b' = { b with
      nextId := b.nextId + 1
      objects := b.objects.insert ⟨me, path, interface⟩ ⟨b.nextId, handler⟩ } := by
  unfold register at h
  obtain ⟨-, -, h⟩ := bind_eq_ok.1 h
  split at h
  · cases h
  · simp only at h
    split at h
    · cases h
    · cases h
      exact ⟨rfl, rfl⟩

theorem objects_foldl_enqueue (m : SignalMessage) (l : List (Subscription σ)) (b : Bus η σ) :
    (l.foldl (enqueue m) b).objects = b.objects :=
  foldl_same objects (f := enqueue m) (fun _ _ => rfl) l b

theorem objects_emit {me : String} {m : SignalMessage} (h : b.emit me m = .ok b') :
    b'.objects = b.objects := by
  unfold emit at h
  obtain ⟨-, -, h⟩ := bind_eq_ok.1 h
  cases h
  exact objects_foldl_enqueue _ _ _

end Bus

/-! ## 2. Handlers of services -/

namespace Service

/-- A service keeps its handlers when a property is given a value. -/
theorem handlers_set (s : Service) (cells : Cells) (name : String) (v : Value) :
    (s.set cells name v).1.sync = s.sync ∧ (s.set cells name v).1.async = s.async := by
  unfold set
  split <;> exact ⟨rfl, rfl⟩

theorem handlers_propertySet {s s' : Service} {i : Interface} {cells cells' : Cells} {name : String}
    {v : Value} (h : s.propertySet i cells name v = .ok (s', cells')) :
    s'.sync = s.sync ∧ s'.async = s.async := by
  unfold propertySet at h
  split at h
  · cases h
  · split at h
    · split at h
      · rename_i x _
        have hset := handlers_set s cells name x.value
        rw [Except.ok.inj h] at hset
        exact hset
      · cases h
    · cases h

theorem handlers_answerProperties (s : Service) (i : Interface) (cells : Cells) (member : String)
    (args : List Value) :
    (s.answerProperties i cells member args).service.sync = s.sync ∧
      (s.answerProperties i cells member args).service.async = s.async := by
  unfold answerProperties
  split
  · exact ⟨rfl, rfl⟩
  · split
    · rename_i h
      exact handlers_propertySet h
    · exact ⟨rfl, rfl⟩
  all_goals exact ⟨rfl, rfl⟩

end Service

namespace World

variable {w : World}

/-! ## 3. Links -/

theorem quiet_ask (w : World) (id : Nat) (e : ScriptedEvent) : w.Quiet (w.ask id e) := by
  unfold ask
  split
  · exact quiet_note w rfl
  · exact .refl w

theorem quiet_nextScriptedId (w : World) (id : Nat) : w.Quiet (w.nextScriptedId id).1 := by
  unfold nextScriptedId
  split
  · exact quiet_scripted w _
  · exact .refl w

theorem quiet_subscribe (w : World) (link : Link) (rule : SignalRule) (sink : Sink) :
    w.Quiet (w.subscribe link rule sink).1 := by
  unfold subscribe
  split
  · exact quiet_setBus_of_subset w _ fun r hr => hr
  · exact ((quiet_nextScriptedId w _).trans (quiet_scripted _ _)).trans (quiet_ask _ _ _)

/-- Subscribing changes no proxy. -/
theorem proxies_subscribe (w : World) (link : Link) (rule : SignalRule) (sink : Sink) :
    (w.subscribe link rule sink).1.proxies = w.proxies := by
  unfold subscribe
  split
  · rfl
  · simp only [ask, nextScriptedId]
    split <;> split <;> rfl

theorem quiet_unsubscribe (w : World) (link : Link) (id : Nat) :
    w.Quiet (w.unsubscribe link id) := by
  unfold unsubscribe
  split
  · exact quiet_setBus_of_subset w _ fun r hr => hr
  · exact (quiet_scripted w _).trans (quiet_ask _ _ _)

/-- Registering an object that is there. -/
theorem quiet_register {object : Nat} (ho : (w.objects.get? object).isSome) (link : Link)
    (path interface : String) : w.Quiet (w.register link path interface object).1 := by
  unfold register
  split
  · split
    · rename_i hb
      obtain ⟨-, rfl⟩ := Bus.register_eq_ok hb
      refine quiet_setBus w _ fun r hr => ?_
      rcases Table.mem_values_insert hr with rfl | hr
      · exact Or.inr ho
      · exact Or.inl hr
    · exact .refl w
  · split
    · exact .refl w
    · exact (quiet_nextScriptedId w _).trans (quiet_ask _ _ _)

/-- Registering changes no object. -/
theorem objects_register (w : World) (link : Link) (path interface : String) (object : Nat) :
    (w.register link path interface object).1.objects = w.objects := by
  unfold register
  split
  · split <;> rfl
  · split
    · rfl
    · simp only [ask, nextScriptedId]
      split <;> split <;> rfl

theorem quiet_unregister (w : World) (link : Link) (id : Nat) : w.Quiet (w.unregister link id) := by
  unfold unregister
  split
  · exact quiet_setBus_of_subset w _ fun r hr => Table.mem_values_filter hr
  · exact quiet_ask w _ _

/-- Removing a registration changes no object. -/
theorem objects_unregister (w : World) (link : Link) (id : Nat) :
    (w.unregister link id).objects = w.objects := by
  unfold unregister
  split
  · rfl
  · simp only [ask]
    split <;> rfl

theorem quiet_wakeDeliveries (w : World) (b : Nat) : w.Quiet (w.wakeDeliveries b) := quiet_wake w _

theorem quiet_broadcast (w : World) (link : Link) (m : SignalMessage) :
    w.Quiet (w.broadcast link m).1 := by
  unfold broadcast
  split
  · split
    · rename_i hb
      have hobjects := Bus.objects_emit hb
      exact (quiet_setBus_of_subset w _ fun r hr => hobjects ▸ hr).trans (quiet_wakeDeliveries _ _)
    · exact .refl w
  · split
    · exact .refl w
    · exact quiet_ask w _ _

/-! ## 4. Opening and closing -/

theorem quiet_close (w : World) (b : Nat) (name : String) : w.Quiet (w.close b name) :=
  quiet_setBus_of_subset w b fun _ hr => Bus.objects_close hr

theorem quiet_closeUnheldOn (w : World) (b : Nat) : w.Quiet (w.closeUnheldOn b) := by
  refine Quiet.foldl (fun w name => ?_) _ w
  split
  · exact .refl w
  · exact quiet_close w b name

/-- Closing what nothing holds is quiet. -/
theorem quiet_closeUnheld (w : World) : w.Quiet w.closeUnheld :=
  Quiet.foldl quiet_closeUnheldOn _ w

theorem quiet_release (w : World) (link : Link) : w.Quiet (w.release link) := by
  have hheld : w.Quiet { w with held := w.held.erase link } :=
    { Quiet.refl w with orderly := fun h => h.congr rfl rfl rfl rfl rfl rfl rfl rfl }
  exact hheld.trans (quiet_closeUnheld _)

/-- A new task that hands out a queue. -/
theorem quiet_spawnDeliver (h : w.Orderly) (b : Nat) (name : String) :
    w.Quiet (w.spawn (.deliver b name)) := by
  have hadd : w.Quiet (w.addTask (.deliver b name)).1 :=
    { Quiet.refl w with
      nextTask := Nat.le_succ _
      tasks := by
        refine ⟨[(w.nextTask, .deliver b name)],
          Table.entries_insert_new (h.task_free (Nat.le_refl _)), fun e he => ?_⟩
        rw [List.mem_singleton.mp he]
        exact ⟨Nat.le_refl _, b, name, rfl⟩
      orderly := fun h => h.addTask trivial }
  exact hadd.trans (quiet_enqueue (Nat.lt_succ_self _))

theorem quiet_connect (h : w.Orderly) (b : Nat) : w.Quiet (w.connect b).1 := by
  have hbus : w.Quiet (w.setBus b (w.bus b).connect.1) :=
    quiet_setBus_of_subset w b fun r hr => hr
  have hheld : ∀ links, (w.setBus b (w.bus b).connect.1).Quiet
      { w.setBus b (w.bus b).connect.1 with held := links } :=
    fun links => { Quiet.refl (w.setBus b (w.bus b).connect.1) with
      orderly := fun h => h.congr rfl rfl rfl rfl rfl rfl rfl rfl }
  have hopen := hbus.trans (hheld (w.held ++ [Link.bus b (w.bus b).connect.2]))
  exact hopen.trans (quiet_spawnDeliver (hopen.orderly h) b _)

/-! ## 5. Signals on their way to sinks -/

theorem quiet_relay {id : Nat} {p : Proxy} (hp : w.proxies.get? id = some p) (e : SignalEvent) :
    w.Quiet (w.relay id p e) := by
  have hproxy : ∀ relay handles, w.Quiet
      { w with proxies := w.proxies.insert id { p with relay }, handles } := by
    intro relay handles
    refine (quiet_setProxy hp { p with relay } rfl).trans ?_
    exact { Quiet.refl _ with orderly := fun h => h.congr rfl rfl rfl rfl rfl rfl rfl rfl }
  exact (hproxy _ _).trans (Quiet.foldl (fun w h => quiet_note w rfl) _ _)

theorem quiet_proxyReceive (w : World) (id : Nat) (m : SignalMessage) :
    w.Quiet (w.proxyReceive id m) := by
  unfold proxyReceive
  split
  · exact .refl w
  · rename_i p hp
    split
    · exact (quiet_setProxy hp { p with cache := (p.cache.applyChange _ _).result } rfl).trans
        (quiet_warn _ _)
    · split
      · exact quiet_relay hp _
      · exact .refl w

theorem quiet_receive (w : World) (sink : Sink) (m : SignalMessage) :
    w.Quiet (w.receive sink m) := by
  cases sink with
  | proxy id => exact quiet_proxyReceive w id m
  | recorder label => exact quiet_note w rfl

/-- Handing out a queue is quiet. -/
theorem quiet_deliver (w : World) (b : Nat) (connection : String) :
    w.Quiet (w.deliver b connection) :=
  (quiet_setBus_of_subset w b (x := ((w.bus b).drain connection).1) fun _ hr => hr).trans
    (Quiet.foldl (fun w (d : Sink × SignalMessage) => quiet_receive w d.1 d.2) _ _)

theorem quiet_signalScripted (w : World) (id : Nat) (m : SignalMessage) :
    w.Quiet (w.signalScripted id m).1 := by
  unfold signalScripted
  split
  · exact .refl w
  · exact Quiet.foldl (fun w (e : Nat × Sink) => quiet_receive w e.2 m) _ w

/-! ## 6. Objects -/

theorem quiet_addObject (h : w.Orderly) (i : Interface) (s : Service) :
    w.Quiet (w.addObject i s).1 :=
  { Quiet.refl w with
    handlers := by
      intro id x hx
      have hne : id ≠ w.objects.size := by
        rintro rfl
        rw [handlers?, h.objectsBelow.get?_size] at hx
        cases hx
      simp only [addObject, handlers?, Table.get?_insert, if_neg hne.symm]
      exact hx
    orderly := fun h => h.insertObject (Nat.le_refl _) _ }

theorem quiet_exportObject {id : Nat} {o : Object} (ho : w.objects.get? id = some o) (link : Link)
    (path : String) : w.Quiet (w.exportObject id o link path).1 := by
  have hreg := quiet_register (Option.isSome_of_eq_some ho) link path o.interface.name
  have hobjects := objects_register w link path o.interface.name id
  unfold exportObject
  split
  · exact .refl w
  · split <;> rename_i heq <;> rw [heq] at hreg hobjects
    · exact hreg
    · rename_i registration
      rw [← hobjects] at ho
      exact hreg.trans
        (quiet_setObject ho { o with binding := some { link, path, registration } } rfl)

theorem quiet_unexportObject {id : Nat} {o : Object} (ho : w.objects.get? id = some o) :
    w.Quiet (w.unexportObject id o).1 := by
  unfold unexportObject
  split
  · exact .refl w
  · rename_i b _
    have hreg := quiet_unregister w b.link b.registration
    have ho' : (w.unregister b.link b.registration).objects.get? id = some o := by
      rw [objects_unregister]
      exact ho
    have hset := quiet_setObject ho' { o with binding := none } rfl
    exact (hreg.trans hset).trans (quiet_closeUnheld _)

theorem quiet_emitFrom (w : World) (o : Object) (interface member : String)
    (body : Option Container) : w.Quiet (w.emitFrom o interface member body).1 := by
  unfold emitFrom
  split
  · exact .refl w
  · exact quiet_broadcast w _ _

theorem quiet_emitSignal (w : World) (o : Object) (name : String) (args : List Value) :
    w.Quiet (w.emitSignal o name args).1 := by
  unfold emitSignal
  split
  · exact .refl w
  · exact quiet_emitFrom w _ _ _ _

theorem quiet_emitChanged (w : World) (o : Object) (name : String) (value : Option Value) :
    w.Quiet (w.emitChanged o name value).1 := by
  unfold emitChanged
  split
  · exact .refl w
  · exact quiet_emitFrom w _ _ _ _

/-- Changing an object's service, but not its handlers, and the cells. -/
theorem quiet_setService {id : Nat} {o : Object} (ho : w.objects.get? id = some o) {s : Service}
    (hs : s.sync = o.service.sync ∧ s.async = o.service.async) (cells : Cells) :
    w.Quiet { w with objects := w.objects.insert id { o with service := s }, cells } := by
  have hset : w.Quiet { w with objects := w.objects.insert id { o with service := s } } :=
    quiet_setObject ho _ (by simp only [Object.handlers, hs.1, hs.2])
  exact hset.trans { Quiet.refl _ with orderly := fun h => h.congr rfl rfl rfl rfl rfl rfl rfl rfl }

theorem quiet_serviceSet {id : Nat} {o : Object} (ho : w.objects.get? id = some o) (name : String)
    (v : Value) : w.Quiet (w.serviceSet id o name v) :=
  quiet_setService ho (Service.handlers_set o.service w.cells name v) _

theorem quiet_setDirectly {id : Nat} {o : Object} (ho : w.objects.get? id = some o) (name : String)
    (v : Value) : w.Quiet (Session.setDirectly w id o name v).1 := by
  unfold Session.setDirectly
  split
  · rename_i hs
    exact quiet_setService ho (Service.handlers_propertySet hs) _
  · exact .refl w

/-- Answering a call on the properties interface is quiet. -/
theorem quiet_answerProperties (w : World) (b : Nat) (owner : String) (call : MethodCall) :
    w.Quiet (w.answerProperties b owner call).1 := by
  unfold answerProperties
  split
  · exact .refl w
  · split
    · exact .refl w
    · rename_i id o hfound
      obtain ⟨i, -, hi⟩ := Option.bind_eq_some_iff.mp hfound
      obtain ⟨o', ho, hpair⟩ := Option.map_eq_some_iff.mp hi
      cases hpair
      exact (quiet_setService ho (Service.handlers_answerProperties _ _ _ _ _) _).trans
        (quiet_warn _ _)

/-! ## 7. Proxies -/

/-- A proxy that is not there yet, and has made no call. -/
theorem quiet_addProxy (h : w.Orderly) (label : String) (link : Link) (i : Interface)
    (name path : String) (timeout : Option Nat) (flags : CallFlags) (convention : Convention) :
    w.Quiet (w.addProxy label link i name path timeout flags convention).1 := by
  have hsub := quiet_subscribe w link (Proxy.rule { name, path, interface := i.name })
    (.proxy w.proxies.size)
  have hsize : (w.subscribe link (Proxy.rule { name, path, interface := i.name })
      (.proxy w.proxies.size)).1.proxies = w.proxies := proxies_subscribe w link _ _
  have hbelow := h.proxiesBelow
  refine hsub.trans ?_
  simp only [addProxy]
  generalize w.subscribe link (Proxy.rule { name, path, interface := i.name })
    (.proxy w.proxies.size) = r at hsub hsize
  rw [← hsize] at hbelow
  rw [← hsize]
  exact
    { Quiet.refl _ with
      caller := by
        intro id c hc
        have hne : id ≠ r.1.proxies.size := by
          rintro rfl
          rw [caller?, hbelow.get?_size] at hc
          cases hc
        simp only [caller?, Table.get?_insert, if_neg hne.symm]
        exact hc
      newCaller := by
        intro id c hc
        simp only [caller?, Table.get?_insert] at hc
        split at hc
        · rename_i heq
          subst heq
          refine Or.inr ⟨by rw [caller?, hbelow.get?_size]; rfl, ?_⟩
          cases hc
          exact ⟨rfl, rfl⟩
        · exact Or.inl hc
      orderly := fun h => h.insertProxy (Nat.le_refl _) rfl }

theorem quiet_dropProxy (w : World) (id : Nat) : w.Quiet (w.dropProxy id) := by
  unfold dropProxy
  split
  · rename_i p hp
    have hset : w.Quiet { w with proxies := w.proxies.insert id { p with alive := false } } :=
      quiet_setProxy hp _ rfl
    exact (hset.trans (quiet_unsubscribe _ _ _)).trans (quiet_closeUnheld _)
  · exact .refl w

theorem quiet_listen {id : Nat} {p : Proxy} (hp : w.proxies.get? id = some p)
    (label signal : String) (drops : List String) : w.Quiet (w.listen id p label signal drops) := by
  have hset : ∀ relay, w.Quiet (w.setProxy id { p with relay }) :=
    fun relay => quiet_setProxy hp _ rfl
  have hhandles : ∀ (v : World) (handles : Table String Nat), v.Quiet { v with handles } :=
    fun v handles =>
      { Quiet.refl v with orderly := fun h => h.congr rfl rfl rfl rfl rfl rfl rfl rfl }
  exact (hset _).trans (hhandles _ _)

theorem quiet_unlisten {id : Nat} {p : Proxy} (hp : w.proxies.get? id = some p) (label : String) :
    w.Quiet (w.unlisten id p label).1 := by
  unfold unlisten
  split
  · exact .refl w
  · exact quiet_setProxy hp _ rfl

/-! ## 8. All arrangements -/

theorem quiet_withObject (w : World) (id : Nat) {f : Object → World}
    (hf : ∀ o, w.objects.get? id = some o → w.Quiet (f o)) : w.Quiet (w.withObject id f) := by
  unfold withObject
  cases ho : w.objects.get? id with
  | none => exact .refl w
  | some o => exact hf o ho

theorem quiet_withProxy (w : World) (id : Nat) {f : Proxy → World}
    (hf : ∀ p, w.proxies.get? id = some p → w.Quiet (f p)) : w.Quiet (w.withProxy id f) := by
  unfold withProxy
  cases hp : w.proxies.get? id with
  | none => exact .refl w
  | some p => exact hf p hp

/-- **Arrangements are quiet**: whatever is done to the surroundings of calls, the calls that are
under way are left alone. -/
theorem quiet_arrange (h : w.Orderly) (a : Arrangement) : w.Quiet (w.arrange a) := by
  cases a with
  | addBus callTimeout =>
    exact quiet_setBus_of_subset w _ fun r hr => by cases hr
  | connect bus => exact quiet_connect h bus
  | close bus name => exact quiet_close w bus name
  | release link => exact quiet_release w link
  | ownName bus me name =>
    simp only [arrange]
    split
    · rename_i hb
      exact quiet_setBus_of_subset w bus fun r hr => Bus.objects_ownName hb ▸ hr
    · exact .refl w
  | releaseName bus me name =>
    exact quiet_setBus_of_subset w bus fun r hr => Bus.objects_releaseName _ me name ▸ hr
  | subscribe link rule label => exact quiet_subscribe w link rule _
  | unsubscribe link id => exact quiet_unsubscribe w link id
  | unregister link id => exact quiet_unregister w link id
  | broadcast link message => exact quiet_broadcast w link message
  | addScripted label name fault => exact quiet_scripted w _
  | addReplies id replies => exact quiet_scripted w _
  | signalScripted id message => exact quiet_signalScripted w id message
  | addObject i s => exact quiet_addObject h i s
  | exportObject object link path =>
    exact quiet_withObject w object fun o ho => quiet_exportObject ho link path
  | unexportObject object => exact quiet_withObject w object fun o ho => quiet_unexportObject ho
  | emitSignal object name args =>
    exact quiet_withObject w object fun o _ => quiet_emitSignal w o name args
  | emitChanged object name value =>
    exact quiet_withObject w object fun o _ => quiet_emitChanged w o name value
  | serviceSet object name v =>
    exact quiet_withObject w object fun o ho => quiet_serviceSet ho name v
  | propertySet object name v =>
    exact quiet_withObject w object fun o ho => quiet_setDirectly ho name v
  | setCell cell v =>
    exact { Quiet.refl w with orderly := fun h => h.congr rfl rfl rfl rfl rfl rfl rfl rfl }
  | addProxy label link i name path timeout flags convention =>
    exact quiet_addProxy h label link i name path timeout flags convention
  | dropProxy proxy => exact quiet_dropProxy w proxy
  | listen proxy label signal drops =>
    exact quiet_withProxy w proxy fun p hp => quiet_listen hp label signal drops
  | unlisten proxy label => exact quiet_withProxy w proxy fun p hp => quiet_unlisten hp label
  | readResult handler =>
    exact { Quiet.refl w with orderly := fun h => h.congr rfl rfl rfl rfl rfl rfl rfl rfl }

end World

end MessageBus
