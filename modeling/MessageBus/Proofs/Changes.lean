/-
# What a move does to objects and to caches

The values of properties live in two places: in the services of objects and in the caches of
proxies.  Between them stand the registrations of a bus, which say what object answers for what
place.  Almost everything that happens in a world leaves all of this alone (`World.Inert`), and what
does not is one of ten sorts of changes (`World.Change`): an operation on a bus that registers
nothing, a bus, an object or a proxy that comes, an export and its end, a value that is written to a
service or a cell, and a cache that learns something.

`World.changes_act` says that every move is made of such changes.  It is the one place at which all
moves are gone through; an invariant about exports, services or caches needs one case for each sort
of change then, and each case has at hand why the change was made: `World.Writes` and `World.Learns`
say what a move may write and what a cache may learn from it, in terms of the world in which the
move is made.
-/
import MessageBus.Proofs.Dealings
import Mathlib.Logic.Relation

namespace MessageBus

/-- A proxy as one who knows properties: of what interface, through which connection, of which
target, and with what values. -/
@[ext]
structure Account where
  interface : Interface
  link : Link
  target : Target
  cache : Cache

/-- What the proxy knows of properties. -/
def Proxy.account (p : Proxy) : Account := ⟨p.interface, p.link, p.target, p.cache⟩

theorem Proxy.account_startSet {p p' : Proxy} {name : String} {v : Value} {call : MethodCall}
    (h : p.startSet name v = .ok (p', call)) : p' = { p with cache := p'.cache } := by
  unfold Proxy.startSet at h
  obtain ⟨q, -, h⟩ := bind_eq_ok.1 h
  obtain ⟨x, -, h⟩ := bind_eq_ok.1 h
  obtain ⟨c, -, h⟩ := bind_eq_ok.1 h
  cases h
  rfl

theorem Proxy.account_finishGet (p : Proxy) (name : String)
    (reply : Except TransportError Container) :
    (p.finishGet name reply).1 = { p with cache := (p.finishGet name reply).1.cache } := by
  unfold Proxy.finishGet
  split <;> rfl

theorem Proxy.account_finishInit (p : Proxy) (reply : Except TransportError Container) :
    (p.finishInit reply).1 = { p with cache := (p.finishInit reply).1.cache } := by
  unfold Proxy.finishInit
  split <;> rfl

namespace Bus

/-- Whether the operation exports something. -/
def Operation.registers {η σ : Type} : Operation η σ → Bool
  | .register .. => true
  | _ => false

end Bus

namespace World

variable {w w' w'' : World}

/-- What a proxy knows of properties. -/
def account? (w : World) (id : Nat) : Option Account := (w.proxies.get? id).map (·.account)

/-! ## 1. What leaves objects and caches alone -/

/-- Buses, objects, cells and caches are what they were. -/
structure Inert (w w' : World) : Prop where
  buses : w'.buses = w.buses
  objects : w'.objects = w.objects
  cells : w'.cells = w.cells
  accounts : ∀ id, w'.account? id = w.account? id

theorem Inert.of_same (hbuses : w'.buses = w.buses) (hobjects : w'.objects = w.objects)
    (hcells : w'.cells = w.cells) (hproxies : w'.proxies = w.proxies) : w.Inert w' :=
  ⟨hbuses, hobjects, hcells, fun id => by rw [account?, account?, hproxies]⟩

theorem Inert.refl (w : World) : w.Inert w := .of_same rfl rfl rfl rfl

theorem Inert.trans (h : w.Inert w') (h' : w'.Inert w'') : w.Inert w'' where
  buses := h'.buses.trans h.buses
  objects := h'.objects.trans h.objects
  cells := h'.cells.trans h.cells
  accounts := fun id => (h'.accounts id).trans (h.accounts id)

theorem Inert.foldl {α : Type} {f : World → α → World} (hf : ∀ (w : World) x, w.Inert (f w x))
    (l : List α) (w : World) : w.Inert (l.foldl f w) := by
  refine List.foldlRecOn l f (.refl w) fun v h x _ => ?_
  exact h.trans (hf v x)

theorem Inert.bus (h : w.Inert w') (b : Nat) : w'.bus b = w.bus b := by
  rw [World.bus, World.bus, h.buses]

/-- A proxy that knows of properties what it knew may change otherwise. -/
theorem inert_insertProxy {id : Nat} {p p' : Proxy} (hp : w.proxies.get? id = some p)
    (hbuses : w'.buses = w.buses) (hobjects : w'.objects = w.objects) (hcells : w'.cells = w.cells)
    (hproxies : w'.proxies = w.proxies.insert id p') (haccount : p'.account = p.account) :
    w.Inert w' := by
  refine ⟨hbuses, hobjects, hcells, fun n => ?_⟩
  rw [account?, account?, hproxies, Table.get?_insert]
  split
  · rename_i heq
    rw [← heq, hp, Option.map_some, Option.map_some, haccount]
  · rfl

/-! ### Tasks and records -/

theorem inert_note (w : World) (e : Event) : w.Inert (w.note e) := .of_same rfl rfl rfl rfl

theorem inert_warn (w : World) (ws : List Warning) : w.Inert (w.warn ws) :=
  .of_same rfl rfl rfl rfl

theorem inert_wake (w : World) (p : Task → Bool) : w.Inert (w.wake p) := by
  rw [wake_eq]
  exact .of_same rfl rfl rfl rfl

theorem inert_spawn (w : World) (x : Task) : w.Inert (w.spawn x) := by
  rw [spawn_eq]
  exact .of_same rfl rfl rfl rfl

theorem inert_endTask (w : World) (t : Nat) : w.Inert (w.endTask t) := .of_same rfl rfl rfl rfl

theorem inert_taken (w : World) (t : Nat) : w.Inert (w.taken t) := .of_same rfl rfl rfl rfl

theorem inert_dropOutcome (w : World) (t : Nat) : w.Inert (w.dropOutcome t) :=
  .of_same rfl rfl rfl rfl

theorem inert_ask (w : World) (id : Nat) (e : ScriptedEvent) : w.Inert (w.ask id e) := by
  unfold ask
  split
  · exact inert_note w _
  · exact .refl w

theorem inert_scripted (w : World) (scripted : Table Nat Scripted) :
    w.Inert { w with scripted } := .of_same rfl rfl rfl rfl

theorem inert_nextScriptedId (w : World) (id : Nat) : w.Inert (w.nextScriptedId id).1 := by
  unfold nextScriptedId
  split
  · exact inert_scripted w _
  · exact .refl w

theorem inert_fire (w : World) (t : Token) : w.Inert (w.fire t) := by
  have hfired : w.Inert { w with fired := w.fired ++ [t] } := .of_same rfl rfl rfl rfl
  unfold fire
  split
  · exact .refl w
  · exact hfired.trans (inert_wake _ _)

theorem inert_moveTo (w : World) (t : Nat) : w.Inert (w.moveTo t) := by
  have hnow : w.Inert { w with now := t } := .of_same rfl rfl rfl rfl
  exact hnow.trans (inert_wake _ _)

theorem inert_relay {id : Nat} {p : Proxy} (hp : w.proxies.get? id = some p) (e : SignalEvent) :
    w.Inert (w.relay id p e) := by
  have hrelay : ∀ relay handles, w.Inert
      { w with proxies := w.proxies.insert id { p with relay }, handles } := fun _ _ =>
    inert_insertProxy hp rfl rfl rfl rfl rfl
  exact (hrelay _ _).trans (Inert.foldl (fun w _ => inert_note w _) _ _)

/-! ### Invocations -/

theorem inert_reply (w : World) (i : Nat) (r : Reply Container) : w.Inert (w.reply i r) := by
  unfold reply
  split
  · rename_i inv _
    have hreplied : w.Inert
        { w with invocations := w.invocations.insert i { inv with reply := some r } } :=
      .of_same rfl rfl rfl rfl
    split
    · exact .refl w
    · exact hreplied.trans (inert_wake _ _)
  · exact .refl w

theorem inert_conclude (w : World) (i : Nat) (a : Answer) : w.Inert (w.conclude i a) := by
  unfold conclude
  split
  · exact inert_reply w i _
  · split
    · exact (inert_warn w _).trans (inert_reply _ i _)
    · exact .refl w

theorem inert_keep (w : World) (i : Nat) (args : List Value) : w.Inert (w.keep i args) := by
  unfold keep
  simp only
  split <;> exact .of_same rfl rfl rfl rfl

theorem inert_dispose (w : World) (i : Nat) (args : List Value) (d : Disposal) :
    w.Inert (w.dispose i args d) := by
  cases d with
  | keep => exact inert_keep w i args
  | answer a => exact inert_conclude w i a
  | answerAfter ms a => exact inert_spawn w _

/-- Handlers are given values and return values; they write no property. -/
theorem inert_handle (w : World) (object i : Nat) (member : String) (body : Container) :
    w.Inert (w.handle object i member body) := by
  unfold handle
  split
  · exact .refl w
  · split
    · exact (inert_warn w _).trans (inert_reply _ _ _)
    · exact ((inert_note w _).trans (inert_warn _ _)).trans (inert_reply _ _ _)
    · exact (inert_note w _).trans (inert_dispose _ _ _ _)

theorem inert_answerKept {slot : Nat} {answer : List Value → Answer}
    (h : w.answerKept slot answer = some w') : w.Inert w' := by
  unfold answerKept at h
  split at h
  · rename_i k _
    have hanswered : w.Inert { w with kept := w.kept.insert slot { k with answered := true } } :=
      .of_same rfl rfl rfl rfl
    split at h
    · cases h
    · cases h
      exact hanswered.trans (inert_conclude _ _ _)
  · cases h

theorem inert_callDirectly (w : World) (id : Nat) (o : Object) (sender path member : String)
    (body : Container) :
    w.Inert (Session.callDirectly w id o sender path member body).1 := by
  rw [callDirectly_eq]
  have hinvoked : w.Inert (w.invoke sender path o.interface.name member).1 :=
    .of_same rfl rfl rfl rfl
  exact (hinvoked.trans (inert_handle _ _ _ _ _)).trans (inert_spawn _ _)

/-! ### Requests -/

theorem inert_handedTo (w : World) (me : String) (r : Request) (object : Nat) :
    w.Inert (w.handedTo me r object) := by
  rw [handedTo_eq]
  exact .of_same rfl rfl rfl rfl

theorem inert_nextReply (w : World) (id : Nat) : w.Inert (w.nextReply id).1 := by
  unfold nextReply
  split
  · exact .refl w
  · split
    · exact .refl w
    · exact inert_scripted w _

theorem inert_issueScripted (w : World) (id : Nat) (r : Request) :
    w.Inert (w.issueScripted id r).1 := by
  have hnext := (inert_ask w id (.call r.call r.flags r.timeout r.cancel.isSome)).trans
    (inert_nextReply _ id)
  unfold issueScripted
  simp only
  split <;> rename_i heq <;> rw [heq] at hnext
  · exact hnext
  · split <;> exact hnext

theorem inert_complete (w : World) (c : PendingCall) (o : Except TransportError Container) :
    w.Inert (w.complete c o) := by
  unfold complete
  split
  · exact inert_note w _
  · exact .of_same rfl rfl rfl rfl
  · split
    · exact .refl w
    · exact inert_warn w _

theorem inert_settleRequest (w : World) (t : Nat) (p : Purpose)
    (o : Except TransportError Container) : w.Inert (w.settleRequest t p o) := by
  cases p with
  | complete id number =>
    simp only [settleRequest]
    cases hp : w.proxies.get? id with
    | none => exact .refl w
    | some p =>
      have hleft : w.Inert { w with proxies := w.proxies.insert id (p.leave number).1 } :=
        inert_insertProxy hp rfl rfl rfl rfl rfl
      simp only
      split
      · exact hleft.trans (inert_complete _ _ _)
      · exact hleft
  | write property =>
    simp only [settleRequest]
    split
    · exact .refl w
    · exact inert_warn w _
  | answer => exact .of_same rfl rfl rfl rfl

/-! ## 2. What is written, and what is learned -/

/-- A move that is made in the world `w` may give the object `o`, of number `id`, this service, and
the cells these values. -/
inductive Writes (w : World) : Move → Nat → Object → Service → Cells → Prop where
  /-- Whoever has the service sets a property. -/
  | serviceSet (id : Nat) (o : Object) (name : String) (v : Value) :
      Writes w (.arrange (.serviceSet id name v)) id o (o.service.set w.cells name v).1
        (o.service.set w.cells name v).2
  /-- A property is written without a connection. -/
  | propertySet {id : Nat} {o : Object} {name : String} {v : Value} {s : Service} {cells : Cells}
      (h : o.service.propertySet o.interface w.cells name v = .ok (s, cells)) :
      Writes w (.arrange (.propertySet id name v)) id o s cells
  /-- A request on the properties interface finds the object. -/
  | answered {t b : Nat} {r : Request} {me owner i : String} {id : Nat} (o : Object)
      (ht : w.tasks.get? t = some (.request r .unsent)) (hlink : r.link = .bus b me)
      (hroute : w.route b me r.call r.cancel = .ok (.properties owner))
      (hi : PropertyCall.interface r.call.body.values = .ok i)
      (hid : (w.bus b).handler? ⟨owner, r.call.path, i⟩ = some id) :
      Writes w (.poll t) id o
        (o.service.answerProperties o.interface w.cells r.call.member r.call.body.values).service
        (o.service.answerProperties o.interface w.cells r.call.member r.call.body.values).cells

/-- A move that is made in the world `w` hands a signal to the proxy `id`. -/
inductive Hands (w : World) : Move → Nat → SignalMessage → Prop where
  /-- It was in the queue of a connection. -/
  | delivered {m : Move} {b : Nat} {c : String} {id : Nat} {s : SignalMessage}
      (hs : (.proxy id, s) ∈ w.handed b c m) : Hands w m id s
  /-- It comes from a connection with a script. -/
  | told {n k : Nat} {x : Scripted} {id : Nat} {s : SignalMessage}
      (hx : w.scripted.get? n = some x) (hk : (k, .proxy id) ∈ x.sinks) :
      Hands w (.arrange (.signalScripted n s)) id s

/-- A move that is made in the world `w` may give the proxy `p`, of number `id`, this cache. -/
inductive Learns (w : World) : Move → Nat → Proxy → Cache → Prop where
  | set {id : Nat} {p p' : Proxy} {name : String} {v : Value} {call : MethodCall}
      (h : p.startSet name v = .ok (p', call)) : Learns w (.setProperty id name v) id p p'.cache
  | get {id t : Nat} {reply : Except TransportError Container} (p : Proxy) (name : String)
      (ht : w.outcomes.get? t = some reply) :
      Learns w (.endGet id name t) id p (p.finishGet name reply).1.cache
  | init {id t : Nat} {reply : Except TransportError Container} (p : Proxy)
      (ht : w.outcomes.get? t = some reply) :
      Learns w (.endInit id t) id p (p.finishInit reply).1.cache
  /-- It is told that properties have changed. -/
  | told {m : Move} {id : Nat} {s : SignalMessage} (p : Proxy) (hs : w.Hands m id s)
      (hchange : s.interface = propertiesInterface ∧ s.member = propertiesChanged) :
      Learns w m id p (p.cache.applyChange p.target.interface s.args).result

/-! ## 3. Changes -/

/-- One thing that the move `m`, made in the world `w₀`, does to buses, objects, cells or caches. -/
inductive Change (w₀ : World) (m : Move) : World → World → Prop where
  | inert {w w' : World} (h : w.Inert w') : Change w₀ m w w'
  /-- An operation on a bus that exports nothing. -/
  | bus {w w' : World} (b : Nat) (op : Bus.Operation Nat Sink) (hop : op.registers = false)
      (h : (w.setBus b ((w.bus b).apply op)).Inert w') : Change w₀ m w w'
  | addBus {callTimeout : Nat} (hm : m = .arrange (.addBus callTimeout)) :
      Change w₀ m w₀ (w₀.addBus callTimeout).1
  | addObject {i : Interface} {s : Service} (hm : m = .arrange (.addObject i s)) :
      Change w₀ m w₀ (w₀.addObject i s).1
  | exported {w : World} {id : Nat} {o : Object} {link : Link} {path : String} {registration : Nat}
      (hm : m = .arrange (.exportObject id link path)) (ho : w₀.objects.get? id = some o)
      (hfree : o.binding = none)
      (hr : w₀.register link path o.interface.name id = (w, .ok registration)) :
      Change w₀ m w₀ (w.setObject id { o with binding := some { link, path, registration } })
  | unexported {id : Nat} {o : Object} {place : Binding}
      (hm : m = .arrange (.unexportObject id)) (ho : w₀.objects.get? id = some o)
      (hplace : o.binding = some place) :
      Change w₀ m w₀
        ((w₀.unregister place.link place.registration).setObject id { o with binding := none })
  | written {w : World} {id : Nat} {o : Object} {s : Service} {cells : Cells} (hw : w₀.Inert w)
      (ho : w₀.objects.get? id = some o) (hs : w₀.Writes m id o s cells) :
      Change w₀ m w { w with objects := w.objects.insert id { o with service := s }, cells }
  | setCell {cell : String} {v : Value} (hm : m = .arrange (.setCell cell v)) :
      Change w₀ m w₀ { w₀ with cells := w₀.cells.insert cell v }
  /-- A proxy comes that knows no values. -/
  | addProxy {w : World} {id : Nat} {p : Proxy} (hp : w.proxies.get? id = none)
      (hcache : p.cache = .empty) :
      Change w₀ m w { w with proxies := w.proxies.insert id p }
  | learned {w : World} {id : Nat} {p : Proxy} {cache : Cache} (hp : w.proxies.get? id = some p)
      (hc : w₀.Learns m id p cache) :
      Change w₀ m w { w with proxies := w.proxies.insert id { p with cache } }

/-- The changes that a move makes, one after the other. -/
abbrev Changes (w₀ : World) (m : Move) : World → World → Prop := Relation.ReflTransGen (Change w₀ m)

section Changes

variable {w₀ : World} {m : Move}

theorem Inert.changes (h : w.Inert w') : Changes w₀ m w w' := .single (.inert h)

theorem Changes.foldl {α : Type} {f : World → α → World} {l : List α}
    (hf : ∀ w, ∀ x ∈ l, Changes w₀ m w (f w x)) (w : World) : Changes w₀ m w (l.foldl f w) := by
  refine List.foldlRecOn l f .refl fun v h x hx => ?_
  exact h.trans (hf v x hx)

theorem changes_withObject {id : Nat} {f : Object → World}
    (hf : ∀ o, w.objects.get? id = some o → Changes w₀ m w (f o)) :
    Changes w₀ m w (w.withObject id f) := by
  unfold withObject
  cases ho : w.objects.get? id with
  | none => exact .refl
  | some o => exact hf o ho

theorem changes_withProxy {id : Nat} {f : Proxy → World}
    (hf : ∀ p, w.proxies.get? id = some p → Changes w₀ m w (f p)) :
    Changes w₀ m w (w.withProxy id f) := by
  unfold withProxy
  cases hp : w.proxies.get? id with
  | none => exact .refl
  | some p => exact hf p hp

/-- A proxy that knows of properties what it knew may change otherwise. -/
theorem changes_setProxy {id : Nat} {p p' : Proxy} (hp : w.proxies.get? id = some p)
    (haccount : p'.account = p.account) : Changes w₀ m w (w.setProxy id p') := by
  have hset : w.Inert (w.setProxy id p') := inert_insertProxy hp rfl rfl rfl rfl haccount
  exact hset.changes

theorem changes_bus (w : World) (b : Nat) (op : Bus.Operation Nat Sink)
    (hop : op.registers = false) : Changes w₀ m w (w.setBus b ((w.bus b).apply op)) :=
  .single (.bus b op hop (.refl _))

/-! ### Connections -/

theorem changes_close (w : World) (b : Nat) (name : String) : Changes w₀ m w (w.close b name) :=
  changes_bus w b (.close name) rfl

theorem changes_closeUnheld (w : World) : Changes w₀ m w w.closeUnheld := by
  refine Changes.foldl (fun w b _ => ?_) w
  refine Changes.foldl (fun w name _ => ?_) w
  split
  · exact .refl
  · exact changes_close w b name

theorem changes_connect (w : World) (b : Nat) : Changes w₀ m w (w.connect b).1 := by
  have hheld : ∀ links, Inert (w.setBus b (w.bus b).connect.1)
      { w.setBus b (w.bus b).connect.1 with held := links } := fun _ => .of_same rfl rfl rfl rfl
  exact .single (.bus b .connect rfl ((hheld _).trans (inert_spawn _ _)))

theorem changes_subscribe (w : World) (link : Link) (rule : SignalRule) (sink : Sink) :
    Changes w₀ m w (w.subscribe link rule sink).1 := by
  unfold subscribe
  split
  · exact changes_bus w _ (.subscribe _ rule sink) rfl
  · exact (((inert_nextScriptedId w _).trans (inert_scripted _ _)).trans (inert_ask _ _ _)).changes

theorem changes_unsubscribe (w : World) (link : Link) (id : Nat) :
    Changes w₀ m w (w.unsubscribe link id) := by
  unfold unsubscribe
  split
  · exact changes_bus w _ (.unsubscribe id) rfl
  · exact ((inert_scripted w _).trans (inert_ask _ _ _)).changes

theorem changes_unregister (w : World) (link : Link) (id : Nat) :
    Changes w₀ m w (w.unregister link id) := by
  unfold unregister
  split
  · exact changes_bus w _ (.unregister id) rfl
  · exact (inert_ask w _ _).changes

theorem changes_broadcast (w : World) (link : Link) (s : SignalMessage) :
    Changes w₀ m w (w.broadcast link s).1 := by
  unfold broadcast
  split
  · rename_i b me
    split
    · rename_i x hx
      have hop : (w.bus b).apply (.emit me s) = x := by simp only [Bus.apply, hx]; rfl
      have hwoken : Inert (w.setBus b x) ((w.setBus b x).wakeDeliveries b) := inert_wake _ _
      rw [← hop] at hwoken ⊢
      exact .single (.bus b (.emit me s) rfl hwoken)
    · exact .refl
  · split
    · exact .refl
    · exact (inert_ask w _ _).changes

/-! ### Sinks -/

/-- A signal that is handed to a proxy may tell its cache something. -/
theorem changes_proxyReceive (w : World) {id : Nat} {s : SignalMessage} (hs : w₀.Hands m id s) :
    Changes w₀ m w (w.proxyReceive id s) := by
  unfold proxyReceive
  split
  · exact .refl
  · rename_i p hp
    split
    · rename_i hchange
      exact .tail (.single (.learned hp (.told p hs hchange))) (.inert (inert_warn _ _))
    · split
      · exact (inert_relay hp _).changes
      · exact .refl

theorem changes_receive (w : World) {sink : Sink} {s : SignalMessage}
    (hs : ∀ id, sink = .proxy id → w₀.Hands m id s) : Changes w₀ m w (w.receive sink s) := by
  cases sink with
  | proxy id => exact changes_proxyReceive w (hs id rfl)
  | recorder label => exact (inert_note w _).changes

theorem changes_signalScripted (w : World) (n : Nat) (s : SignalMessage) :
    Changes w (.arrange (.signalScripted n s)) w (w.signalScripted n s).1 := by
  unfold signalScripted
  split
  · exact .refl
  · rename_i x hx
    refine Changes.foldl (fun v e he => changes_receive v fun id hsink => ?_) w
    exact .told hx (k := e.1) (hsink ▸ he)

/-- A queue is handed out. -/
theorem changes_deliver {t b : Nat} {c : String} (ht : w₀.tasks.get? t = some (.deliver b c))
    (hw : w₀.Inert w) : Changes w₀ (.poll t) w (w.deliver b c) := by
  have hdrained : Changes w₀ (.poll t) w (w.setBus b ((w.bus b).drain c).1) :=
    changes_bus w b (.drain c) rfl
  refine hdrained.trans (Changes.foldl (fun v d hd => changes_receive v fun id hsink => ?_) _)
  refine .delivered (b := b) (c := c) ?_
  rw [hw.bus] at hd
  simp only [handed, ht, and_self, if_true]
  exact hsink ▸ hd

/-! ### Objects -/

theorem changes_exportObject {id : Nat} {o : Object} (ho : w.objects.get? id = some o)
    (link : Link) (path : String) :
    Changes w (.arrange (.exportObject id link path)) w (w.exportObject id o link path).1 := by
  unfold exportObject
  split
  · exact .refl
  · rename_i hfree
    have hfree : o.binding = none := by simpa [Object.isExported] using hfree
    split <;> rename_i v e hr
    · -- A registration that fails leaves the world as it is.
      have hsame : v = w := by
        unfold register at hr
        split at hr
        · split at hr <;> cases hr
          rfl
        · split at hr
          · cases hr
            rfl
          · cases hr
      exact hsame ▸ .refl
    · exact .single (.exported rfl ho hfree hr)

theorem changes_unexportObject {id : Nat} {o : Object} (ho : w.objects.get? id = some o) :
    Changes w (.arrange (.unexportObject id)) w (w.unexportObject id o).1 := by
  unfold unexportObject
  split
  · exact .refl
  · rename_i place hplace
    exact .head (.unexported rfl ho hplace) (changes_closeUnheld _)

theorem changes_emitFrom (w : World) (o : Object) (interface member : String)
    (body : Option Container) : Changes w₀ m w (w.emitFrom o interface member body).1 := by
  unfold emitFrom
  split
  · exact .refl
  · exact changes_broadcast w _ _

theorem changes_emitSignal (w : World) (o : Object) (name : String) (args : List Value) :
    Changes w₀ m w (w.emitSignal o name args).1 := by
  unfold emitSignal
  split
  · exact .refl
  · exact changes_emitFrom w _ _ _ _

theorem changes_emitChanged (w : World) (o : Object) (name : String) (value : Option Value) :
    Changes w₀ m w (w.emitChanged o name value).1 := by
  unfold emitChanged
  split
  · exact .refl
  · exact changes_emitFrom w _ _ _ _

theorem changes_setDirectly {id : Nat} {o : Object} (ho : w.objects.get? id = some o)
    (name : String) (v : Value) :
    Changes w (.arrange (.propertySet id name v)) w (Session.setDirectly w id o name v).1 := by
  unfold Session.setDirectly
  split
  · rename_i h
    exact .single (.written (.refl w) ho (.propertySet h))
  · exact .refl

/-! ### Proxies -/

theorem changes_addProxy (h : w.Orderly) (label : String) (link : Link) (i : Interface)
    (name path : String) (timeout : Option Nat) (flags : CallFlags) (convention : Convention) :
    Changes w₀ m w (w.addProxy label link i name path timeout flags convention).1 := by
  have hproxies := proxies_subscribe w link (Proxy.rule { name, path, interface := i.name })
    (.proxy w.proxies.size)
  have hfree : (w.subscribe link (Proxy.rule { name, path, interface := i.name })
      (.proxy w.proxies.size)).1.proxies.get? w.proxies.size = none := by
    rw [hproxies]
    exact h.proxiesBelow.get?_size
  exact (changes_subscribe w link _ _).tail (.addProxy hfree rfl)

theorem changes_dropProxy (w : World) (id : Nat) : Changes w₀ m w (w.dropProxy id) := by
  unfold dropProxy
  split
  · rename_i p hp
    have hdropped : w.Inert { w with proxies := w.proxies.insert id { p with alive := false } } :=
      inert_insertProxy hp rfl rfl rfl rfl rfl
    exact (hdropped.changes.trans (changes_unsubscribe _ _ _)).trans (changes_closeUnheld _)
  · exact .refl

theorem changes_callMethodAsync {id : Nat} {p : Proxy} (hp : w.proxies.get? id = some p)
    (method : Method) (args : List Argument) :
    Changes w₀ m w (w.callMethodAsync id p method args).1 := by
  unfold callMethodAsync
  split
  · exact .refl
  · rename_i c _
    have hentered : Changes w₀ m w (w.setProxy id (p.enter method c).1) := changes_setProxy hp rfl
    exact hentered.trans (inert_spawn _ _).changes

theorem changes_setProperty {id : Nat} {p : Proxy} (hp : w.proxies.get? id = some p)
    (name : String) (v : Value) :
    Changes w (.setProperty id name v) w (w.setProperty id p name v).1 := by
  unfold setProperty
  split
  · exact .refl
  · rename_i p' call hstart
    have hlearned : Change w (.setProperty id name v) w
        (w.setProxy id { p with cache := p'.cache }) := .learned hp (.set hstart)
    rw [← Proxy.account_startSet hstart] at hlearned
    exact .tail (.single hlearned) (.inert (inert_spawn _ _))

theorem changes_unlisten {id : Nat} {p : Proxy} (hp : w.proxies.get? id = some p)
    (label : String) : Changes w₀ m w (w.unlisten id p label).1 := by
  unfold unlisten
  split
  · exact .refl
  · exact changes_setProxy hp rfl

/-! ### Requests -/

/-- A request on the properties interface, with what it writes. -/
theorem changes_answerProperties {t b : Nat} {r : Request} {me owner : String}
    (ht : w₀.tasks.get? t = some (.request r .unsent)) (hlink : r.link = .bus b me)
    (hw : w₀.Inert w) (hroute : w₀.route b me r.call r.cancel = .ok (.properties owner)) :
    Changes w₀ (.poll t) w (w.answerProperties b owner r.call).1 := by
  unfold answerProperties
  rw [hw.bus, hw.objects, hw.cells]
  split
  · exact .refl
  · rename_i i hi
    split
    · exact .refl
    · rename_i id o hfound
      obtain ⟨n, hid, hn⟩ := Option.bind_eq_some_iff.mp hfound
      obtain ⟨o', ho, hpair⟩ := Option.map_eq_some_iff.mp hn
      cases hpair
      have hwritten := Change.written hw ho (.answered o ht hlink hroute hi hid)
      rw [hw.objects] at hwritten
      exact .tail (.single hwritten) (.inert (inert_warn _ _))

theorem changes_look {t : Nat} {r : Request} {p : Progress}
    (ht : w₀.tasks.get? t = some (.request r p)) (hw : w₀.Inert w)
    (hroute : ∀ b me, w.route b me r.call r.cancel = w₀.route b me r.call r.cancel) :
    Changes w₀ (.poll t) w (w.look r p).1 := by
  cases p with
  | unsent =>
    simp only [look]
    split
    · rename_i b me hlink
      cases hr : w.route b me r.call r.cancel with
      | error e => rw [issueBus, hr]
      | ok route =>
        cases route with
        | properties owner =>
          rw [issueBus, hr]
          exact changes_answerProperties ht hlink hw ((hroute b me).symm.trans hr)
        | object object =>
          rw [issueBus_object hr]
          exact (inert_handedTo w me r object).changes
    · exact (inert_issueScripted w _ r).changes
  | _ => exact .refl

theorem changes_runTask {t : Nat} {x : Task} (ht : w₀.tasks.get? t = some x) :
    Changes w₀ (.poll t) w₀ ((w₀.taken t).runTask t x) := by
  refine (inert_taken w₀ t).changes.trans ?_
  have hw : w₀.Inert (w₀.taken t) := inert_taken w₀ t
  cases x with
  | deliver b c => exact changes_deliver ht hw
  | handle object i member body =>
    exact ((inert_endTask _ t).trans (inert_handle _ _ _ _ _)).changes
  | request r p =>
    have hlook : Changes w₀ (.poll t) (w₀.taken t) ((w₀.taken t).look r p).1 :=
      changes_look ht hw fun _ _ => rfl
    simp only [runTask]
    split <;> rename_i v q heq <;> rw [heq] at hlook
    · exact hlook.trans ((inert_settleRequest v t r.purpose q).trans (inert_endTask _ t)).changes
    · have hreplaced : v.Inert { v with tasks := v.tasks.insert t (.request r q) } :=
        .of_same rfl rfl rfl rfl
      exact hlook.trans hreplaced.changes
  | answer i a due =>
    simp only [runTask]
    split
    · exact ((inert_endTask _ t).trans (inert_conclude _ _ _)).changes
    · exact .refl
  | fire token due =>
    simp only [runTask]
    split
    · exact ((inert_endTask _ t).trans (inert_fire _ _)).changes
    · exact .refl
  | watch i =>
    simp only [runTask]
    split
    · exact ((inert_endTask _ t).trans (inert_note _ _)).changes
    · exact .refl

/-! ## 4. Moves -/

theorem changes_arrange (h : w.Orderly) (a : Arrangement) :
    Changes w (.arrange a) w (w.arrange a) := by
  cases a with
  | addBus callTimeout => exact .single (.addBus rfl)
  | connect b => exact changes_connect w b
  | close b name => exact changes_close w b name
  | release link =>
    have hgiven : w.Inert { w with held := w.held.erase link } := .of_same rfl rfl rfl rfl
    exact hgiven.changes.trans (changes_closeUnheld _)
  | ownName b me name =>
    simp only [arrange]
    split
    · rename_i x hx
      have hop : (w.bus b).apply (.ownName me name) = x := by simp only [Bus.apply, hx]; rfl
      exact hop ▸ changes_bus w b (.ownName me name) rfl
    · exact .refl
  | releaseName b me name => exact changes_bus w b (.releaseName me name) rfl
  | subscribe link rule label => exact changes_subscribe w link rule _
  | unsubscribe link id => exact changes_unsubscribe w link id
  | unregister link id => exact changes_unregister w link id
  | broadcast link s => exact changes_broadcast w link s
  | addScripted label name fault => exact (inert_scripted w _).changes
  | addReplies id replies => exact (inert_scripted w _).changes
  | signalScripted id s => exact changes_signalScripted w id s
  | addObject i s => exact .single (.addObject rfl)
  | exportObject id link path =>
    exact changes_withObject fun o ho => changes_exportObject ho link path
  | unexportObject id => exact changes_withObject fun o ho => changes_unexportObject ho
  | emitSignal id name args => exact changes_withObject fun o _ => changes_emitSignal w o name args
  | emitChanged id name value =>
    exact changes_withObject fun o _ => changes_emitChanged w o name value
  | serviceSet id name v =>
    exact changes_withObject fun o ho =>
      .single (.written (.refl w) ho (.serviceSet id o name v))
  | propertySet id name v => exact changes_withObject fun o ho => changes_setDirectly ho name v
  | setCell cell v => exact .single (.setCell rfl)
  | addProxy label link i name path timeout flags convention =>
    exact changes_addProxy h label link i name path timeout flags convention
  | dropProxy id => exact changes_dropProxy w id
  | listen id label signal drops =>
    refine changes_withProxy fun p hp => ?_
    have hlistens : w.Inert (w.listen id p label signal drops) :=
      inert_insertProxy hp rfl rfl rfl rfl rfl
    exact hlistens.changes
  | unlisten id label => exact changes_withProxy fun p hp => changes_unlisten hp label
  | readResult handler =>
    have hread : w.Inert { w with results := w.results.erase handler } :=
      .of_same rfl rfl rfl rfl
    exact hread.changes

/-- **Every move is made of such changes.** -/
theorem changes_act (h : w.Orderly) (m : Move) : Changes w m w (w.act m) := by
  cases m with
  | arrange a => exact changes_arrange h a
  | callAsync id method args =>
    exact changes_withProxy fun p hp => changes_callMethodAsync hp method args
  | setProperty id name v => exact changes_withProxy fun p hp => changes_setProperty hp name v
  | ask r => exact (inert_spawn w _).changes
  | takeOutcome t => exact (inert_dropOutcome w t).changes
  | endGet id name t =>
    simp only [act]
    split
    · rename_i reply ht
      refine (inert_dropOutcome w t).changes.trans (changes_withProxy fun p hp => ?_)
      rw [Proxy.account_finishGet]
      exact .single (.learned hp (.get p name ht))
    · exact .refl
  | endInit id t =>
    simp only [act]
    split
    · rename_i reply ht
      refine (inert_dropOutcome w t).changes.trans (changes_withProxy fun p hp => ?_)
      rw [Proxy.account_finishInit]
      exact .single (.learned hp (.init p ht))
    · exact .refl
  | cancelPending id =>
    exact changes_withProxy fun p _ => (Inert.foldl inert_fire _ w).changes
  | call id sender path member body =>
    exact changes_withObject fun o _ => (inert_callDirectly w id o sender path member body).changes
  | answer slot answer =>
    simp only [act]
    cases ha : w.answerKept slot answer with
    | none => exact .refl
    | some w' => exact (inert_answerKept ha).changes
  | fire token => exact (inert_fire w token).changes
  | fireAfter token ms => exact (inert_spawn w _).changes
  | poll t =>
    cases ht : w.tasks.get? t with
    | none =>
      have hact : w.act (.poll t) = w.taken t := by simp only [act, poll, ht, taken]
      exact hact ▸ (inert_taken w t).changes
    | some x =>
      rw [act_poll ht]
      exact (changes_runTask ht).trans (changes_closeUnheld _)
  | pass ms => exact (inert_moveTo w _).changes

/-- **What each change keeps, a move keeps.** -/
theorem act_keeps {P : World → Prop} (h : w.Orderly) {m : Move}
    (hchange : ∀ {v v'}, Change w m v v' → P v → P v') (hw : P w) : P (w.act m) := by
  have hchanges := changes_act h m
  generalize w.act m = w' at hchanges
  induction hchanges with
  | refl => exact hw
  | tail _ hstep ih => exact hchange hstep ih

/-! ## 5. What becomes of a proxy and of an object -/

theorem proxies_register (w : World) (link : Link) (path interface : String) (object : Nat) :
    (w.register link path interface object).1.proxies = w.proxies := by
  unfold register
  split
  · split <;> rfl
  · split
    · rfl
    · simp only [ask, nextScriptedId]
      split <;> split <;> rfl

theorem proxies_unregister (w : World) (link : Link) (id : Nat) :
    (w.unregister link id).proxies = w.proxies := by
  unfold unregister
  split
  · rfl
  · simp only [ask]
    split <;> rfl

theorem account?_insert {id : Nat} {p : Proxy} (hproxies : w'.proxies = w.proxies.insert id p)
    (n : Nat) : w'.account? n = if id = n then some p.account else w.account? n := by
  rw [account?, account?, hproxies, Table.get?_insert]
  split <;> rfl

theorem account?_congr (hproxies : w'.proxies = w.proxies) (id : Nat) :
    w'.account? id = w.account? id := by rw [account?, account?, hproxies]

/-- **A change leaves a proxy what it is**, or makes it, or lets its cache learn something. -/
theorem Change.account {w₀ : World} {m : Move} (hc : Change w₀ m w w') (id : Nat) :
    w'.account? id = w.account? id ∨
      (w.account? id = none ∧ ∃ a, w'.account? id = some a ∧ a.cache = .empty) ∨
      ∃ p cache, w.proxies.get? id = some p ∧ w₀.Learns m id p cache ∧
        w'.account? id = some { p.account with cache } := by
  cases hc with
  | inert hi => exact Or.inl (hi.accounts id)
  | bus b op _ hi => exact Or.inl (hi.accounts id)
  | addBus _ => exact Or.inl rfl
  | addObject _ => exact Or.inl rfl
  | @exported v n o link path registration _ _ _ hr =>
    have hproxies := proxies_register w link path o.interface.name n
    rw [hr] at hproxies
    exact Or.inl (account?_congr hproxies id)
  | @unexported n o place _ _ _ =>
    exact Or.inl (account?_congr (proxies_unregister w place.link place.registration) id)
  | written _ _ _ => exact Or.inl rfl
  | setCell _ => exact Or.inl rfl
  | @addProxy _ n p hp hcache =>
    rw [account?_insert rfl]
    split
    · rename_i heq
      refine Or.inr (Or.inl ⟨?_, p.account, rfl, hcache⟩)
      rw [← heq, account?, hp]
      rfl
    · exact Or.inl rfl
  | @learned _ n p cache hp hlearns =>
    rw [account?_insert rfl]
    split
    · rename_i heq
      subst heq
      exact Or.inr (Or.inr ⟨p, cache, hp, hlearns, rfl⟩)
    · exact Or.inl rfl

/-- A proxy keeps its interface, its connection and its target. -/
theorem account_act (h : w.Orderly) {id : Nat} {a : Account} (ha : w.account? id = some a)
    (m : Move) : ∃ cache, (w.act m).account? id = some { a with cache } := by
  refine act_keeps h (P := fun v => ∃ cache, v.account? id = some { a with cache })
    (fun {v v'} hc ⟨cache, hv⟩ => ?_) ⟨a.cache, ha⟩
  rcases hc.account id with hsame | ⟨hnone, -⟩ | ⟨p, cache', hp, -, hnew⟩
  · exact ⟨cache, hsame.trans hv⟩
  · rw [hv] at hnone
    cases hnone
  · rw [account?, hp, Option.map_some] at hv
    refine ⟨cache', hnew.trans ?_⟩
    rw [Option.some.inj hv]

theorem account_run (ms : List Move) {w : World} (h : w.Orderly) {id : Nat} {a : Account}
    (ha : w.account? id = some a) : ∃ cache, (w.run ms).account? id = some { a with cache } := by
  induction ms generalizing w a with
  | nil => exact ⟨a.cache, ha⟩
  | cons m ms ih =>
    obtain ⟨cache, hact⟩ := account_act h ha m
    exact ih (orderly_act h m) (a := { a with cache }) hact

/-- A proxy that is there stays there, with its interface, its connection and its target. -/
theorem proxy_run (ms : List Move) {w : World} (h : w.Orderly) {id : Nat} {p : Proxy}
    (hp : w.proxies.get? id = some p) : ∃ p', (w.run ms).proxies.get? id = some p' ∧
      p'.interface = p.interface ∧ p'.link = p.link ∧ p'.target = p.target := by
  have ha : w.account? id = some p.account := by rw [account?, hp, Option.map_some]
  obtain ⟨cache, hrun⟩ := account_run ms h ha
  obtain ⟨p', hp', haccount⟩ := Option.map_eq_some_iff.mp hrun
  rw [Account.ext_iff] at haccount
  exact ⟨p', hp', haccount.1, haccount.2.1, haccount.2.2.1⟩

/-- An object keeps its interface, and its service, unless a move writes to it. -/
theorem object_act (h : w.Orderly) {id : Nat} {o : Object} (ho : w.objects.get? id = some o)
    (m : Move) : ∃ o', (w.act m).objects.get? id = some o' ∧ o'.interface = o.interface ∧
      (o'.service = o.service ∨ ∃ cells, w.Writes m id o o'.service cells) := by
  refine act_keeps h (P := fun v => ∃ o', v.objects.get? id = some o' ∧
      o'.interface = o.interface ∧
        (o'.service = o.service ∨ ∃ cells, w.Writes m id o o'.service cells))
    (fun {v v'} hc hv => ?_) ⟨o, ho, rfl, Or.inl rfl⟩
  -- The world before the move has the object as it is; so has a world with the same objects.
  have hsame : ∀ {u : World}, u.objects = w.objects → ∃ o', u.objects.get? id = some o' ∧
      o'.interface = o.interface ∧
        (o'.service = o.service ∨ ∃ cells, w.Writes m id o o'.service cells) := fun hu =>
    ⟨o, hu ▸ ho, rfl, Or.inl rfl⟩
  -- Putting an object of the same interface and service in its place changes nothing of this.
  have hrebound : ∀ {u u' : World} {n o₀ binding}, u.objects = w.objects →
      w.objects.get? n = some o₀ → u'.objects = u.objects.insert n { o₀ with binding } →
      ∃ o', u'.objects.get? id = some o' ∧ o'.interface = o.interface ∧
        (o'.service = o.service ∨ ∃ cells, w.Writes m id o o'.service cells) := by
    intro u u' n o₀ binding hu ho₀ hu'
    rw [hu', Table.get?_insert]
    split
    · rename_i heq
      subst heq
      cases ho.symm.trans ho₀
      exact ⟨_, rfl, rfl, Or.inl rfl⟩
    · exact hsame hu
  cases hc with
  | inert hi => rw [hi.objects]; exact hv
  | bus b op _ hi => rw [hi.objects]; exact hv
  | addBus _ => exact hv
  | @addObject i s _ =>
    have hne : w.objects.size ≠ id := fun heq => by
      rw [← heq, h.objectsBelow.get?_size] at ho
      cases ho
    have hobjects : (w.addObject i s).1.objects
        = w.objects.insert w.objects.size { interface := i, service := s, binding := none } := rfl
    rw [hobjects, Table.get?_insert, if_neg hne]
    exact hv
  | @exported u n o₀ link path registration _ ho₀ _ hr =>
    have hobjects := objects_register w link path o₀.interface.name n
    rw [hr] at hobjects
    exact hrebound hobjects ho₀ rfl
  | @unexported n o₀ place _ ho₀ _ =>
    exact hrebound (objects_unregister w place.link place.registration) ho₀ rfl
  | @written u n o₀ s cells hi ho₀ hwrites =>
    change ∃ o', (Table.insert _ n { o₀ with service := s }).get? id = some o' ∧ _
    rw [Table.get?_insert]
    split
    · rename_i heq
      subst heq
      cases ho.symm.trans ho₀
      exact ⟨_, rfl, rfl, Or.inr ⟨cells, hwrites⟩⟩
    · exact hsame hi.objects
  | setCell _ => exact hv
  | addProxy _ _ => exact hv
  | learned _ _ => exact hv

end Changes

end World

end MessageBus
