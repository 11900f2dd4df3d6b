/-
# Exports: an object and its registration

Where an object is exported is known twice.  The object has a binding, with a connection, a path and
a number, and the bus of this connection has a registration of that number, under the connection,
the path and the object's interface.  The two are made together and taken back together, but a
connection that closes takes its registrations with it and leaves the bindings alone, and a
registration is taken back by its number only, wherever it stands.  That this never goes wrong rests
on `World.Linked`: the object of a registration is bound to just this registration, and no other
object is bound to one of its number.

`World.export_lifecycle` is what follows for every run.  The last part is about requests: a handler
is called by a task, and this task was made when a request found the object registered under what
the request names (`World.handle_origin`).

A bus is known by its number.  Opening a bus gives it the number that is the count of those there
are, so a run that uses a bus before it opens it may have this bus replaced by an empty one.  Such
runs are left out (`World.reopened`).
-/
import MessageBus.Proofs.Changes
import MessageBus.Proofs.Obligations
import MessageBus.Proofs.Ownership

namespace MessageBus

/-! ## 1. Registrations on a bus -/

namespace Bus

variable {η σ : Type} {b b' : Bus η σ}

/-- **What can be exported**: on an open connection, under a valid path, where nothing is yet. -/
theorem register_iff {me path interface : String} (handler : η) :
    (∃ r, b.register me path interface handler = .ok r) ↔
      b.isOpen me = true ∧ ObjectPath.isValid path = true ∧
        b.objects.get? ⟨me, path, interface⟩ = none := by
  unfold register checkOpen
  cases b.isOpen me with
  | false => simp [bind, Except.bind]
  | true =>
    cases ObjectPath.isValid path with
    | false => simp [bind, Except.bind]
    | true =>
      cases h : b.objects.get? ⟨me, path, interface⟩ with
      | some r => simp [bind, Except.bind, Table.contains, h]
      | none => simp [bind, Except.bind, pure, Except.pure, Table.contains, h]

/-- No operation but one registers anything. -/
theorem Owned.get?_apply (h : b.Owned) {op : Operation η σ} (hop : op.registers = false)
    {key : ObjectKey} {r : Registration η} (hr : (b.apply op).objects.get? key = some r) :
    b.objects.get? key = some r := by
  cases op with
  | connect => exact hr
  | close me =>
    change (b.close me).objects.get? key = some r at hr
    unfold Bus.close at hr
    split at hr
    · rw [h.objectsDistinct.get?_filter, Option.filter_eq_some_iff] at hr
      exact hr.1
    · exact hr
  | ownName me name =>
    rcases b.apply_ownName me name with ⟨-, heq⟩ | heq <;> rw [heq] at hr <;> exact hr
  | releaseName me name =>
    rcases b.apply_releaseName me name with heq | heq <;> rw [heq] at hr <;> exact hr
  | register me path interface handler => cases hop
  | unregister id =>
    change (b.unregister id).objects.get? key = some r at hr
    unfold Bus.unregister at hr
    rw [h.objectsDistinct.get?_filter, Option.filter_eq_some_iff] at hr
    exact hr.1
  | subscribe me rule sink => exact hr
  | unsubscribe id => exact hr
  | emit me m =>
    rw [(b.apply_emit me m).1] at hr
    exact hr
  | drain c => exact hr

theorem Owned.get?_unregister (h : b.Owned) (id : Nat) (key : ObjectKey) (r : Registration η) :
    (b.unregister id).objects.get? key = some r ↔ b.objects.get? key = some r ∧ r.id ≠ id := by
  simp only [Bus.unregister]
  rw [h.objectsDistinct.get?_filter, Option.filter_eq_some_iff, decide_eq_true_eq]

end Bus

/-! ## 2. Bindings and registrations -/

/-- Where an object is bound, and with what interface. -/
def Object.place (o : Object) : Option (String × Binding) :=
  o.binding.map fun binding => (o.interface.name, binding)

namespace World

variable {w w' : World} {m : Move}

/-- Where an object is bound, and with what interface. -/
def place? (w : World) (id : Nat) : Option (String × Binding) :=
  (w.objects.get? id).bind (·.place)

theorem place?_eq_some {id : Nat} {interface : String} {binding : Binding} :
    w.place? id = some (interface, binding) ↔
      ∃ o, w.objects.get? id = some o ∧ o.interface.name = interface ∧
        o.binding = some binding := by
  simp only [place?, Object.place, Option.bind_eq_some_iff, Option.map_eq_some_iff, Prod.mk.injEq]
  constructor
  · rintro ⟨o, ho, x, hx, hi, rfl⟩
    exact ⟨o, ho, hi, hx⟩
  · rintro ⟨o, ho, hi, hx⟩
    exact ⟨o, ho, binding, hx, hi, rfl⟩

theorem place?_insert {id : Nat} {o : Object} (hobjects : w'.objects = w.objects.insert id o)
    (n : Nat) : w'.place? n = if id = n then o.place else w.place? n := by
  rw [place?, place?, hobjects, Table.get?_insert]
  split <;> rfl

theorem place?_setObject (w : World) (id : Nat) (o : Object) (n : Nat) :
    (w.setObject id o).place? n = if id = n then o.place else w.place? n := place?_insert rfl n

/-- **Bindings and registrations belong together.** -/
structure Linked (w : World) : Prop where
  owned : ∀ b, (w.bus b).Owned
  /-- The object of a registration is bound to it. -/
  bound : ∀ {b key r}, (w.bus b).objects.get? key = some r →
    w.place? r.handler = some (key.interface, ⟨.bus b key.owner, key.path, r.id⟩)
  given : ∀ {id i b me path n}, w.place? id = some (i, ⟨.bus b me, path, n⟩) →
    n < (w.bus b).nextId
  /-- The numbers of two bound objects differ. -/
  distinct : ∀ {id id' i i' b me me' path path' n}, w.place? id = some (i, ⟨.bus b me, path, n⟩) →
    w.place? id' = some (i', ⟨.bus b me', path', n⟩) → id = id'

theorem linked_empty : empty.Linked where
  owned := fun _ => Bus.owned_empty _
  bound := fun h => by cases h
  given := fun h => by cases h
  distinct := fun h => by cases h

/-- It is enough that bindings stay, and that no registration comes. -/
theorem Linked.of_frame (h : w.Linked) (hplace : ∀ id, w'.place? id = w.place? id)
    (howned : ∀ b, (w'.bus b).Owned)
    (hbus : ∀ {b key r}, (w'.bus b).objects.get? key = some r →
      (w.bus b).objects.get? key = some r)
    (hnext : ∀ b, (w.bus b).nextId ≤ (w'.bus b).nextId) : w'.Linked where
  owned := howned
  bound := fun hr => by rw [hplace]; exact h.bound (hbus hr)
  given := fun hp => by rw [hplace] at hp; exact Nat.lt_of_lt_of_le (h.given hp) (hnext _)
  distinct := fun hp hp' => by rw [hplace] at hp hp'; exact h.distinct hp hp'

/-- Buses may stay, too. -/
theorem Linked.congr (h : w.Linked) (hplace : ∀ id, w'.place? id = w.place? id)
    (hbuses : w'.buses = w.buses) : w'.Linked := by
  have hbus : ∀ b, w'.bus b = w.bus b := fun b => by rw [World.bus, World.bus, hbuses]
  refine h.of_frame hplace (fun b => hbus b ▸ h.owned b) (fun {b} _ _ hr => hbus b ▸ hr) fun b => ?_
  rw [hbus]

theorem Linked.inert (h : w.Linked) (hi : w.Inert w') : w'.Linked :=
  h.congr (fun id => by rw [place?, place?, hi.objects]) hi.buses

/-- A bus may be exchanged for one with at most the registrations that it has. -/
theorem Linked.setBus (h : w.Linked) {b : Nat} {x : Bus Nat Sink} (howned : x.Owned)
    (hx : ∀ {key r}, x.objects.get? key = some r → (w.bus b).objects.get? key = some r)
    (hnext : (w.bus b).nextId ≤ x.nextId) : (w.setBus b x).Linked := by
  refine h.of_frame (fun _ => rfl) (fun c => ?_) (fun {c key r} hr => ?_) fun c => ?_ <;>
    rw [bus_setBus] at *
  · split
    · exact howned
    · exact h.owned c
  · split at hr
    · rename_i heq
      exact heq ▸ hx hr
    · exact hr
  · split
    · rename_i heq
      exact heq ▸ hnext
    · exact Nat.le_refl _

theorem Linked.apply (h : w.Linked) (b : Nat) (op : Bus.Operation Nat Sink)
    (hop : op.registers = false) : (w.setBus b ((w.bus b).apply op)).Linked :=
  h.setBus ((h.owned b).apply op) (fun hr => (h.owned b).get?_apply hop hr)
    (Bus.ages_apply (w.bus b) op).nextId

/-- What is registered is another object than one that is not bound. -/
theorem Linked.handler_ne (h : w.Linked) {id : Nat} {o : Object} (ho : w.objects.get? id = some o)
    (hfree : o.binding = none) {b : Nat} {key : ObjectKey} {r : Registration Nat}
    (hr : (w.bus b).objects.get? key = some r) : id ≠ r.handler := by
  rintro rfl
  obtain ⟨o', ho', -, hbinding⟩ := place?_eq_some.mp (h.bound hr)
  cases ho.symm.trans ho'
  rw [hfree] at hbinding
  cases hbinding

/-- An object that is not bound may get a registration and the binding to it. -/
theorem Linked.bind (h : w.Linked) {id : Nat} {o : Object} (ho : w.objects.get? id = some o)
    (hfree : o.binding = none) {b : Nat} {me path : String} {x : Bus Nat Sink} {n : Nat}
    (hr : (w.bus b).register me path o.interface.name id = .ok (x, n)) :
    ((w.setBus b x).setObject id
      { o with binding := some ⟨.bus b me, path, n⟩ }).Linked := by
  obtain ⟨rfl, rfl⟩ := Bus.register_eq_ok hr
  have hopen := Bus.open_of_register hr
  have hplace := place?_setObject (w.setBus b { w.bus b with
      nextId := (w.bus b).nextId + 1
      objects := (w.bus b).objects.insert ⟨me, path, o.interface.name⟩ ⟨(w.bus b).nextId, id⟩ }) id
    { o with binding := some ⟨.bus b me, path, (w.bus b).nextId⟩ }
  -- A place with this number is the object's, since all the others have smaller ones.
  have hnumber : ∀ {n i c me' path' k}, w.place? n = some (i, ⟨.bus c me', path', k⟩) →
      c = b → k ≠ (w.bus b).nextId := by
    rintro n i c me' path' k hp rfl rfl
    exact Nat.lt_irrefl _ (h.given hp)
  constructor
  case owned =>
    intro c
    change (World.bus (w.setBus b _) c).Owned
    rw [bus_setBus]
    split
    · exact (h.owned b).insertObject hopen _ _
    · exact h.owned c
  case bound =>
    intro c key r hreg
    change (World.bus (w.setBus b _) c).objects.get? key = some r at hreg
    rw [bus_setBus] at hreg
    rw [hplace]
    split at hreg
    · rename_i hb
      subst hb
      rw [Table.get?_insert] at hreg
      split at hreg
      · rename_i hkey
        cases hreg
        rw [if_pos rfl, ← hkey]
        rfl
      · rw [if_neg (h.handler_ne ho hfree hreg)]
        exact h.bound hreg
    · rw [if_neg (h.handler_ne ho hfree hreg)]
      exact h.bound hreg
  case given =>
    intro n i c me' path' k hp
    change k < (World.bus (w.setBus b _) c).nextId
    rw [hplace] at hp
    rw [bus_setBus]
    split at hp
    · cases hp
      rw [if_pos rfl]
      exact Nat.lt_succ_self _
    · have hlt := h.given hp
      split
      · rename_i hb
        exact Nat.lt_succ_of_lt (hb ▸ hlt)
      · exact hlt
  case distinct =>
    intro n n' i i' c me' me'' path' path'' k hp hp'
    rw [hplace] at hp hp'
    split at hp <;> split at hp'
    · rename_i hn hn'
      exact hn.symm.trans hn'
    · cases hp
      exact absurd rfl (hnumber hp' rfl)
    · cases hp'
      exact absurd rfl (hnumber hp rfl)
    · exact h.distinct hp hp'

/-- A binding to a connection with a script has nothing to do with any bus. -/
theorem Linked.bindScripted (h : w.Linked) {id : Nat} {o : Object} (ho : w.objects.get? id = some o)
    (hfree : o.binding = none) (n registration : Nat) (path : String) :
    (w.setObject id { o with binding := some ⟨.scripted n, path, registration⟩ }).Linked := by
  have hinsert := place?_setObject w id
    { o with binding := some ⟨.scripted n, path, registration⟩ }
  constructor
  case owned => exact h.owned
  case bound =>
    intro b key r hr
    rw [hinsert, if_neg (h.handler_ne ho hfree hr)]
    exact h.bound hr
  case given =>
    intro k i b me path' n' hp
    rw [hinsert] at hp
    split at hp
    · cases hp
    · exact h.given hp
  case distinct =>
    intro k k' i i' b me me' path' path'' n' hp hp'
    rw [hinsert] at hp hp'
    split at hp
    · cases hp
    · split at hp'
      · cases hp'
      · exact h.distinct hp hp'

/-- Taking back the registration of a bound object takes back this object's, and no other's. -/
theorem Linked.unregister_iff (h : w.Linked) {id : Nat} {o : Object}
    (ho : w.objects.get? id = some o) {place : Binding} (hplace : o.binding = some place)
    {b : Nat} {key : ObjectKey} {r : Registration Nat} :
    ((w.unregister place.link place.registration).bus b).objects.get? key = some r ↔
      (w.bus b).objects.get? key = some r ∧ r.handler ≠ id := by
  have hplaced : w.place? id = some (o.interface.name, place) :=
    place?_eq_some.mpr ⟨o, ho, rfl, hplace⟩
  -- A registration of this object is the one that it is bound to.
  have hown : (w.bus b).objects.get? key = some r → r.handler = id →
      place = ⟨.bus b key.owner, key.path, r.id⟩ := by
    rintro hr rfl
    have hbound := h.bound hr
    rw [hplaced] at hbound
    exact (Prod.mk.inj (Option.some.inj hbound)).2
  obtain ⟨link, path, n⟩ := place
  cases link with
  | scripted k =>
    have hbus : (w.unregister (.scripted k) n).bus b = w.bus b := (inert_ask w k _).bus b
    rw [hbus]
    refine ⟨fun hr => ⟨hr, fun hid => ?_⟩, And.left⟩
    cases hown hr hid
  | bus c me =>
    change ((w.setBus c ((w.bus c).unregister n)).bus b).objects.get? key = some r ↔ _
    rw [bus_setBus]
    split
    · rename_i hc
      subst hc
      rw [(h.owned c).get?_unregister]
      refine and_congr_right fun hr => not_congr ⟨?_, fun hid => ?_⟩
      · rintro rfl
        exact h.distinct (h.bound hr) hplaced
      · cases hown hr hid
        rfl
    · rename_i hc
      refine ⟨fun hr => ⟨hr, fun hid => ?_⟩, And.left⟩
      cases hown hr hid
      exact hc rfl

/-- An object loses its binding, and its registration on a bus goes. -/
theorem Linked.unbind (h : w.Linked) {id : Nat} {o : Object} (ho : w.objects.get? id = some o)
    {place : Binding} (hplace : o.binding = some place) :
    ((w.unregister place.link place.registration).setObject id
      { o with binding := none }).Linked := by
  have hunregistered : (w.unregister place.link place.registration).Linked := by
    unfold unregister
    split
    · exact h.apply _ (.unregister place.registration) rfl
    · exact h.inert (inert_ask w _ _)
  have hinsert := place?_setObject (w.unregister place.link place.registration) id
    { o with binding := none }
  constructor
  · exact hunregistered.owned
  · intro b key r hr
    have hother := ((h.unregister_iff ho hplace).mp hr).2
    rw [hinsert, if_neg (Ne.symm hother)]
    exact hunregistered.bound hr
  · intro n i b me path k hp
    rw [hinsert] at hp
    split at hp
    · cases hp
    · exact hunregistered.given hp
  · intro n n' i i' b me me' path path' k hp hp'
    rw [hinsert] at hp hp'
    split at hp
    · cases hp
    · split at hp'
      · cases hp'
      · exact hunregistered.distinct hp hp'

/-! ## 3. Every move keeps them together -/

/-- The number under which a move opens a bus although there is one. -/
def reopened (w : World) : Move → List Nat
  | .arrange (.addBus _) => if w.buses.contains w.buses.size then [w.buses.size] else []
  | _ => []

theorem Linked.addBus (h : w.Linked) {callTimeout : Nat}
    (hm : w.reopened (.arrange (.addBus callTimeout)) = []) : (w.addBus callTimeout).1.Linked := by
  have hnone : w.buses.get? w.buses.size = none := by
    cases hx : w.buses.get? w.buses.size with
    | none => rfl
    | some x => simp [reopened, Table.contains, hx] at hm
  have hbus : w.bus w.buses.size = .empty defaultCallTimeout := by
    rw [World.bus, hnone]
    rfl
  refine h.setBus (Bus.owned_empty _) (fun hr => by cases hr) ?_
  rw [hbus]
  exact Nat.le_refl _

theorem Linked.addObject (h : w.Linked) (hw : w.Orderly) (i : Interface) (s : Service) :
    (w.addObject i s).1.Linked := by
  refine h.congr (fun id => ?_) rfl
  have hadded : (w.addObject i s).1.objects
      = w.objects.insert w.objects.size { interface := i, service := s, binding := none } := rfl
  rw [place?_insert hadded]
  split
  · rename_i hid
    rw [← hid, place?, hw.objectsBelow.get?_size]
    rfl
  · rfl

/-- Each change that a move makes keeps bindings and registrations together. -/
theorem Linked.change {w₀ : World} (hw₀ : w₀.Orderly) (hm : w₀.reopened m = [])
    (hc : Change w₀ m w w') (h : w.Linked) : w'.Linked := by
  cases hc with
  | inert hi => exact h.inert hi
  | bus b op hop hi => exact (h.apply b op hop).inert hi
  | addBus heq => exact h.addBus (heq ▸ hm)
  | addObject heq => exact h.addObject hw₀ _ _
  | @exported v id o link path registration _ ho hfree hr =>
    cases link with
    | bus b me =>
      simp only [register] at hr
      split at hr
      · rename_i hx
        cases hr
        exact h.bind ho hfree hx
      · cases hr
    | scripted n =>
      simp only [register] at hr
      split at hr
      · cases hr
      · cases hr
        have hasked := (inert_nextScriptedId w n).trans
          (inert_ask _ n (.exported path o.interface.name (w.nextScriptedId n).2))
        refine (h.inert hasked).bindScripted ?_ hfree n _ path
        rw [hasked.objects]
        exact ho
  | unexported _ ho hplace => exact h.unbind ho hplace
  | @written v id o s cells hw ho _ =>
    refine h.congr (fun n => ?_) rfl
    rw [place?_insert rfl]
    split
    · rename_i hid
      rw [← hid, place?, hw.objects, ho]
      rfl
    · rfl
  | setCell _ => exact h.congr (fun _ => rfl) rfl
  | addProxy _ _ => exact h.congr (fun _ => rfl) rfl
  | learned _ _ => exact h.congr (fun _ => rfl) rfl

theorem linked_act (hw : w.Orderly) (h : w.Linked) (hm : w.reopened m = []) :
    (w.act m).Linked := act_keeps hw (fun hc hv => hv.change hw hm hc) h

/-- The observations of a part are those of the whole that fall into it. -/
theorem reopened_of_append {before after : List Move}
    (h : observe reopened empty (before ++ after) = []) : observe reopened empty before = [] := by
  rw [observe_append, List.append_eq_nil_iff] at h
  exact h.1

/-- **Bindings and registrations belong together after every run** that opens no bus in the place of
another. -/
theorem linked_run (ms : List Move) (hms : observe reopened empty ms = []) :
    (empty.run ms).Linked := by
  induction ms using List.reverseRecOn with
  | nil => exact linked_empty
  | append_singleton ms m ih =>
    have hbefore := ih (reopened_of_append hms)
    rw [observe_append, List.append_eq_nil_iff, observe_cons, observe_nil, List.append_nil] at hms
    rw [run_append, run_cons, run_nil]
    exact linked_act (orderly_run ms) hbefore hms.2

/-! ## 4. Exporting and taking back -/

/-- A connection that something is registered on is held by the object that is registered. -/
theorem Linked.isHeld (h : w.Linked) {b : Nat} {key : ObjectKey} {r : Registration Nat}
    (hr : (w.bus b).objects.get? key = some r) : w.isHeld (.bus b key.owner) = true := by
  obtain ⟨o, ho, -, hbinding⟩ := place?_eq_some.mp (h.bound hr)
  have hany : w.objects.values.any (fun o => o.binding.any (·.link = .bus b key.owner)) = true :=
    List.any_eq_true.mpr ⟨o, Table.mem_values_of_get? ho, by simp [hbinding]⟩
  simp [World.isHeld, hany]

/-- Closing a connection that nothing holds takes no registration away, -/
theorem Linked.objects_close (h : w.Linked) {c : Nat} {name : String}
    (hheld : w.isHeld (.bus c name) = false) (b : Nat) :
    ((w.close c name).bus b).objects = (w.bus b).objects := by
  rw [close, bus_setBus]
  split
  · rename_i hc
    subst hc
    unfold Bus.close
    split
    · refine congrArg Table.mk (List.filter_eq_self.mpr fun e he => ?_)
      have hr := (h.owned c).objectsDistinct.get?_of_mem he
      refine decide_eq_true fun hname => ?_
      have hholds := h.isHeld hr
      rw [hname, hheld] at hholds
      cases hholds
    · rfl
  · rfl

/-- nor does closing all of them. -/
theorem Linked.objects_closeUnheld (h : w.Linked) (b : Nat) :
    (w.closeUnheld.bus b).objects = (w.bus b).objects := by
  let Kept (v : World) : Prop := v.Linked ∧ ∀ b, (v.bus b).objects = (w.bus b).objects
  have hon : ∀ v c, Kept v → Kept (v.closeUnheldOn c) := by
    intro v c hv
    refine List.foldlRecOn _ _ hv fun v hv name _ => ?_
    split
    · exact hv
    · rename_i hheld
      refine ⟨hv.1.apply c (.close name) rfl, fun b => ?_⟩
      rw [hv.1.objects_close (Bool.eq_false_iff.mpr hheld), hv.2]
  have hall : Kept w.closeUnheld :=
    List.foldlRecOn _ _ (⟨h, fun _ => rfl⟩ : Kept w) fun v hv c _ => hon v c hv
  exact hall.2 b

theorem objects_closeUnheld_eq (w : World) : w.closeUnheld.objects = w.objects := by
  refine foldl_same objects (fun w n => ?_) _ w
  refine foldl_same objects (fun w name => ?_) _ w
  split <;> rfl

/-- What is registered after an object has been taken back: what was, but this object. -/
theorem Linked.unexport_iff (h : w.Linked) {id : Nat} {o : Object}
    (ho : w.objects.get? id = some o) {place : Binding} (hplace : o.binding = some place)
    {b : Nat} {key : ObjectKey} {r : Registration Nat} :
    ((w.unexportObject id o).1.bus b).objects.get? key = some r ↔
      (w.bus b).objects.get? key = some r ∧ r.handler ≠ id := by
  have hunbound := h.unbind ho hplace
  simp only [unexportObject, hplace]
  rw [hunbound.objects_closeUnheld]
  exact h.unregister_iff ho hplace

/-- An object that is taken back is bound no more; the others are what they were. -/
theorem objects_unexportObject {id : Nat} {o : Object} {place : Binding}
    (hplace : o.binding = some place) :
    (w.unexportObject id o).1.objects = w.objects.insert id { o with binding := none } := by
  simp only [unexportObject, hplace]
  rw [objects_closeUnheld_eq]
  change Table.insert _ _ _ = _
  rw [objects_unregister]

/-- **An export succeeds** if the object is free and the bus accepts it, -/
theorem exportObject_iff {id : Nat} {o : Object} {b : Nat} {me path : String} :
    (w.exportObject id o (.bus b me) path).2 = .ok () ↔
      o.binding = none ∧ (w.bus b).isOpen me = true ∧ ObjectPath.isValid path = true ∧
        (w.bus b).objects.get? ⟨me, path, o.interface.name⟩ = none := by
  rw [← Bus.register_iff id]
  unfold exportObject Object.isExported
  cases o.binding with
  | some place => simp
  | none =>
    cases hr : (w.bus b).register me path o.interface.name id with
    | error e => simp [World.register, hr]
    | ok r => simp [World.register, hr]

/-- and otherwise it changes nothing. -/
theorem exportObject_refused {id : Nat} {o : Object} {link : Link} {path : String}
    (h : (w.exportObject id o link path).2 ≠ .ok ()) :
    (w.exportObject id o link path).1 = w := by
  unfold exportObject at h ⊢
  split
  · rfl
  · split <;> rename_i hr
    · unfold World.register at hr
      split at hr
      · split at hr <;> cases hr
        rfl
      · split at hr
        · cases hr
          rfl
        · cases hr
    · rename_i hfree _ _ _
      simp [hfree, hr] at h

/-- What an export that succeeds changes. -/
structure Exported (w : World) (id : Nat) (o : Object) (b : Nat) (me path : String) (w' : World) :
    Prop where
  /-- There is one more registration, -/
  registered (c : Nat) (key : ObjectKey) : (w'.bus c).objects.get? key =
    if c = b ∧ key = ⟨me, path, o.interface.name⟩ then some ⟨(w.bus b).nextId, id⟩
    else (w.bus c).objects.get? key
  /-- and the object is bound to it. -/
  objects : w'.objects = w.objects.insert id
    { o with binding := some ⟨.bus b me, path, (w.bus b).nextId⟩ }

theorem exported_of_ok {id : Nat} {o : Object} {b : Nat} {me path : String}
    (h : (w.exportObject id o (.bus b me) path).2 = .ok ()) :
    w.Exported id o b me path (w.exportObject id o (.bus b me) path).1 := by
  obtain ⟨hfree, hregister⟩ := exportObject_iff.mp h
  obtain ⟨⟨x, n⟩, hr⟩ := (Bus.register_iff id).mpr hregister
  have hexport : (w.exportObject id o (.bus b me) path).1
      = (w.setBus b x).setObject id { o with binding := some ⟨.bus b me, path, n⟩ } := by
    simp [exportObject, Object.isExported, hfree, World.register, hr]
  rw [hexport]
  obtain ⟨rfl, rfl⟩ := Bus.register_eq_ok hr
  refine ⟨fun c key => ?_, rfl⟩
  change (World.bus (w.setBus b _) c).objects.get? key = _
  rw [bus_setBus]
  by_cases hc : b = c
  · subst hc
    rw [if_pos rfl, Table.get?_insert]
    by_cases hkey : key = ⟨me, path, o.interface.name⟩
    · simp [hkey]
    · simp [hkey, Ne.symm hkey]
  · simp [hc, Ne.symm hc]

/-! ## 5. Who calls a handler -/

/-- Whatever handler a task is about to call, it was before. -/
structure Uncalled (w w' : World) : Prop where
  task : ∀ {t x}, w'.tasks.get? t = some x → x.hands ≠ none → w.tasks.get? t = some x

theorem Uncalled.of_tasks (h : w'.tasks = w.tasks) : w.Uncalled w' := ⟨fun ht _ => h ▸ ht⟩

theorem Uncalled.trans {w'' : World} (h : w.Uncalled w') (h' : w'.Uncalled w'') : w.Uncalled w'' :=
  ⟨fun ht hx => h.task (h'.task ht hx) hx⟩

theorem Calm.uncalled (h : w.Calm w') : w.Uncalled w' := by
  refine ⟨fun ht hx => ?_⟩
  rcases h.newTask ht with hold | ⟨-, b, c, rfl⟩
  · exact hold
  · exact absurd rfl hx

theorem uncalled_spawn (w : World) {x : Task} (hx : x.hands = none) : w.Uncalled (w.spawn x) := by
  refine ⟨fun {t y} hy hhands => ?_⟩
  rw [spawn_eq, Table.get?_insert] at hy
  split at hy
  · cases hy
    exact absurd hx hhands
  · exact hy

theorem uncalled_endTask (w : World) (t : Nat) : w.Uncalled (w.endTask t) := by
  refine ⟨fun ht _ => ?_⟩
  rw [endTask, Table.get?_erase] at ht
  split at ht
  · cases ht
  · exact ht

theorem tasks_reply (w : World) (i : Nat) (r : Reply Container) :
    (w.reply i r).tasks = w.tasks := by
  unfold reply
  split
  · split
    · rfl
    · rw [wake_eq]
  · rfl

theorem tasks_conclude (w : World) (i : Nat) (a : Answer) : (w.conclude i a).tasks = w.tasks := by
  unfold conclude
  split
  · exact tasks_reply _ _ _
  · split
    · exact tasks_reply _ _ _
    · rfl

theorem tasks_fire (w : World) (t : Token) : (w.fire t).tasks = w.tasks := by
  unfold fire
  split
  · rfl
  · rw [wake_eq]

theorem uncalled_dispose (w : World) (i : Nat) (args : List Value) (d : Disposal) :
    w.Uncalled (w.dispose i args d) := by
  cases d with
  | keep =>
    unfold dispose keep
    simp only
    split <;> exact .of_tasks rfl
  | answer a => exact .of_tasks (tasks_conclude w i a)
  | answerAfter ms a => exact uncalled_spawn w rfl

/-- A handler that is called calls no other one. -/
theorem uncalled_handle (w : World) (object i : Nat) (member : String) (body : Container) :
    w.Uncalled (w.handle object i member body) := by
  have hsame : ∀ (v : World) r, v.tasks = w.tasks → w.Uncalled (v.reply i r) := fun v r hv =>
    .of_tasks ((tasks_reply v i r).trans hv)
  unfold handle
  split
  · exact .of_tasks rfl
  · split
    · exact hsame _ _ rfl
    · exact hsame _ _ rfl
    · have hnoted : ∀ e, w.Uncalled (w.note e) := fun _ => .of_tasks rfl
      exact (hnoted _).trans (uncalled_dispose _ _ _ _)

theorem uncalled_callDirectly (w : World) (id : Nat) (o : Object) (sender path member : String)
    (body : Container) :
    w.Uncalled (Session.callDirectly w id o sender path member body).1 := by
  rw [callDirectly_eq]
  have hinvoked : w.Uncalled (w.invoke sender path o.interface.name member).1 := .of_tasks rfl
  exact (hinvoked.trans (uncalled_handle _ _ _ _ _)).trans (uncalled_spawn _ rfl)

/-- The request that the move `m`, made in the world `w`, polls finds the object registered under
the owner of its destination, its path and its interface, and asks for this. -/
def Finds (w : World) (m : Move) (object : Nat) (member : String) (body : Container) : Prop :=
  ∃ t r b me owner n, m = .poll t ∧ w.tasks.get? t = some (.request r .unsent) ∧
    r.link = .bus b me ∧ (w.bus b).resolve r.call.destination = some owner ∧
    (w.bus b).objects.get? ⟨owner, r.call.path, r.call.interface⟩ = some ⟨n, object⟩ ∧
    r.call.member = member ∧ r.call.body = body

/-- A task that calls a handler was there, or the move has made it for a request that has found the
object. -/
theorem handle_of_runTask {t : Nat} {x : Task} (ht : w.tasks.get? t = some x) {s : Nat}
    {object i : Nat} {member : String} {body : Container}
    (hs : ((w.taken t).runTask t x).tasks.get? s = some (.handle object i member body)) :
    w.tasks.get? s = some (.handle object i member body) ∨
      w.Finds (.poll t) object member body := by
  have hhands : (Task.handle object i member body).hands ≠ none := by simp [Task.hands]
  -- In all cases but one, nothing is called that was not called before.
  have hold : (w.taken t).Uncalled ((w.taken t).runTask t x) →
      w.tasks.get? s = some (.handle object i member body) ∨
        w.Finds (.poll t) object member body := fun hcalls => Or.inl (hcalls.task hs hhands)
  cases x with
  | deliver b c => exact hold (quiet_deliver _ b c).toCalm.uncalled
  | handle object i member body =>
    exact hold ((uncalled_endTask _ t).trans (uncalled_handle _ _ _ _ _))
  | request r p =>
    -- What comes after the look calls nothing.
    have hlook : ((w.taken t).look r p).1.tasks.get? s = some (.handle object i member body) := by
      simp only [runTask] at hs
      split at hs <;> rename_i heq <;> rw [heq]
      · have hsettled := (uncalled_endTask _ t).task hs hhands
        exact (calm_settleRequest _ _ _ _).uncalled.task hsettled hhands
      · rw [Table.get?_insert] at hs
        split at hs
        · cases hs
        · exact hs
    rcases look_cases (w.taken t) r p with hq | ⟨b, me, found, rfl, hlink, hr, heq⟩
    · exact Or.inl (hq.toCalm.uncalled.task hlook hhands)
    · rw [heq, handedTo_eq, Table.get?_insert] at hlook
      split at hlook
      · cases hlook
        obtain ⟨-, -, owner, hresolve, -, hobject⟩ := route_eq_object.mp hr
        obtain ⟨⟨n, _⟩, hregistered, rfl⟩ := Option.map_eq_some_iff.mp hobject
        exact Or.inr ⟨t, r, b, me, owner, n, rfl, ht, hlink, hresolve, hregistered, rfl, rfl⟩
      · exact Or.inl hlook
  | answer i a due =>
    refine hold ?_
    simp only [runTask]
    split
    · exact (uncalled_endTask _ t).trans (.of_tasks (tasks_conclude _ _ _))
    · exact .of_tasks rfl
  | fire token due =>
    refine hold ?_
    simp only [runTask]
    split
    · exact (uncalled_endTask _ t).trans (.of_tasks (tasks_fire _ _))
    · exact .of_tasks rfl
  | watch i =>
    refine hold ?_
    simp only [runTask]
    split
    · exact (uncalled_endTask _ t).trans (.of_tasks rfl)
    · exact .of_tasks rfl

theorem handle_of_act (hw : w.Orderly) {t object i : Nat} {member : String} {body : Container}
    (ht : (w.act m).tasks.get? t = some (.handle object i member body)) :
    w.tasks.get? t = some (.handle object i member body) ∨ w.Finds m object member body := by
  have hhands : (Task.handle object i member body).hands ≠ none := by simp [Task.hands]
  have he := effect_act hw m
  generalize w.act m = w' at he ht
  cases he with
  | calm _ hc => exact Or.inl (hc.uncalled.task ht hhands)
  | @spawn _ v x _ hc hx =>
    have hnone : x.hands = none := by rcases hx with ⟨r, rfl⟩ | ⟨token, due, rfl⟩ <;> rfl
    exact Or.inl ((hc.uncalled.trans (uncalled_spawn v hnone)).task ht hhands)
  | fire _ tokens =>
    rw [foldl_same tasks tasks_fire] at ht
    exact Or.inl ht
  | call _ _ _ _ _ => exact Or.inl ((uncalled_callDirectly _ _ _ _ _ _ _).task ht hhands)
  | answer ha =>
    unfold answerKept at ha
    split at ha
    · split at ha
      · cases ha
      · cases ha
        rw [tasks_conclude] at ht
        exact Or.inl ht
    · cases ha
  | poll hx =>
    exact handle_of_runTask hx ((quiet_closeUnheld _).toCalm.uncalled.task ht hhands)
  | stale _ => exact Or.inl ht
  | pass ms =>
    rw [moveTo, wake_eq] at ht
    exact Or.inl ht

/-- **Where the call of a handler comes from**, by induction on the moves. -/
theorem handle_origin (ms : List Move) {t object i : Nat} {member : String} {body : Container}
    (ht : (empty.run ms).tasks.get? t = some (.handle object i member body)) :
    ∃ before m after, ms = before ++ m :: after ∧
      (empty.run before).Finds m object member body := by
  induction ms using List.reverseRecOn with
  | nil => cases ht
  | append_singleton ms m ih =>
    rw [run_append, run_cons, run_nil] at ht
    rcases handle_of_act (orderly_run ms) ht with hold | hfinds
    · obtain ⟨before, n, after, rfl, hfinds⟩ := ih hold
      exact ⟨before, n, after ++ [m], by simp, hfinds⟩
    · exact ⟨ms, m, [], rfl, hfinds⟩

/-! ## 6. Who answers for properties -/

/-- The way of a call on the properties interface, when it is found. -/
theorem route_eq_properties {b : Nat} {me owner : String} {call : MethodCall}
    {cancel : Option Token} : w.route b me call cancel = .ok (.properties owner) ↔
      (w.bus b).isOpen me = true ∧ cancel.any w.hasFired = false ∧
        (w.bus b).resolve call.destination = some owner ∧
        call.interface = propertiesInterface := by
  unfold route Bus.checkOpen
  by_cases hopen : (w.bus b).isOpen me
  · by_cases hcancel : cancel.any w.hasFired
    · simp [hopen, hcancel, bind, Except.bind]
    · cases hres : (w.bus b).resolve call.destination with
      | none => simp [hopen, hcancel, bind, Except.bind]
      | some o =>
        by_cases hprops : call.interface = propertiesInterface
        · simp [hopen, hcancel, hprops, bind, Except.bind, pure, Except.pure]
        · cases hobj : (w.bus b).handler? ⟨o, call.path, call.interface⟩ with
          | none => simp [hopen, hcancel, hprops, hobj, bind, Except.bind]
          | some o => simp [hopen, hcancel, hprops, hobj, bind, Except.bind, pure, Except.pure]
  · simp [hopen, bind, Except.bind]

/-- The object `o`, of number `id`, answers a call on the properties interface. -/
def answeredBy (w : World) (id : Nat) (o : Object) (call : MethodCall) :
    World × Except TransportError Container :=
  let a := o.service.answerProperties o.interface w.cells call.member call.body.values
  ({ w with objects := w.objects.insert id { o with service := a.service }, cells := a.cells }.warn
    a.warnings, a.outcome)

/-- **Who answers for properties**: the object that is registered under the owner of the
destination, the path of the call and the interface that its first argument names.  Without one the
call fails and changes nothing. -/
theorem answerProperties_cases (w : World) (b : Nat) (owner : String) (call : MethodCall) :
    (∃ e, w.answerProperties b owner call = (w, .error e)) ∨
      ∃ i n id o, PropertyCall.interface call.body.values = .ok i ∧
        (w.bus b).objects.get? ⟨owner, call.path, i⟩ = some ⟨n, id⟩ ∧
        w.objects.get? id = some o ∧ w.answerProperties b owner call = w.answeredBy id o call := by
  unfold answerProperties
  split
  · exact Or.inl ⟨_, rfl⟩
  · rename_i i hi
    split
    · exact Or.inl ⟨_, rfl⟩
    · rename_i id o hfound
      obtain ⟨n, hid, hn⟩ := Option.bind_eq_some_iff.mp hfound
      obtain ⟨o', ho, hpair⟩ := Option.map_eq_some_iff.mp hn
      cases hpair
      obtain ⟨⟨k, _⟩, hregistered, rfl⟩ := Option.map_eq_some_iff.mp hid
      exact Or.inr ⟨i, k, _, o, hi, hregistered, ho, rfl⟩

/-! ## 7. The lifecycle of exports -/

/-- An object that is not bound is bound by its export only. -/
theorem unplaced_act (hw : w.Orderly) {id : Nat}
    (hm : ∀ link path, m ≠ .arrange (.exportObject id link path)) (h : w.place? id = none) :
    (w.act m).place? id = none := by
  have hother : ∀ {v v' : World} {n o}, v.place? id = none →
      v'.objects = v.objects.insert n o → (n = id → o.place = none) → v'.place? id = none := by
    intro v v' n o hv hobjects ho
    rw [place?_insert hobjects]
    split
    · rename_i hn
      exact ho hn
    · exact hv
  refine act_keeps hw (P := fun v => v.place? id = none) (fun {v v'} hc hv => ?_) h
  cases hc with
  | inert hi => rw [place?, hi.objects]; exact hv
  | bus b op hop hi => rw [place?, hi.objects]; exact hv
  | addBus _ => exact hv
  | addObject _ => exact hother hv rfl fun _ => rfl
  | @exported x n o link path registration heq ho _ hr =>
    have hobjects : x.objects = w.objects := by
      rw [← objects_register w link path o.interface.name n, hr]
    refine hother hv (congrArg (·.insert n
      { o with binding := some ⟨link, path, registration⟩ }) hobjects) ?_
    rintro rfl
    exact absurd heq (hm link path)
  | @unexported n o place _ _ _ =>
    have hobjects := objects_unregister w place.link place.registration
    exact hother hv (congrArg (·.insert n { o with binding := none }) hobjects) fun _ => rfl
  | @written v n o s cells hi ho _ =>
    refine hother hv rfl ?_
    rintro rfl
    rw [place?, hi.objects, ho] at hv
    exact hv
  | setCell _ => exact hv
  | addProxy _ _ => exact hv
  | learned _ _ => exact hv

theorem unplaced_run (ms : List Move) {w : World} (hw : w.Orderly) {id : Nat}
    (hms : ∀ link path, .arrange (.exportObject id link path) ∉ ms) (h : w.place? id = none) :
    (w.run ms).place? id = none := by
  induction ms generalizing w with
  | nil => exact h
  | cons m ms ih =>
    have hm : ∀ link path, m ≠ .arrange (.exportObject id link path) := fun link path heq =>
      hms link path (heq ▸ List.mem_cons_self)
    exact ih (orderly_act hw m) (fun link path hmem => hms link path (List.mem_cons_of_mem _ hmem))
      (unplaced_act hw hm h)

/-- What is registered under a place, and who is bound there, after the moves `ms`. -/
structure ExportLifecycle (ms : List Move) : Prop where
  /-- At most one object is registered under an owner, a path and an interface. -/
  single : ∀ b, ((empty.run ms).bus b).objects.Distinct
  /-- The object of a registration is bound to it, -/
  bound : ∀ b key r, ((empty.run ms).bus b).objects.get? key = some r →
    ∃ o, (empty.run ms).objects.get? r.handler = some o ∧ o.interface.name = key.interface ∧
      o.binding = some ⟨.bus b key.owner, key.path, r.id⟩
  /-- no other object is, -/
  alone : ∀ b key r id o me path, ((empty.run ms).bus b).objects.get? key = some r →
    (empty.run ms).objects.get? id = some o → o.binding = some ⟨.bus b me, path, r.id⟩ →
    id = r.handler
  /-- and an object has one registration at most, on all buses together. -/
  once : ∀ b b' key key' r r', ((empty.run ms).bus b).objects.get? key = some r →
    ((empty.run ms).bus b').objects.get? key' = some r' → r.handler = r'.handler →
    b = b' ∧ key = key' ∧ r = r'
  /-- An export succeeds if the object is not bound, the connection is open, the path is valid and
  the place is free. -/
  exports : ∀ id o b me path, ((empty.run ms).exportObject id o (.bus b me) path).2 = .ok () ↔
    o.binding = none ∧ ((empty.run ms).bus b).isOpen me = true ∧ ObjectPath.isValid path = true ∧
      ((empty.run ms).bus b).objects.get? ⟨me, path, o.interface.name⟩ = none
  /-- It adds one registration and the binding to it, -/
  exported : ∀ id o b me path, ((empty.run ms).exportObject id o (.bus b me) path).2 = .ok () →
    (empty.run ms).Exported id o b me path ((empty.run ms).exportObject id o (.bus b me) path).1
  /-- or else it changes nothing. -/
  refused : ∀ id o link path, ((empty.run ms).exportObject id o link path).2 ≠ .ok () →
    ((empty.run ms).exportObject id o link path).1 = empty.run ms
  /-- Taking a bound object back takes its binding and its own registration, and nothing else. -/
  unexported : ∀ id o place, (empty.run ms).objects.get? id = some o → o.binding = some place →
    ((empty.run ms).unexportObject id o).2 = .ok () ∧
      ((empty.run ms).unexportObject id o).1.objects
        = (empty.run ms).objects.insert id { o with binding := none } ∧
      ∀ b key r, (((empty.run ms).unexportObject id o).1.bus b).objects.get? key = some r ↔
        ((empty.run ms).bus b).objects.get? key = some r ∧ r.handler ≠ id
  /-- Taking one back that is not bound changes nothing. -/
  unbound : ∀ id o, o.binding = none →
    (empty.run ms).unexportObject id o = (empty.run ms, .error .notExported)
  /-- To give an object up is to take it back. -/
  dropped : ∀ id o, (empty.run ms).dropObject id o = ((empty.run ms).unexportObject id o).1
  /-- A task calls a handler of an object only because a request that was polled found the object
  registered under just what it names. -/
  called : ∀ t object i member body,
    (empty.run ms).tasks.get? t = some (.handle object i member body) →
    ∃ before m after, ms = before ++ m :: after ∧ (empty.run before).Finds m object member body
  /-- A request on the properties interface goes to the owner of its destination, -/
  routed : ∀ b me call cancel owner,
    (empty.run ms).route b me call cancel = .ok (.properties owner) →
    ((empty.run ms).bus b).resolve call.destination = some owner
  /-- and reaches an object only if it is registered there under the path and the interface that the
  request names. -/
  answered : ∀ b owner call,
    (∃ e, (empty.run ms).answerProperties b owner call = (empty.run ms, .error e)) ∨
      ∃ i n id o, PropertyCall.interface call.body.values = .ok i ∧
        ((empty.run ms).bus b).objects.get? ⟨owner, call.path, i⟩ = some ⟨n, id⟩ ∧
        (empty.run ms).objects.get? id = some o ∧
        (empty.run ms).answerProperties b owner call = (empty.run ms).answeredBy id o call
  /-- Once an object is not bound, and until it is exported again, it is registered nowhere, so that
  no request finds it. -/
  gone : ∀ before after id, ms = before ++ after → (empty.run before).place? id = none →
    (∀ link path, .arrange (.exportObject id link path) ∉ after) →
    ∀ b key, ((empty.run ms).bus b).handler? key ≠ some id

/-- **Bindings and registrations belong together**, whatever is exported, taken back and closed, on
any number of buses, and whatever is called meanwhile. -/
theorem export_lifecycle (ms : List Move) (hms : observe reopened empty ms = []) :
    ExportLifecycle ms := by
  have h := linked_run ms hms
  constructor
  · exact fun b => (h.owned b).objectsDistinct
  · exact fun b key r hr => place?_eq_some.mp (h.bound hr)
  · intro b key r id o me path hr ho hplace
    exact h.distinct (place?_eq_some.mpr ⟨o, ho, rfl, hplace⟩) (h.bound hr)
  · intro b b' key key' r r' hr hr' heq
    have hplace := h.bound hr
    rw [heq, h.bound hr'] at hplace
    obtain ⟨hinterface, hbinding⟩ := Prod.mk.inj (Option.some.inj hplace)
    obtain ⟨owner, path, i⟩ := key
    obtain ⟨owner', path', i'⟩ := key'
    simp only [Binding.mk.injEq, Link.bus.injEq] at hbinding hinterface
    obtain ⟨⟨rfl, rfl⟩, rfl, -⟩ := hbinding
    subst hinterface
    exact ⟨rfl, rfl, Option.some.inj (hr.symm.trans hr')⟩
  · exact fun id o b me path => exportObject_iff
  · exact fun id o b me path hok => exported_of_ok hok
  · exact fun id o link path herror => exportObject_refused herror
  · intro id o place ho hplace
    refine ⟨?_, objects_unexportObject hplace, fun b key r => h.unexport_iff ho hplace⟩
    simp only [unexportObject, hplace]
  · intro id o hfree
    simp only [unexportObject, hfree]
  · exact fun id o => rfl
  · exact fun t object i member body ht => handle_origin ms ht
  · exact fun b me call cancel owner hroute => (route_eq_properties.mp hroute).2.2.1
  · exact fun b owner call => answerProperties_cases _ b owner call
  · rintro before after id rfl hfree hafter b key hkey
    have hunplaced : (empty.run (before ++ after)).place? id = none := by
      rw [run_append]
      exact unplaced_run after (orderly_run before) hafter hfree
    obtain ⟨r, hr, rfl⟩ := Option.map_eq_some_iff.mp hkey
    rw [h.bound hr] at hunplaced
    cases hunplaced

/-- Two objects want the same place, and the connection of the one that has got it closes; the other
is exported elsewhere then, and the first one is taken back. -/
def exportMoves : List Move :=
  [.arrange (.addBus 25000), .arrange (.connect 0), .arrange (.connect 0),
    .arrange (.addObject bareInterface .empty), .arrange (.addObject bareInterface .empty),
    .arrange (.exportObject 0 (.bus 0 ":1.1") "/ping"),
    .arrange (.exportObject 1 (.bus 0 ":1.1") "/ping"), .arrange (.close 0 ":1.1"),
    .arrange (.exportObject 1 (.bus 0 ":1.2") "/ping"), .arrange (.unexportObject 0)]

/-- The second object is still registered, and the first is bound no more. -/
theorem export_lifecycle_closing :
    observe reopened empty exportMoves = [] ∧ ExportLifecycle exportMoves ∧
      ((empty.run exportMoves).bus 0).objects.entries.map (fun e => (e.1, e.2.handler))
        = [(⟨":1.2", "/ping", "org.example.Ping"⟩, 1)] ∧
      (empty.run exportMoves).place? 0 = none :=
  ⟨by rfl, export_lifecycle exportMoves (by rfl), by rfl, by rfl⟩

end World

end MessageBus
