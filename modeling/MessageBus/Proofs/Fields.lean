/-
# Writing the properties of a service

A property that is written goes to one place: into the cell of its setter if it has one, and else
into the field of its name (`Service.place`).  What is written there is the value as it is packed
against the property's tag; nothing is written before it has been packed.  So an assignment either
fills its place, or leaves the whole world as it is (`World.setDirectly_cases`).

What a run of assignments leaves in a place is therefore what the last admitted one among those that
go there has put into it, and what was there before if there is none
(`World.valueIn_assigned_last`, `World.valueIn_assigned_of_spared`).  The inductions are on the
list, and they need that an assignment changes neither the interface nor the accessors, which decide
what is admitted and where it goes (`World.object_move`).

A property that is read is packed again, from what its field holds.  That this gives what was
written rests on packing being idempotent (`Variant.make_again`), and needs nothing to be known of
the field before it was written: `World.assignments` is the main theorem.
-/
import MessageBus.Proofs.Caches

namespace MessageBus

/-! ## 1. Places -/

/-- Where the value of a property goes: into the field of its name, or into a cell. -/
inductive Place where
  | field (name : String)
  | cell (name : String)
  deriving DecidableEq

namespace Service

/-- The place that is written for a property: the cell of its setter if it has one, and else its
field. -/
def place (s : Service) (name : String) : Place :=
  match s.setters.get? name with
  | some cell => .cell cell
  | none => .field name

/-- What is in a place. -/
def valueIn (s : Service) (cells : Cells) : Place → Option Value
  | .field name => s.fields.get? name
  | .cell name => cells.get? name

/-- The service with other values in its fields. -/
def withFields (s : Service) (fields : Table String Value) : Service := { s with fields }

/-- Another property does not go into a property's own field. -/
theorem place_ne_field {s : Service} {m n : String} (h : n ≠ m) : s.place n ≠ .field m := by
  unfold place
  cases s.setters.get? n with
  | some cell => simp
  | none => simpa using h

/-- A property without a setter goes into its own field. -/
theorem place_of_no_setter {s : Service} {name : String} (h : s.setters.get? name = none) :
    s.place name = .field name := by
  rw [place, h]

/-- **Giving a property a value** fills its place and changes nothing else. -/
theorem set_eq (s : Service) (cells : Cells) (name : String) (v : Value) :
    ∃ fields cells', s.set cells name v = (s.withFields fields, cells') ∧
      ∀ p, (s.withFields fields).valueIn cells' p =
        if p = s.place name then some v else s.valueIn cells p := by
  unfold set place
  cases s.setters.get? name with
  | some cell =>
    refine ⟨s.fields, cells.insert cell v, rfl, fun p => ?_⟩
    cases p with
    | field n => simp [valueIn, withFields]
    | cell c => simp [valueIn, Table.get?_insert, eq_comm]
  | none =>
    refine ⟨s.fields.insert name v, cells, rfl, fun p => ?_⟩
    cases p with
    | field n => simp [valueIn, withFields, Table.get?_insert, eq_comm]
    | cell c => simp [valueIn]

end Service

/-! ## 2. One assignment -/

/-- A value that a property is to be given. -/
structure Assignment where
  name : String
  value : Value

/-- The property is declared and writable, and the value packs against its tag, as `x`. -/
def Interface.Admits (i : Interface) (a : Assignment) (x : Value) : Prop :=
  ∃ q, i.property? a.name = some q ∧ q.access.writable = true ∧ Value.fit q.tag a.value = .ok x

/-- There is one form in which the value is admitted. -/
theorem Interface.Admits.unique {i : Interface} {a : Assignment} {x y : Value} (hx : i.Admits a x)
    (hy : i.Admits a y) : x = y := by
  obtain ⟨q, hq, -, hx⟩ := hx
  obtain ⟨r, hr, -, hy⟩ := hy
  cases hq.symm.trans hr
  exact Except.ok.inj (hx.symm.trans hy)

namespace Service

variable {s : Service} {i : Interface} {cells : Cells} {a : Assignment}

/-- A property is written if the assignment is admitted, and then its place is. -/
theorem propertySet_eq_ok {after : Service × Cells} :
    s.propertySet i cells a.name a.value = .ok after ↔
      ∃ x, i.Admits a x ∧ s.set cells a.name x = after := by
  unfold propertySet property Interface.Admits
  cases hq : i.property? a.name with
  | none => simp
  | some q =>
    cases hw : q.access.writable with
    | false => simp [hw]
    | true =>
      cases hx : Value.fit q.tag a.value with
      | error e => simp [hw, hx, Variant.make, bind, Except.bind]
      | ok x => simp [hw, hx, Variant.make, bind, Except.bind, pure, Except.pure]

/-- A readable property without accessors is told as its field holds it, under its tag. -/
theorem propertyGet_field {name : String} {q : Property} {x : Variant}
    (hq : i.property? name = some q) (hr : q.access.readable = true)
    (hg : s.getters.get? name = none) (hx : Variant.make q.tag x.value = .ok x)
    (hvalue : s.valueIn cells (.field name) = some x.value) :
    s.propertyGet i cells name = .quiet (.ok (some x)) := by
  have hget : s.get cells q.name = some x.value := by
    rw [Interface.property?_name hq, get, hg]
    exact hvalue
  have hread : s.read cells q = .ok (some x) := by
    rw [read, hget]
    simp only [hx]
    rfl
  simp only [propertyGet, property, hq, hr, readReply, hread, if_true]

end Service

/-! ## 3. One assignment in a world -/

/-- The object with other values in the fields of its service. -/
def Object.withFields (o : Object) (fields : Table String Value) : Object :=
  { o with service := o.service.withFields fields }

/-- The move that makes the assignment at an object. -/
def Assignment.move (id : Nat) (a : Assignment) : Move := .arrange (.propertySet id a.name a.value)

namespace World

/-- What is in a place of an object's service. -/
def valueIn (w : World) (id : Nat) (p : Place) : Option Value :=
  (w.objects.get? id).bind fun o => o.service.valueIn w.cells p

variable {w : World} {id : Nat} {o : Object} {a : Assignment} {x : Value}

theorem valueIn_eq (ho : w.objects.get? id = some o) (p : Place) :
    w.valueIn id p = o.service.valueIn w.cells p := by
  rw [valueIn, ho]
  rfl

theorem act_move (ho : w.objects.get? id = some o) :
    w.act (a.move id) = (Session.setDirectly w id o a.name a.value).1 := by
  simp only [Assignment.move, act, arrange, withObject, ho, Option.elim]

/-- An assignment is admitted, and fills one place, or leaves the world as it is. -/
theorem setDirectly_cases (w : World) (id : Nat) (o : Object) (a : Assignment) :
    (∃ x fields cells, o.interface.Admits a x ∧
      o.service.propertySet o.interface w.cells a.name a.value
        = .ok (o.service.withFields fields, cells) ∧
      Session.setDirectly w id o a.name a.value
        = ({ w.setObject id (o.withFields fields) with cells }, .done) ∧
      ∀ p, (o.withFields fields).service.valueIn cells p =
        if p = o.service.place a.name then some x else o.service.valueIn w.cells p) ∨
    ∃ e, (∀ x, ¬ o.interface.Admits a x) ∧
      o.service.propertySet o.interface w.cells a.name a.value = .error e ∧
      Session.setDirectly w id o a.name a.value = (w, .wireError e) := by
  cases hset : o.service.propertySet o.interface w.cells a.name a.value with
  | ok after =>
    obtain ⟨x, hx, rfl⟩ := Service.propertySet_eq_ok.1 hset
    obtain ⟨fields, cells, hplaced, hvalue⟩ := o.service.set_eq w.cells a.name x
    refine .inl ⟨x, fields, cells, hx, by rw [hplaced], ?_, hvalue⟩
    rw [Session.setDirectly, hset, hplaced]
    rfl
  | error e =>
    refine .inr ⟨e, fun x hx => ?_, rfl, by rw [Session.setDirectly, hset]⟩
    cases hset.symm.trans (Service.propertySet_eq_ok.2 ⟨x, hx, rfl⟩)

/-- An assignment is done just if it is admitted. -/
theorem setDirectly_done_iff (w : World) (id : Nat) (o : Object) (a : Assignment) :
    (Session.setDirectly w id o a.name a.value).2 = .done ↔ ∃ x, o.interface.Admits a x := by
  rcases setDirectly_cases w id o a with ⟨x, fields, cells, hx, -, hset, -⟩ | ⟨e, hno, -, hset⟩
  · simp only [hset, true_iff]
    exact ⟨x, hx⟩
  · simp [hset, hno]

/-- Whether it is admitted or not, only fields of the object and cells may change. -/
theorem act_move_frame (ho : w.objects.get? id = some o) (a : Assignment) :
    ∃ fields cells, w.act (a.move id) = { w.setObject id (o.withFields fields) with cells } := by
  rw [act_move ho]
  rcases setDirectly_cases w id o a with ⟨x, fields, cells, -, -, hset, -⟩ | ⟨e, -, -, hset⟩
  · exact ⟨fields, cells, by rw [hset]⟩
  · refine ⟨o.service.fields, w.cells, ?_⟩
    have hsame : w.objects.insert id (o.withFields o.service.fields) = w.objects :=
      Table.insert_self ho
    rw [hset, setObject, hsame]

/-- What an assignment leaves of the object is the object with other fields. -/
theorem object_move (ho : w.objects.get? id = some o) (a : Assignment) :
    ∃ fields, (w.act (a.move id)).objects.get? id = some (o.withFields fields) := by
  obtain ⟨fields, cells, hact⟩ := act_move_frame ho a
  exact ⟨fields, by rw [hact]; exact Table.get?_insert_self _ _ _⟩

/-- An assignment that is not admitted changes nothing. -/
theorem act_move_of_not_admits (ho : w.objects.get? id = some o)
    (h : ∀ x, ¬ o.interface.Admits a x) : w.act (a.move id) = w := by
  rw [act_move ho]
  rcases setDirectly_cases w id o a with ⟨x, fields, cells, hx, -⟩ | ⟨e, -, -, hset⟩
  · exact absurd hx (h x)
  · rw [hset]

/-- An assignment that is admitted fills the property's place, and no other. -/
theorem valueIn_move (ho : w.objects.get? id = some o) (hx : o.interface.Admits a x) (p : Place) :
    (w.act (a.move id)).valueIn id p =
      if p = o.service.place a.name then some x else w.valueIn id p := by
  rcases setDirectly_cases w id o a with ⟨y, fields, cells, hy, -, hset, hvalue⟩ | ⟨e, hno, -⟩
  · cases hy.unique hx
    have hobject : ({ w.setObject id (o.withFields fields) with cells } : World).objects.get? id =
        some (o.withFields fields) := Table.get?_insert_self _ _ _
    rw [act_move ho, hset, valueIn_eq hobject, valueIn_eq ho]
    exact hvalue p
  · exact absurd hx (hno x)

theorem warn_nil (w : World) : w.warn [] = w := by rw [warn, List.append_nil]

/-- A request for the properties of an object that is found is answered by its service. -/
theorem answerProperties_of_handler {b : Nat} {owner i : String} {call : MethodCall}
    {rest : List Value} {r : PropertyAnswer} (ho : w.objects.get? id = some o)
    (hhandler : (w.bus b).handler? ⟨owner, call.path, i⟩ = some id)
    (hbody : call.body.values = .string i :: rest)
    (hr : o.service.answerProperties o.interface w.cells call.member (.string i :: rest) = r) :
    w.answerProperties b owner call =
      ({ w with
          objects := w.objects.insert id { o with service := r.service }
          cells := r.cells }.warn r.warnings, r.outcome) := by
  rw [answerProperties, hbody]
  simp only [PropertyCall.interface, hhandler, Option.bind, ho, Option.map, hr]

/-- A request for an assignment leaves the world that the assignment leaves, and is answered as the
assignment goes. -/
theorem answerProperties_move {b : Nat} {owner i : String} {call : MethodCall} {t : Tag}
    (ho : w.objects.get? id = some o) (hmember : call.member = "Set")
    (hbody : call.body.values = [.string i, .string a.name, .variant t a.value])
    (hhandler : (w.bus b).handler? ⟨owner, call.path, i⟩ = some id) :
    ∃ outcome, w.answerProperties b owner call = (w.act (a.move id), outcome) ∧
      (outcome = .ok .empty ↔ ∃ x, o.interface.Admits a x) := by
  rw [act_move ho]
  rcases setDirectly_cases w id o a with
    ⟨x, fields, cells, hx, hok, hset, -⟩ | ⟨e, hno, herror, hset⟩
  · have hr : o.service.answerProperties o.interface w.cells call.member
        [.string i, .string a.name, .variant t a.value]
        = ⟨.ok .empty, [], o.service.withFields fields, cells⟩ := by
      rw [hmember, Service.answerProperties, hok]
    refine ⟨.ok .empty, ?_, fun _ => ⟨x, hx⟩, fun _ => rfl⟩
    rw [answerProperties_of_handler ho hhandler hbody hr, hset, warn_nil]
    rfl
  · have hr : o.service.answerProperties o.interface w.cells call.member
        [.string i, .string a.name, .variant t a.value]
        = ⟨.error (.remote e), [], o.service, w.cells⟩ := by
      rw [hmember, Service.answerProperties, herror]
    refine ⟨.error (.remote e), ?_, fun h => (nomatch h), fun ⟨x, hx⟩ => absurd hx (hno x)⟩
    have hsame : w.objects.insert id o = w.objects := Table.insert_self ho
    rw [answerProperties_of_handler ho hhandler hbody hr, hset, warn_nil, hsame]

/-- How an assignment at the object `o`, which has the number `id`, goes. -/
structure Atomic (w : World) (id : Nat) (o : Object) (a : Assignment) : Prop where
  /-- It is done if the property is declared and writable and the value packs, and only then. -/
  done : (Session.setDirectly w id o a.name a.value).2 = .done ↔ ∃ x, o.interface.Admits a x
  /-- If it is not, it is an error, and the world is what it was. -/
  refused (h : ∀ x, ¬ o.interface.Admits a x) :
    ∃ e, Session.setDirectly w id o a.name a.value = (w, .wireError e)
  /-- If it is done, the property's place has the packed value, and any other place what it had. -/
  placed (x : Value) (h : o.interface.Admits a x) (p : Place) :
    (w.act (a.move id)).valueIn id p =
      if p = o.service.place a.name then some x else w.valueIn id p
  /-- In any case, fields of this object and cells are all that may have changed. -/
  framed : ∃ fields cells, w.act (a.move id) = { w.setObject id (o.withFields fields) with cells }
  /-- A request for it that reaches the object over a connection leaves the same world, and is
  answered as the assignment goes. -/
  requested (b : Nat) (owner : String) (call : MethodCall) (i : String) (t : Tag)
    (hmember : call.member = "Set")
    (hbody : call.body.values = [.string i, .string a.name, .variant t a.value])
    (hhandler : (w.bus b).handler? ⟨owner, call.path, i⟩ = some id) :
    ∃ outcome, w.answerProperties b owner call = (w.act (a.move id), outcome) ∧
      (outcome = .ok .empty ↔ ∃ x, o.interface.Admits a x)

/-- **An assignment is atomic**, at every object of every world. -/
theorem atomic (ho : w.objects.get? id = some o) (a : Assignment) : Atomic w id o a where
  done := setDirectly_done_iff w id o a
  refused h := by
    rcases setDirectly_cases w id o a with ⟨x, fields, cells, hx, -⟩ | ⟨e, -, -, hset⟩
    · exact absurd hx (h x)
    · exact ⟨e, hset⟩
  placed x hx p := valueIn_move ho hx p
  framed := act_move_frame ho a
  requested b owner call i t hmember hbody hhandler :=
    answerProperties_move ho hmember hbody hhandler

/-! ## 4. One assignment after the other -/

/-- The world after assignments at an object. -/
def assigned (w : World) (id : Nat) (as : List Assignment) : World := w.run (as.map (·.move id))

theorem assigned_cons {as : List Assignment} :
    w.assigned id (a :: as) = (w.act (a.move id)).assigned id as := rfl

theorem assigned_append {as bs : List Assignment} :
    w.assigned id (as ++ bs) = (w.assigned id as).assigned id bs := by
  rw [assigned, List.map_append, run_append]
  rfl

/-- What assignments leave of the object is the object with other fields. -/
theorem object_assigned (ho : w.objects.get? id = some o) (as : List Assignment) :
    ∃ fields, (w.assigned id as).objects.get? id = some (o.withFields fields) := by
  induction as generalizing w o with
  | nil => exact ⟨o.service.fields, ho⟩
  | cons a as ih =>
    obtain ⟨fields, ha⟩ := object_move ho a
    obtain ⟨gs, has⟩ := ih ha
    exact ⟨gs, has⟩

end World

/-- No assignment of the list that is admitted goes to the place. -/
def Object.Spares (o : Object) (as : List Assignment) (p : Place) : Prop :=
  ∀ a ∈ as, ∀ x, o.interface.Admits a x → o.service.place a.name ≠ p

namespace World

variable {w : World} {id : Nat} {o : Object} {a : Assignment} {x : Value} {p : Place}
  {as before after : List Assignment}

/-- A place that is spared has what it had. -/
theorem valueIn_assigned_of_spared (ho : w.objects.get? id = some o) (h : o.Spares as p) :
    (w.assigned id as).valueIn id p = w.valueIn id p := by
  induction as generalizing w o with
  | nil => rfl
  | cons a as ih =>
    -- The object after the first assignment has the same interface and the same places.
    obtain ⟨ha, has⟩ := List.forall_mem_cons.1 h
    obtain ⟨fields, hobject⟩ := object_move ho a
    rw [assigned_cons, ih hobject has]
    by_cases hx : ∃ x, o.interface.Admits a x
    · obtain ⟨x, hx⟩ := hx
      rw [valueIn_move ho hx, if_neg (Ne.symm (ha x hx))]
    · rw [act_move_of_not_admits ho (not_exists.1 hx)]

/-- **The last assignment to a place decides** what is in it. -/
theorem valueIn_assigned_last (ho : w.objects.get? id = some o) (hx : o.interface.Admits a x)
    (hafter : o.Spares after (o.service.place a.name)) :
    (w.assigned id (before ++ a :: after)).valueIn id (o.service.place a.name) = some x := by
  obtain ⟨fields, hbefore⟩ := object_assigned ho before
  obtain ⟨gs, ha⟩ := object_move hbefore a
  rw [assigned_append, assigned_cons, valueIn_assigned_of_spared ha hafter, valueIn_move hbefore hx]
  exact if_pos rfl

/-- What assignments at the object `o`, which has the number `id`, come to. -/
structure Assigns (w : World) (id : Nat) (o : Object) (as : List Assignment) : Prop where
  /-- Each of them meets the object as it was, but for the values of its fields, and is atomic. -/
  each (before : List Assignment) (a : Assignment) (after : List Assignment)
    (h : as = before ++ a :: after) :
    ∃ fields, (w.assigned id before).objects.get? id = some (o.withFields fields) ∧
      Atomic (w.assigned id before) id (o.withFields fields) a
  /-- The last of those that are admitted to a place decides what is in it. -/
  last (before : List Assignment) (a : Assignment) (after : List Assignment) (x : Value)
    (h : as = before ++ a :: after) (hx : o.interface.Admits a x)
    (hafter : o.Spares after (o.service.place a.name)) :
    (w.assigned id as).valueIn id (o.service.place a.name) = some x
  /-- If none is, there is in it what was there before. -/
  spared (p : Place) (h : o.Spares as p) : (w.assigned id as).valueIn id p = w.valueIn id p
  /-- A readable property without accessors is told as it was last written, whatever its field held
  before. -/
  told (before : List Assignment) (a : Assignment) (after : List Assignment) (x : Value)
    (q : Property) (h : as = before ++ a :: after) (hx : o.interface.Admits a x)
    (hq : o.interface.property? a.name = some q) (hr : q.access.readable = true)
    (hgetter : o.service.getters.get? a.name = none)
    (hsetter : o.service.setters.get? a.name = none)
    (hafter : ∀ b ∈ after, ∀ y, o.interface.Admits b y → b.name ≠ a.name) :
    Variant.make q.tag a.value = .ok ⟨q.tag, x⟩ ∧
      ∃ o', (w.assigned id as).objects.get? id = some o' ∧
        o'.service.propertyGet o'.interface (w.assigned id as).cells a.name
          = .quiet (.ok (some ⟨q.tag, x⟩))

/-- **Assignments are atomic, typed, and read back**, at every object of every world, in any number
and order. -/
theorem assignments (ho : w.objects.get? id = some o) (as : List Assignment) :
    Assigns w id o as where
  each before a after _ := by
    obtain ⟨fields, hbefore⟩ := object_assigned ho before
    exact ⟨fields, hbefore, atomic hbefore a⟩
  last before a after x h hx hafter := by
    rw [h]
    exact valueIn_assigned_last ho hx hafter
  spared p h := valueIn_assigned_of_spared ho h
  told before a after x q h hx hq hr hgetter hsetter hafter := by
    have hmake : Variant.make q.tag a.value = .ok ⟨q.tag, x⟩ := by
      obtain ⟨r, hr, -, hfit⟩ := hx
      cases hq.symm.trans hr
      exact Variant.make_eq_ok.2 ⟨rfl, hfit⟩
    have hplace := Service.place_of_no_setter hsetter
    -- A setter's cell is no field, so another name is enough to stay away from this one.
    have hspares : o.Spares after (o.service.place a.name) := by
      intro b hb y hy
      rw [hplace]
      exact Service.place_ne_field (hafter b hb y hy)
    obtain ⟨fields, ho'⟩ := object_assigned ho as
    have hvalue : (w.assigned id as).valueIn id (o.service.place a.name) = some x := by
      rw [h]
      exact valueIn_assigned_last ho hx hspares
    rw [hplace, valueIn_eq ho'] at hvalue
    exact ⟨hmake, _, ho', Service.propertyGet_field hq hr hgetter (Variant.make_again hmake) hvalue⟩

/-! ## 5. A gauge with a broken level -/

/-- A gauge whose level does not fit its tag, and whose note goes through a setter. -/
def brokenGauge : Move :=
  .arrange (.addObject gauge (.ofParts [.field "Level" (.string "?"), .setter "Note" "note"]))

/-- Two assignments that are admitted, and two that are not: text is no level, and a gauge has no
limit. -/
def repairs : List Assignment :=
  [⟨"Level", .int .int64 ⟨7, by decide⟩⟩, ⟨"Level", .string "?"⟩, ⟨"Limit", .bool true⟩,
    ⟨"Note", .string "full"⟩]

/-- The level can be read once it has been written, though its field held text before, and the note
is in its cell. -/
theorem assignments_gauge :
    ∃ o, (empty.act brokenGauge).objects.get? 0 = some o ∧
      (o.service.propertyGet gauge .empty "Level").result = .error .valueError ∧
      ((empty.act brokenGauge).assigned 0 repairs).valueIn 0 (.cell "note")
        = some (.variant .string (.string "full")) ∧
      ∃ o', ((empty.act brokenGauge).assigned 0 repairs).objects.get? 0 = some o' ∧
        o'.service.propertyGet o'.interface
            ((empty.act brokenGauge).assigned 0 repairs).cells "Level"
          = .quiet (.ok (some ⟨.int .int32, level ⟨7, by decide⟩⟩)) := by
  have hgauge : Assigns (empty.act brokenGauge) 0 _ repairs := assignments rfl repairs
  have hnote : gauge.Admits ⟨"Note", .string "full"⟩ (.variant .string (.string "full")) :=
    ⟨_, rfl, rfl, rfl⟩
  have hlevel : gauge.Admits ⟨"Level", .int .int64 ⟨7, by decide⟩⟩ (level ⟨7, by decide⟩) :=
    ⟨_, rfl, rfl, rfl⟩
  have hafter : ∀ b ∈ repairs.tail, ∀ y, gauge.Admits b y → b.name ≠ "Level" := by
    intro b hb y hy
    simp only [repairs, List.tail_cons, List.mem_cons, List.not_mem_nil, or_false] at hb
    rcases hb with rfl | rfl | rfl
    · obtain ⟨q, hq, -, hfit⟩ := hy
      cases (rfl : gauge.property? "Level" = some ⟨"Level", .int .int32, .readWrite⟩).symm.trans hq
      cases hfit
    · decide
    · decide
  obtain ⟨-, o', ho', htold⟩ := hgauge.told [] _ _ _ _ rfl hlevel rfl rfl rfl rfl hafter
  exact ⟨_, rfl, rfl, hgauge.last [_, _, _] _ [] _ rfl hnote (by rintro b ⟨⟩), o', ho', htold⟩

end World

end MessageBus
