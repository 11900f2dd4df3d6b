/-
# A member that is called by its name

`World.invoke_by_name` is the main theorem.  Invoking a member of a proxy does what the operation
does that the name stands for: the world it leaves is the same, with all that the world has of
caches, pending calls and messages on their way, and so is the result.

A name is resolved through the table of members, which holds places in the lists of methods and of
properties, and the operations look their names up in these lists again.  The two ways meet because
no name comes twice: neither in the table (`Interface.member?_iff`), so that what is found is what
has the name, nor in the lists (`Interface.method?_of_build`).  Nothing is assumed of the names
themselves, and a method may be called `xSync` beside a method `x`.

Reading a result through a member has its own answer for a name that is not the right one, which no
result that is read gives (`AsyncResult.finish_ne_unknownMember`); so whether a result was read can
be told from the answer.
-/
import MessageBus.Proofs.Building
import MessageBus.Proofs.Moves

namespace MessageBus

/-! ## 1. Members of an interface -/

namespace Interface

variable {name : String} {ds : List Declaration} {i : Interface}

/-- Each method of a built interface is found in either mode and to be finished, -/
theorem member?_method (h : build name ds = .ok i) {m : Method} (hm : m ∈ i.methods) :
    ∃ k, i.methods[k]? = some m ∧ i.member? (m.name ++ "Sync") = some (.call k .sync) ∧
      i.member? (m.name ++ "Remote") = some (.call k .async) ∧
      i.member? (m.name ++ "Finish") = some (.finish k) := by
  obtain ⟨k, hk⟩ := List.mem_iff_getElem?.1 hm
  exact ⟨k, hk, (member?_iff h).2 ⟨m, hk, rfl⟩, (member?_iff h).2 ⟨m, hk, rfl⟩,
    (member?_iff h).2 ⟨m, hk, rfl⟩⟩

/-- and each property under its own name. -/
theorem member?_property (h : build name ds = .ok i) {q : Property} (hq : q ∈ i.properties) :
    ∃ k, i.properties[k]? = some q ∧ i.member? q.name = some (.property k) := by
  obtain ⟨k, hk⟩ := List.mem_iff_getElem?.1 hq
  exact ⟨k, hk, (member?_iff h).2 ⟨q, hk, rfl⟩⟩

/-- The name is that of a method in one of the two modes, or of a property. -/
def Invokes (i : Interface) (s : String) : Prop :=
  (∃ m ∈ i.methods, s = m.name ++ "Sync" ∨ s = m.name ++ "Remote") ∨ ∃ q ∈ i.properties, s = q.name

/-- A name under which nothing can be invoked is not in the table, or is that of a finish member. -/
theorem not_invokes_iff (h : build name ds = .ok i) {s : String} :
    ¬ i.Invokes s ↔ i.member? s = none ∨ ∃ k, i.member? s = some (.finish k) := by
  constructor
  · intro hs
    cases hmember : i.member? s with
    | none => exact .inl rfl
    | some x =>
      have hnames := (member?_iff h).1 hmember
      cases x with
      | finish k => exact .inr ⟨k, rfl⟩
      | property k =>
        obtain ⟨q, hq, rfl⟩ := hnames
        exact absurd (.inr ⟨q, List.mem_of_getElem? hq, rfl⟩) hs
      | call k mode =>
        cases mode with
        | sync =>
          obtain ⟨m, hm, rfl⟩ := hnames
          exact absurd (.inl ⟨m, List.mem_of_getElem? hm, .inl rfl⟩) hs
        | async =>
          obtain ⟨m, hm, rfl⟩ := hnames
          exact absurd (.inl ⟨m, List.mem_of_getElem? hm, .inr rfl⟩) hs
  · rintro hmember (⟨m, hm, rfl | rfl⟩ | ⟨q, hq, rfl⟩)
    · obtain ⟨k, -, hsync, -⟩ := member?_method h hm
      simp [hsync] at hmember
    · obtain ⟨k, -, -, hremote, -⟩ := member?_method h hm
      simp [hremote] at hmember
    · obtain ⟨k, -, hproperty⟩ := member?_property h hq
      simp [hproperty] at hmember

end Interface

/-! ## 2. Invoking a member -/

namespace World

/-- What comes of an operation, as what comes of a member. -/
def asMember {α : Type} (f : α → Invoked) (r : World × Waited α) : World × Waited Invoked :=
  (r.1, r.2.map (·.map f))

/-- What comes of an operation that does not wait. -/
def atOnce {α : Type} (r : World × Except CallError α) : World × Waited α := (r.1, some r.2)

variable {name : String} {ds : List Declaration} {p : Proxy}

theorem callSync_of_mem (w : World) (h : Interface.build name ds = .ok p.interface) {m : Method}
    (hm : m ∈ p.interface.methods) (args : List Argument) :
    w.callSync p m.name args = w.callMethodSync p m args := by
  rw [callSync, Proxy.method, Interface.method?_of_build h hm]

theorem callRemote_of_mem (w : World) (id : Nat) (h : Interface.build name ds = .ok p.interface)
    {m : Method} (hm : m ∈ p.interface.methods) (args : List Argument) :
    w.callRemote id p m.name args = w.callMethodAsync id p m args := by
  rw [callRemote, Proxy.method, Interface.method?_of_build h hm]

/-- Nothing is invoked under a name that stands for nothing. -/
theorem invokeMember_of_not_invokes (w : World) (id : Nat)
    (h : Interface.build name ds = .ok p.interface) {s : String} (hs : ¬ p.interface.Invokes s)
    (args : List Argument) :
    w.invokeMember id p s args = (w, some (.error (.unknownMember s))) := by
  rcases (Interface.not_invokes_iff h).1 hs with hmember | ⟨k, hmember⟩ <;>
    rw [invokeMember, hmember]

/-- Invoking a property is reading it, writing it, or a refusal, by the arguments. -/
theorem invokeMember_property (w : World) (id : Nat)
    (h : Interface.build name ds = .ok p.interface) {q : Property} (hq : q ∈ p.interface.properties)
    (args : List Argument) :
    w.invokeMember id p q.name args = match args with
      | [] => asMember (fun v => .done v.toList) (w.getProperty id p q.name)
      | [.value v] => asMember (fun _ => .done []) (atOnce (w.setProperty id p q.name v))
      | [a] => (w, some (.error (.argumentType q.name 0 a.describe)))
      | args => (w, some (.error (.argumentCount q.name 1 args.length))) := by
  obtain ⟨k, hk, hmember⟩ := Interface.member?_property h hq
  rw [invokeMember, hmember]
  simp only [hk]
  rfl

end World

/-! ## 3. Reading a result through a member -/

/-- Reading a result does not fail over a name. -/
theorem AsyncResult.finish_ne_unknownMember (r : AsyncResult) (s : String) :
    r.finish ≠ .error (.unknownMember s) := by
  intro h
  rcases bind_eq_error.1 h with h | ⟨c, -, h⟩
  · obtain ⟨e, -, h⟩ := mapError_eq_error.1 h
    cases h
  · obtain ⟨e, -, h⟩ := mapError_eq_error.1 h
    cases h

/-- The name is that of the finish member of the method that the result is from, and the method is
declared. -/
def Interface.Finishes (i : Interface) (s : String) (r : AsyncResult) : Prop :=
  s = r.method.name ++ "Finish" ∧ ∃ m ∈ i.methods, m.name = r.method.name

namespace Proxy

variable {name : String} {ds : List Declaration} {p : Proxy} {s : String} {r : AsyncResult}

theorem finish_of_finishes (h : Interface.build name ds = .ok p.interface)
    (hs : p.interface.Finishes s r) : p.finish s r = r.finish := by
  obtain ⟨rfl, m, hm, hname⟩ := hs
  obtain ⟨k, hk, -, -, hmember⟩ := Interface.member?_method h hm
  rw [hname] at hmember
  rw [finish, hmember]
  simp only [hk, Option.map_some, hname, if_true]

theorem finish_of_not_finishes (h : Interface.build name ds = .ok p.interface)
    (hs : ¬ p.interface.Finishes s r) : p.finish s r = .error (.unknownMember s) := by
  unfold finish
  split
  · rename_i k hmember
    refine if_neg fun hname => hs ?_
    obtain ⟨m, hm, rfl⟩ := (Interface.member?_iff h).1 hmember
    rw [hm, Option.map_some, Option.some.injEq] at hname
    exact ⟨congrArg (· ++ "Finish") hname, m, List.mem_of_getElem? hm, hname⟩
  · rfl

end Proxy

/-! ## 4. All members -/

namespace World

/-- In the world `w`, members of the proxy `p` are what their names say. -/
structure ByName (w : World) (id : Nat) (p : Proxy) : Prop where
  /-- `Sync` after a method's name calls the method and waits, -/
  sync (m : Method) (hm : m ∈ p.interface.methods) (args : List Argument) :
    w.invokeMember id p (m.name ++ "Sync") args = asMember .done (w.callSync p m.name args)
  /-- and `Remote` does not wait. -/
  remote (m : Method) (hm : m ∈ p.interface.methods) (args : List Argument) :
    w.invokeMember id p (m.name ++ "Remote") args
      = asMember .pending (atOnce (w.callRemote id p m.name args))
  /-- A property without arguments is read, -/
  get (q : Property) (hq : q ∈ p.interface.properties) :
    w.invokeMember id p q.name [] = asMember (fun v => .done v.toList) (w.getProperty id p q.name)
  /-- and with one value it is written. -/
  set (q : Property) (hq : q ∈ p.interface.properties) (v : Value) :
    w.invokeMember id p q.name [.value v]
      = asMember (fun _ => .done []) (atOnce (w.setProperty id p q.name v))
  /-- One argument of another kind is refused, -/
  kind (q : Property) (hq : q ∈ p.interface.properties) (a : Argument) (ha : ∀ v, a ≠ .value v) :
    w.invokeMember id p q.name [a] = (w, some (.error (.argumentType q.name 0 a.describe)))
  /-- and so are several. -/
  count (q : Property) (hq : q ∈ p.interface.properties) (args : List Argument)
    (hargs : 1 < args.length) :
    w.invokeMember id p q.name args
      = (w, some (.error (.argumentCount q.name 1 args.length)))
  /-- There is nothing else to invoke, -/
  other (s : String) (hs : ¬ p.interface.Invokes s) (args : List Argument) :
    w.invokeMember id p s args = (w, some (.error (.unknownMember s)))
  /-- and the finish members are not among what there is. -/
  finishing (m : Method) (hm : m ∈ p.interface.methods) : ¬ p.interface.Invokes (m.name ++ "Finish")
  /-- A result is read through the finish member of its method, and through no other. -/
  finish (s : String) (r : AsyncResult) : p.finish s r = r.finish ↔ p.interface.Finishes s r
  /-- Through any other name nothing is read. -/
  unread (s : String) (r : AsyncResult) (hs : ¬ p.interface.Finishes s r) :
    p.finish s r = .error (.unknownMember s)

/-- **A member that is called by its name does what the name says**, for a proxy of any interface
that was built, and any arguments: the same happens, and the same comes of it, as if the operation
had been called directly; and a name that says nothing does nothing. -/
theorem invoke_by_name {name : String} {ds : List Declaration} (w : World) (id : Nat) {p : Proxy}
    (h : Interface.build name ds = .ok p.interface) : ByName w id p where
  sync m hm args := by
    obtain ⟨k, hk, hmember, -⟩ := Interface.member?_method h hm
    rw [invokeMember, hmember, callSync_of_mem w h hm]
    simp only [hk]
    rfl
  remote m hm args := by
    obtain ⟨k, hk, -, hmember, -⟩ := Interface.member?_method h hm
    rw [invokeMember, hmember, callRemote_of_mem w id h hm]
    simp only [hk]
    rfl
  get q hq := invokeMember_property w id h hq []
  set q hq v := invokeMember_property w id h hq [.value v]
  kind q hq a ha := by
    rw [invokeMember_property w id h hq]
    cases a with
    | value v => exact absurd rfl (ha v)
    | _ => rfl
  count q hq args hargs := by
    rw [invokeMember_property w id h hq]
    match args, hargs with
    | a :: b :: rest, _ => cases a <;> rfl
  other s hs args := invokeMember_of_not_invokes w id h hs args
  finishing m hm := by
    obtain ⟨k, -, -, -, hmember⟩ := Interface.member?_method h hm
    exact (Interface.not_invokes_iff h).2 (.inr ⟨k, hmember⟩)
  finish s r := by
    constructor
    · intro hfinish
      by_contra hs
      rw [Proxy.finish_of_not_finishes h hs] at hfinish
      exact r.finish_ne_unknownMember s hfinish.symm
    · exact Proxy.finish_of_finishes h
  unread s r hs := Proxy.finish_of_not_finishes h hs

/-! ## 5. Names that nest -/

/-- A proxy of an interface in which the members of one method look like those of another; there is
nobody at the other end. -/
def nestedMoves : List Move :=
  [.arrange (.addBus 25000), .arrange (.connect 0),
    .arrange (.addProxy "nested" (.bus 0 ":1.1") .nested ":1.9" "/nested" none .none .full)]

/-- `aSync` calls the method `a`, `aSyncSync` the method `aSync`, and `aSyncS` is a property; and a
result of `aSync` is not read through `aFinish`. -/
theorem invoke_by_name_nested :
    ∃ p, (empty.run nestedMoves).proxies.get? 0 = some p ∧
      Interface.build "org.example.Nested" Interface.nestedDeclarations = .ok p.interface ∧
      (empty.run nestedMoves).invokeMember 0 p "aSync" [.value (.string "x")]
        = asMember .done ((empty.run nestedMoves).callSync p "a" [.value (.string "x")]) ∧
      (empty.run nestedMoves).invokeMember 0 p "aSyncSync" []
        = asMember .done ((empty.run nestedMoves).callSync p "aSync" []) ∧
      (empty.run nestedMoves).invokeMember 0 p "aSyncS" []
        = asMember (fun v => .done v.toList) ((empty.run nestedMoves).getProperty 0 p "aSyncS") ∧
      p.finish "aFinish" ⟨⟨"aSync", [], []⟩, .error .timeout⟩
        = .error (.unknownMember "aFinish") := by
  have hbuild : Interface.build "org.example.Nested" Interface.nestedDeclarations
      = .ok .nested := by rfl
  have ha : ⟨"a", [.string], [.array (.int .int32)]⟩ ∈ Interface.nested.methods := by
    simp [Interface.nested]
  have haSync : ⟨"aSync", [], []⟩ ∈ Interface.nested.methods := by simp [Interface.nested]
  have haSyncS : ⟨"aSyncS", .variant, .readWrite⟩ ∈ Interface.nested.properties := by
    simp [Interface.nested]
  obtain ⟨p, hp, hi⟩ : ∃ p, (empty.run nestedMoves).proxies.get? 0 = some p ∧
      p.interface = .nested := ⟨_, by rfl, rfl⟩
  rw [← hi] at hbuild ha haSync haSyncS
  have hnames := invoke_by_name (empty.run nestedMoves) 0 hbuild
  refine ⟨p, hp, hbuild, hnames.sync _ ha _, hnames.sync _ haSync _, hnames.get _ haSyncS, ?_⟩
  refine hnames.unread _ _ ?_
  rintro ⟨hname, -⟩
  exact absurd hname (by decide)

end World

end MessageBus
