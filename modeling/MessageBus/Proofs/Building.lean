/-
# Which declarations make an interface, and what its members are

`Interface.build` makes its checks in a fixed order: the tags as they are written, then the names of
the methods, of the properties and of the signals, then the names of all members.  It succeeds just
if the declarations are coherent (`Declaration.Coherent`), and fails as the first check that does
not hold (`Declaration.Flaw`); `Interface.build_exact` says both.

The last check looks at more names than it has to.  A member of a method is named by the method's
name and one of three words, which end in different letters, so the name tells the method and the
word (`Member.append_inj`), whatever methods are called.  Members of different methods are therefore
never confused, and as the methods come first, the first name that is found twice is that of the
first property that has the name of a method's member (`firstRepeat_append`).

That no name comes twice among the members is also why looking one up finds each of them: none is
hidden by one that stands before it (`Interface.member?_iff`).
-/
import MessageBus.Interface
import MessageBus.Proofs.Checks
import Mathlib.Data.List.Forall2
import Mathlib.Data.List.Nodup
import Mathlib.Data.List.Induction

namespace MessageBus

/-! ## 1. Names that are repeated -/

/-- `s` is the first name in the list that has occurred before. -/
def FirstRepeat (names : List String) (s : String) : Prop :=
  ∃ before after, names = before ++ s :: after ∧ before.Nodup ∧ s ∈ before

/-- `s` is the first name in the list that is among `taken`. -/
def FirstTaken (taken names : List String) (s : String) : Prop :=
  ∃ before after, names = before ++ s :: after ∧ (∀ n ∈ before, n ∉ taken) ∧ s ∈ taken

theorem firstRepeat_eq_some {seen names : List String} {s : String} :
    firstRepeat seen names = some s ↔ ∃ before after, names = before ++ s :: after ∧
      before.Nodup ∧ (∀ n ∈ before, n ∉ seen) ∧ (s ∈ before ∨ s ∈ seen) := by
  induction names generalizing seen with
  | nil => simp [firstRepeat]
  | cons n names ih =>
    rw [firstRepeat]
    by_cases hn : n ∈ seen
    · rw [if_pos (List.contains_iff_mem.mpr hn), Option.some.injEq]
      constructor
      · rintro rfl
        exact ⟨[], names, rfl, List.nodup_nil, by simp, Or.inr hn⟩
      · rintro ⟨before, after, h, -, hfresh, -⟩
        cases before with
        | nil => exact (List.cons.inj h).1
        | cons b before =>
          obtain ⟨rfl, -⟩ := List.cons.inj h
          exact absurd hn (hfresh n List.mem_cons_self)
    · rw [if_neg (fun h => hn (List.contains_iff_mem.mp h)), ih]
      constructor
      · rintro ⟨before, after, rfl, hnodup, hfresh, hs⟩
        have hbefore : n ∉ before := fun h => hfresh n h List.mem_cons_self
        refine ⟨n :: before, after, rfl, List.nodup_cons.mpr ⟨hbefore, hnodup⟩, ?_, ?_⟩
        · exact List.forall_mem_cons.mpr
            ⟨hn, fun b hb h => hfresh b hb (List.mem_cons_of_mem _ h)⟩
        · simp only [List.mem_cons] at hs ⊢
          tauto
      · rintro ⟨before, after, h, hnodup, hfresh, hs⟩
        cases before with
        | nil =>
          obtain ⟨rfl, -⟩ := List.cons.inj h
          simp [hn] at hs
        | cons b before =>
          obtain ⟨rfl, rfl⟩ := List.cons.inj h
          obtain ⟨hb, hnodup⟩ := List.nodup_cons.mp hnodup
          obtain ⟨-, hfresh⟩ := List.forall_mem_cons.mp hfresh
          refine ⟨before, after, rfl, hnodup, fun c hc => ?_, ?_⟩
          · rw [List.mem_cons, not_or]
            exact ⟨fun h => hb (h ▸ hc), hfresh c hc⟩
          · simp only [List.mem_cons] at hs ⊢
            tauto

theorem firstRepeat_nil_eq_some {names : List String} {s : String} :
    firstRepeat [] names = some s ↔ FirstRepeat names s := by
  simp [firstRepeat_eq_some, FirstRepeat]

/-- Some name is the first to be repeated, unless none is. -/
theorem forall_not_firstRepeat {names : List String} :
    (∀ s, ¬ FirstRepeat names s) ↔ names.Nodup := by
  constructor
  · intro h
    induction names using List.reverseRecOn with
    | nil => exact List.nodup_nil
    | append_singleton names n ih =>
      have hnames : names.Nodup := by
        refine ih fun s => ?_
        rintro ⟨before, after, rfl, hbefore, hs⟩
        exact h s ⟨before, after ++ [n], by simp, hbefore, hs⟩
      have hn : n ∉ names := fun hn => h n ⟨names, [], rfl, hnames, hn⟩
      rw [← List.concat_eq_append]
      exact hnames.concat hn
  · rintro h s ⟨before, after, rfl, -, hs⟩
    exact List.disjoint_of_nodup_append h hs List.mem_cons_self

/-- Names pass the check if none is repeated, -/
theorem checkUnique_eq_ok {complain : String → InterfaceError} {names : List String} {u : Unit} :
    checkUnique complain names = .ok u ↔ names.Nodup := by
  rw [← forall_not_firstRepeat]
  simp only [← firstRepeat_nil_eq_some]
  unfold checkUnique
  cases firstRepeat [] names <;> simp

/-- and otherwise the complaint is of the first that is. -/
theorem checkUnique_eq_error {complain : String → InterfaceError} {names : List String}
    {e : InterfaceError} :
    checkUnique complain names = .error e ↔ ∃ s, FirstRepeat names s ∧ e = complain s := by
  simp only [← firstRepeat_nil_eq_some]
  unfold checkUnique
  cases firstRepeat [] names <;> simp [eq_comm]

/-- **Where two lists without repeated names meet**, the first name to be repeated is the first of
the second list that is in the first one. -/
theorem firstRepeat_append {taken names : List String} (htaken : taken.Nodup)
    (hnames : names.Nodup) {s : String} :
    FirstRepeat (taken ++ names) s ↔ FirstTaken taken names s := by
  constructor
  · rintro ⟨before, after, h, hbefore, hs⟩
    rcases List.append_eq_append_iff.mp h with ⟨rest, rfl, rfl⟩ | ⟨rest, rfl, hrest⟩
    · -- The repetition is in the second list.
      have hrest : s ∉ rest := fun hmem =>
        List.disjoint_of_nodup_append hnames hmem List.mem_cons_self
      refine ⟨rest, after, rfl, fun n hn hmem => ?_, ?_⟩
      · exact List.disjoint_of_nodup_append hbefore hmem hn
      · exact (List.mem_append.mp hs).resolve_right hrest
    · cases rest with
      | nil => exact ⟨[], after, hrest.symm, by simp, by simpa using hs⟩
      | cons r rest =>
        obtain ⟨rfl, -⟩ := List.cons.inj hrest
        exact absurd List.mem_cons_self (List.disjoint_of_nodup_append htaken hs)
  · rintro ⟨before, after, rfl, hbefore, hs⟩
    refine ⟨taken ++ before, after, by simp, ?_, List.mem_append_left _ hs⟩
    refine List.Nodup.append htaken (List.nodup_append.mp hnames).1 ?_
    exact fun n hn hmem => hbefore n hmem hn

theorem forall_not_firstTaken {taken names : List String} :
    (∀ s, ¬ FirstTaken taken names s) ↔ ∀ n ∈ names, n ∉ taken := by
  constructor
  · intro h
    induction names using List.reverseRecOn with
    | nil => simp
    | append_singleton names n ih =>
      have hnames : ∀ m ∈ names, m ∉ taken := by
        refine ih fun s => ?_
        rintro ⟨before, after, rfl, hbefore, hs⟩
        exact h s ⟨before, after ++ [n], by simp, hbefore, hs⟩
      intro m hm
      rcases List.mem_append.mp hm with hm | hm
      · exact hnames m hm
      · cases List.mem_singleton.mp hm
        exact fun hmem => h n ⟨names, [], rfl, hnames, hmem⟩
  · rintro h s ⟨before, after, rfl, -, hs⟩
    exact h s (by simp) hs

/-! ## 2. Names of members -/

namespace Member

/-- The words that the names of a method's members end in. -/
def endings : List String := ["Remote", "Sync", "Finish"]

/-- The names of the members of methods that have these names. -/
def namesFor (methods : List String) : List String :=
  methods.flatMap fun m => endings.map (m ++ ·)

/-- A member's name ends as its word does. -/
theorem getLast?_append {w : String} (hw : w ∈ endings) (m : String) :
    (m ++ w).toList.getLast? = w.toList.getLast? := by
  have hne : ∀ w ∈ endings, w.toList ≠ [] := by decide
  rw [String.toList_append, List.getLast?_append_of_ne_nil _ (hne w hw)]

/-- **A member's name tells the method and the word**, since the words end in different letters. -/
theorem append_inj {m n s t : String} (hs : s ∈ endings) (ht : t ∈ endings)
    (h : m ++ s = n ++ t) : m = n ∧ s = t := by
  have hletters : ∀ s ∈ endings, ∀ t ∈ endings,
      s.toList.getLast? = t.toList.getLast? → s = t := by decide
  have hlast : s.toList.getLast? = t.toList.getLast? := by
    rw [← getLast?_append hs m, h, getLast?_append ht]
  obtain rfl := hletters s hs t ht hlast
  have hlists : m.toList ++ s.toList = n.toList ++ s.toList := by
    rw [← String.toList_append, h, String.toList_append]
  exact ⟨String.toList_injective (List.append_cancel_right hlists), rfl⟩

theorem nodup_namesFor {methods : List String} (h : methods.Nodup) : (namesFor methods).Nodup := by
  refine List.nodup_flatMap.mpr ⟨fun m _ => ?_, h.imp fun {m n} hne => ?_⟩
  · refine List.Nodup.map_on (fun s hs t ht heq => (append_inj hs ht heq).2) ?_
    decide
  · intro name hm hn
    obtain ⟨s, hs, rfl⟩ := List.mem_map.mp hm
    obtain ⟨t, ht, heq⟩ := List.mem_map.mp hn
    exact hne (append_inj hs ht heq.symm).1

theorem mem_namesFor {methods : List String} {n : String} :
    n ∈ namesFor methods ↔ ∃ m ∈ methods, ∃ s ∈ endings, m ++ s = n := by
  simp only [namesFor, List.mem_flatMap, List.mem_map]

theorem fst_ofMethods (i : Nat) (ms : List Method) :
    (ofMethods i ms).map Prod.fst = namesFor (ms.map Method.name) := by
  induction ms generalizing i with
  | nil => rfl
  | cons m ms ih =>
    rw [ofMethods, List.map_append, ih]
    rfl

theorem fst_ofProperties (i : Nat) (ps : List Property) :
    (ofProperties i ps).map Prod.fst = ps.map Property.name := by
  induction ps generalizing i with
  | nil => rfl
  | cons p ps ih => rw [ofProperties, List.map_cons, ih, List.map_cons]

theorem fst_all (ms : List Method) (ps : List Property) :
    (all ms ps).map Prod.fst = namesFor (ms.map Method.name) ++ ps.map Property.name := by
  rw [all, List.map_append, fst_ofMethods, fst_ofProperties]

/-- The names of all members are different, if those of the methods are, and those of the
properties, and no property has the name of a method's member. -/
theorem nodup_all {ms : List Method} {ps : List Property} (hms : (ms.map Method.name).Nodup)
    (hps : (ps.map Property.name).Nodup) : ((all ms ps).map Prod.fst).Nodup ↔
      ∀ n ∈ ps.map Property.name, n ∉ namesFor (ms.map Method.name) := by
  rw [fst_all, ← forall_not_firstRepeat, ← forall_not_firstTaken]
  simp only [firstRepeat_append (nodup_namesFor hms) hps]

/-- There are three members for each method and one for each property. -/
theorem length_all (ms : List Method) (ps : List Property) :
    (all ms ps).length = 3 * ms.length + ps.length := by
  have hmethods : ∀ i, (ofMethods i ms).length = 3 * ms.length := by
    induction ms with
    | nil => exact fun _ => rfl
    | cons m ms ih =>
      intro i
      rw [ofMethods, List.length_append, ih, List.length_cons]
      simp only [ofMethod, List.length_cons, List.length_nil]
      omega
  have hproperties : ∀ i, (ofProperties i ps).length = ps.length := by
    induction ps with
    | nil => exact fun _ => rfl
    | cons p ps ih =>
      intro i
      rw [ofProperties, List.length_cons, ih, List.length_cons]
  rw [all, List.length_append, hmethods, hproperties]

theorem mem_ofMethods {i : Nat} {ms : List Method} {e : String × Member} :
    e ∈ ofMethods i ms ↔ ∃ k m, ms[k]? = some m ∧ e ∈ ofMethod (i + k) m := by
  induction ms generalizing i with
  | nil => simp [ofMethods]
  | cons m ms ih =>
    rw [ofMethods, List.mem_append, ih]
    constructor
    · rintro (h | ⟨k, n, hn, h⟩)
      · exact ⟨0, m, rfl, h⟩
      · refine ⟨k + 1, n, hn, ?_⟩
        rwa [show i + (k + 1) = i + 1 + k by omega]
    · rintro ⟨k, n, hn, h⟩
      cases k with
      | zero =>
        cases hn
        exact Or.inl h
      | succ k =>
        refine Or.inr ⟨k, n, hn, ?_⟩
        rwa [show i + 1 + k = i + (k + 1) by omega]

theorem mem_ofProperties {i : Nat} {ps : List Property} {e : String × Member} :
    e ∈ ofProperties i ps ↔ ∃ k p, ps[k]? = some p ∧ e = (p.name, .property (i + k)) := by
  induction ps generalizing i with
  | nil => simp [ofProperties]
  | cons p ps ih =>
    rw [ofProperties, List.mem_cons, ih]
    constructor
    · rintro (rfl | ⟨k, q, hq, rfl⟩)
      · exact ⟨0, p, rfl, rfl⟩
      · exact ⟨k + 1, q, hq, by rw [show i + (k + 1) = i + 1 + k by omega]⟩
    · rintro ⟨k, q, hq, rfl⟩
      cases k with
      | zero =>
        cases hq
        exact Or.inl rfl
      | succ k => exact Or.inr ⟨k, q, hq, by rw [show i + 1 + k = i + (k + 1) by omega]⟩

end Member

/-! ## 3. Declarations -/

/-- What is checked for repeated names before these names are. -/
def DeclarationKind.earlier : DeclarationKind → List DeclarationKind
  | .method => []
  | .property => [.method]
  | .signal => [.method, .property]

namespace Declaration

/-- What is declared. -/
def kind : Declaration → DeclarationKind
  | .method .. => .method
  | .property .. => .property
  | .signal .. => .signal

/-- The name of what is declared. -/
def name : Declaration → String
  | .method name _ _ => name
  | .property name _ _ => name
  | .signal name _ => name

/-- The written tags in order, each with the name of what is declared.  Those of a method's
arguments come before those of its results. -/
def written : Declaration → List (String × String)
  | .method name input output => (input ++ output).map fun text => (name, text)
  | .property name text _ => [(name, text)]
  | .signal name texts => texts.map fun text => (name, text)

/-- The names of one kind, in the order in which they are declared. -/
def names (k : DeclarationKind) (ds : List Declaration) : List String :=
  (ds.filter (·.kind = k)).map name

/-- The texts are the written forms of as many tags. -/
def Spell (texts : List String) (ts : List Tag) : Prop :=
  List.Forall₂ (fun text t => Tag.parse text = .ok t) texts ts

/-- The declarations are, in order, those of these methods, properties and signals, with each tag
read from its text. -/
inductive Declare : List Declaration → List Method → List Property → List Signal → Prop where
  | nil : Declare [] [] [] []
  | method {ds ms ps ss} (name : String) {input output : List String} {ts us : List Tag}
      (hinput : Spell input ts) (houtput : Spell output us) (h : Declare ds ms ps ss) :
      Declare (.method name input output :: ds) (⟨name, ts, us⟩ :: ms) ps ss
  | property {ds ms ps ss} (name : String) {text : String} {t : Tag} (access : Access)
      (htag : Tag.parse text = .ok t) (h : Declare ds ms ps ss) :
      Declare (.property name text access :: ds) ms (⟨name, t, access⟩ :: ps) ss
  | signal {ds ms ps ss} (name : String) {texts : List String} {ts : List Tag}
      (htags : Spell texts ts) (h : Declare ds ms ps ss) :
      Declare (.signal name texts :: ds) ms ps (⟨name, ts⟩ :: ss)

/-- The names are those that were declared, in order. -/
theorem Declare.names_eq {ds : List Declaration} {ms : List Method} {ps : List Property}
    {ss : List Signal} (h : Declare ds ms ps ss) :
    ms.map Method.name = names .method ds ∧ ps.map Property.name = names .property ds ∧
      ss.map Signal.name = names .signal ds := by
  induction h with
  | nil => exact ⟨rfl, rfl, rfl⟩
  | method name _ _ _ ih => exact ⟨congrArg (name :: ·) ih.1, ih.2⟩
  | property name _ _ _ ih => exact ⟨ih.1, congrArg (name :: ·) ih.2.1, ih.2.2⟩
  | signal name _ _ ih => exact ⟨ih.1, ih.2.1, congrArg (name :: ·) ih.2.2⟩

/-- The declarations fit together. -/
structure Coherent (ds : List Declaration) : Prop where
  read : ∀ w ∈ ds.flatMap written, ∃ t, Tag.parse w.2 = .ok t
  distinct : ∀ k, (names k ds).Nodup
  /-- No property has the name of a method's member. -/
  apart : ∀ p ∈ names .property ds, ∀ m ∈ names .method ds, ∀ s ∈ Member.endings, p ≠ m ++ s

/-- What is wrong with the declarations, as the first check that does not hold tells it. -/
inductive Flaw (ds : List Declaration) : InterfaceError → Prop where
  | tag {name text : String} {before after : List (String × String)} {e : PackError}
      (h : ds.flatMap written = before ++ (name, text) :: after)
      (hbefore : ∀ w ∈ before, ∃ t, Tag.parse w.2 = .ok t) (he : Tag.parse text = .error e) :
      Flaw ds (.invalidTag name e)
  | duplicate {k : DeclarationKind} {s : String}
      (hread : ∀ w ∈ ds.flatMap written, ∃ t, Tag.parse w.2 = .ok t)
      (hearlier : ∀ j ∈ k.earlier, (names j ds).Nodup) (h : FirstRepeat (names k ds) s) :
      Flaw ds (.duplicate k s)
  | collision {s : String} (hread : ∀ w ∈ ds.flatMap written, ∃ t, Tag.parse w.2 = .ok t)
      (hdistinct : ∀ k, (names k ds).Nodup)
      (h : FirstTaken (Member.namesFor (names .method ds)) (names .property ds) s) :
      Flaw ds (.collision s)

end Declaration

namespace Draft

open Declaration

/-- Reads one written tag. -/
def readOne (w : String × String) : Except InterfaceError Tag :=
  (Tag.parse w.2).mapError (.invalidTag w.1)

theorem readTags_eq_mapM (name : String) (texts : List String) :
    readTags name texts = (texts.map fun text => (name, text)).mapM readOne := by
  rw [List.mapM_map]
  rfl

theorem readTags_eq_ok {name : String} {texts : List String} {ts : List Tag} :
    readTags name texts = .ok ts ↔ Spell texts ts := by
  unfold readTags Spell
  simp only [mapM_eq_ok, mapError_eq_ok]

/-- Adding a declaration fails as reading its tags does. -/
theorem declare_eq_error {d : Draft} {x : Declaration} {e : InterfaceError} :
    d.declare x = .error e ↔ x.written.mapM readOne = .error e := by
  cases x with
  | method name input output =>
    simp only [declare, written, List.map_append, mapM_append_eq_error, bind_eq_error,
      readTags_eq_mapM]
    simp [pure, Except.pure]
  | property name text access =>
    simp only [declare, written, List.mapM_cons, List.mapM_nil, bind_eq_error, readOne]
    simp [pure, Except.pure]
  | signal name texts =>
    simp only [declare, written, bind_eq_error, readTags_eq_mapM]
    simp [pure, Except.pure]

theorem foldlM_declare_eq_error {ds : List Declaration} {d : Draft} {e : InterfaceError} :
    ds.foldlM declare d = .error e ↔ (ds.flatMap written).mapM readOne = .error e := by
  induction ds generalizing d with
  | nil => simp [pure, Except.pure]
  | cons x ds ih =>
    rw [List.foldlM_cons, List.flatMap_cons, mapM_append_eq_error, bind_eq_error]
    simp only [ih, exists_and_right, exists_eq_ok, ne_eq, declare_eq_error]

/-- **The declarations fail as the first tag that cannot be read**, in the order of writing. -/
theorem declareAll_eq_error {ds : List Declaration} {e : InterfaceError} :
    declareAll ds = .error e ↔ ∃ before name text after f,
      ds.flatMap written = before ++ (name, text) :: after ∧
        (∀ w ∈ before, ∃ t, Tag.parse w.2 = .ok t) ∧ Tag.parse text = .error f ∧
        e = .invalidTag name f := by
  rw [declareAll, foldlM_declare_eq_error, mapM_eq_error]
  simp only [readOne, mapError_eq_ok, mapError_eq_error]
  constructor
  · rintro ⟨before, ⟨name, text⟩, after, hsplit, hbefore, f, hf, rfl⟩
    exact ⟨before, name, text, after, f, hsplit, hbefore, hf, rfl⟩
  · rintro ⟨before, name, text, after, f, hsplit, hbefore, hf, rfl⟩
    exact ⟨before, (name, text), after, hsplit, hbefore, f, hf, rfl⟩

/-- The declarations can be taken in if every tag can be read. -/
theorem exists_declareAll_eq_ok {ds : List Declaration} :
    (∃ d, declareAll ds = .ok d) ↔ ∀ w ∈ ds.flatMap written, ∃ t, Tag.parse w.2 = .ok t := by
  have hread : (∃ ts, (ds.flatMap written).mapM readOne = .ok ts) ↔
      ∀ w ∈ ds.flatMap written, ∃ t, Tag.parse w.2 = .ok t := by
    simp only [exists_mapM_eq_ok, readOne, mapError_eq_ok]
  rw [← hread]
  simp only [exists_eq_ok, declareAll, ne_eq, foldlM_declare_eq_error]

theorem declare_of_foldlM {ds : List Declaration} {d d' : Draft}
    (h : ds.foldlM declare d = .ok d') : ∃ ms ps ss, Declare ds ms ps ss ∧
      d' = ⟨d.methods ++ ms, d.properties ++ ps, d.signals ++ ss⟩ := by
  induction ds generalizing d with
  | nil =>
    cases h
    exact ⟨[], [], [], .nil, by simp⟩
  | cons x ds ih =>
    rw [List.foldlM_cons] at h
    obtain ⟨mid, hx, h⟩ := bind_eq_ok.1 h
    obtain ⟨ms, ps, ss, hds, rfl⟩ := ih h
    cases x with
    | method name input output =>
      obtain ⟨ts, hinput, hx⟩ := bind_eq_ok.1 hx
      obtain ⟨us, houtput, hx⟩ := bind_eq_ok.1 hx
      cases hx
      refine ⟨_, _, _, .method name (readTags_eq_ok.mp hinput) (readTags_eq_ok.mp houtput) hds, ?_⟩
      simp
    | property name text access =>
      obtain ⟨t, ht, hx⟩ := bind_eq_ok.1 hx
      cases hx
      refine ⟨_, _, _, .property name access (mapError_eq_ok.mp ht) hds, ?_⟩
      simp
    | signal name texts =>
      obtain ⟨ts, hts, hx⟩ := bind_eq_ok.1 hx
      cases hx
      refine ⟨_, _, _, .signal name (readTags_eq_ok.mp hts) hds, ?_⟩
      simp

/-- What is taken in are the declarations, in order. -/
theorem declare_of_declareAll {ds : List Declaration} {d : Draft} (h : declareAll ds = .ok d) :
    Declare ds d.methods d.properties d.signals := by
  obtain ⟨ms, ps, ss, hds, rfl⟩ := declare_of_foldlM h
  exact hds

end Draft

/-! ## 4. The member table -/

/-- An element is the one that its name finds, if no name comes twice. -/
theorem find?_of_nodup_map {α : Type} {f : α → String} {xs : List α} (h : (xs.map f).Nodup) {x : α}
    (hx : x ∈ xs) : xs.find? (f · = f x) = some x := by
  cases hfind : xs.find? (f · = f x) with
  | none => exact absurd (decide_eq_true rfl) (List.find?_eq_none.mp hfind x hx)
  | some y =>
    have hname : f y = f x := by simpa using List.find?_some hfind
    rw [List.inj_on_of_nodup_map h (List.mem_of_find?_eq_some hfind) hx hname]

/-- Under a key that does not come twice, the look-up finds what stands there. -/
theorem find?_map_snd_eq_some {α : Type} {es : List (String × α)} (h : (es.map Prod.fst).Nodup)
    {s : String} {x : α} : (es.find? (·.1 = s)).map Prod.snd = some x ↔ (s, x) ∈ es := by
  rw [Option.map_eq_some_iff]
  constructor
  · rintro ⟨⟨n, y⟩, hfind, rfl⟩
    have hname : n = s := by simpa using List.find?_some hfind
    exact hname ▸ List.mem_of_find?_eq_some hfind
  · intro hmem
    exact ⟨(s, x), find?_of_nodup_map h hmem, rfl⟩

namespace Interface

/-- The name `s` is that of the member `x`. -/
def Names (i : Interface) (s : String) : Member → Prop
  | .call k .async => ∃ m, i.methods[k]? = some m ∧ s = m.name ++ "Remote"
  | .call k .sync => ∃ m, i.methods[k]? = some m ∧ s = m.name ++ "Sync"
  | .finish k => ∃ m, i.methods[k]? = some m ∧ s = m.name ++ "Finish"
  | .property k => ∃ p, i.properties[k]? = some p ∧ s = p.name

theorem mem_all_iff {i : Interface} {s : String} {x : Member} :
    (s, x) ∈ Member.all i.methods i.properties ↔ i.Names s x := by
  rw [Member.all, List.mem_append, Member.mem_ofMethods, Member.mem_ofProperties]
  simp only [Member.ofMethod, List.mem_cons, List.not_mem_nil, or_false, Prod.mk.injEq,
    Nat.zero_add]
  cases x with
  | call k mode => cases mode <;> simp [Names]
  | finish k => simp [Names]
  | property k => simp [Names]

variable {name : String} {ds : List Declaration} {i : Interface}

/-- What is built has passed every check. -/
theorem build_eq_ok : build name ds = .ok i ↔ ∃ d, Draft.declareAll ds = .ok d ∧
    (d.methods.map Method.name).Nodup ∧ (d.properties.map Property.name).Nodup ∧
    (d.signals.map Signal.name).Nodup ∧
    ((Member.all d.methods d.properties).map Prod.fst).Nodup ∧
    ⟨name, d.methods, d.properties, d.signals, Member.all d.methods d.properties⟩ = i := by
  simp only [build, bind_eq_ok, checkUnique_eq_ok, exists_const, pure, Except.pure,
    Except.ok.injEq]

theorem build_eq_error {e : InterfaceError} : build name ds = .error e ↔
    Draft.declareAll ds = .error e ∨ ∃ d, Draft.declareAll ds = .ok d ∧
      ((∃ s, FirstRepeat (d.methods.map Method.name) s ∧ e = .duplicate .method s) ∨
        (d.methods.map Method.name).Nodup ∧
      ((∃ s, FirstRepeat (d.properties.map Property.name) s ∧ e = .duplicate .property s) ∨
        (d.properties.map Property.name).Nodup ∧
      ((∃ s, FirstRepeat (d.signals.map Signal.name) s ∧ e = .duplicate .signal s) ∨
        (d.signals.map Signal.name).Nodup ∧
      ∃ s, FirstRepeat ((Member.all d.methods d.properties).map Prod.fst) s ∧
        e = .collision s))) := by
  simp only [build, bind_eq_error, checkUnique_eq_ok, checkUnique_eq_error, exists_const, pure,
    Except.pure, reduceCtorEq, and_false, or_false]

/-- No two methods of a built interface have the same name, -/
theorem methods_nodup (h : build name ds = .ok i) : (i.methods.map Method.name).Nodup := by
  obtain ⟨d, -, hmethods, -, -, -, rfl⟩ := build_eq_ok.mp h
  exact hmethods

/-- and no two properties. -/
theorem properties_nodup (h : build name ds = .ok i) :
    (i.properties.map Property.name).Nodup := by
  obtain ⟨d, -, -, hproperties, -, -, rfl⟩ := build_eq_ok.mp h
  exact hproperties

/-- A declared method of an interface that was built is the one that its name stands for. -/
theorem method?_of_build (h : build name ds = .ok i) {m : Method} (hm : m ∈ i.methods) :
    i.method? m.name = some m :=
  find?_of_nodup_map (methods_nodup h) hm

/-- **What is looked up among the members** of a built interface is what has that name. -/
theorem member?_iff (h : build name ds = .ok i) {s : String} {x : Member} :
    i.member? s = some x ↔ i.Names s x := by
  obtain ⟨d, -, -, -, -, hmembers, rfl⟩ := build_eq_ok.mp h
  rw [member?, find?_map_snd_eq_some hmembers, ← mem_all_iff]

/-! ## 5. Which declarations make an interface -/

/-- The declarations make an interface just if they fit together. -/
theorem exists_build_eq_ok : (∃ i, build name ds = .ok i) ↔ Declaration.Coherent ds := by
  constructor
  · rintro ⟨i, h⟩
    obtain ⟨d, hd, hmethods, hproperties, hsignals, hmembers, -⟩ := build_eq_ok.mp h
    obtain ⟨hm, hp, hs⟩ := (Draft.declare_of_declareAll hd).names_eq
    rw [Member.nodup_all hmethods hproperties, hm, hp] at hmembers
    refine ⟨Draft.exists_declareAll_eq_ok.mp ⟨d, hd⟩, fun k => ?_, ?_⟩
    · cases k with
      | method => exact hm ▸ hmethods
      | property => exact hp ▸ hproperties
      | signal => exact hs ▸ hsignals
    · rintro p hp m hm s hs rfl
      exact hmembers _ hp (Member.mem_namesFor.mpr ⟨m, hm, s, hs, rfl⟩)
  · intro h
    obtain ⟨d, hd⟩ := Draft.exists_declareAll_eq_ok.mpr h.read
    obtain ⟨hm, hp, hs⟩ := (Draft.declare_of_declareAll hd).names_eq
    have hmethods := hm.symm ▸ h.distinct .method
    have hproperties := hp.symm ▸ h.distinct .property
    refine ⟨_, build_eq_ok.mpr ⟨d, hd, hmethods, hproperties, ?_, ?_, rfl⟩⟩
    · exact hs.symm ▸ h.distinct .signal
    rw [Member.nodup_all hmethods hproperties, hm, hp]
    intro p hp hmem
    obtain ⟨m, hm, s, hs, rfl⟩ := Member.mem_namesFor.mp hmem
    exact h.apart _ hp m hm s hs rfl

/-- **Why declarations make no interface.** -/
theorem build_eq_error_iff {e : InterfaceError} :
    build name ds = .error e ↔ Declaration.Flaw ds e := by
  rw [build_eq_error]
  constructor
  · rintro (h | ⟨d, hd, h⟩)
    · obtain ⟨before, n, text, after, f, hsplit, hbefore, hf, rfl⟩ := Draft.declareAll_eq_error.mp h
      exact .tag hsplit hbefore hf
    have hread := Draft.exists_declareAll_eq_ok.mp ⟨d, hd⟩
    obtain ⟨hm, hp, hs⟩ := (Draft.declare_of_declareAll hd).names_eq
    rw [Member.fst_all, hm, hp, hs] at h
    rcases h with ⟨s, h, rfl⟩ | ⟨hmethods, h⟩
    · exact .duplicate hread (by simp [DeclarationKind.earlier]) h
    rcases h with ⟨s, h, rfl⟩ | ⟨hproperties, h⟩
    · exact .duplicate hread (by simpa [DeclarationKind.earlier] using hmethods) h
    rcases h with ⟨s, h, rfl⟩ | ⟨hsignals, s, h, rfl⟩
    · exact .duplicate hread (by simpa [DeclarationKind.earlier] using ⟨hmethods, hproperties⟩) h
    · refine .collision hread (fun k => by cases k <;> assumption) ?_
      exact (firstRepeat_append (Member.nodup_namesFor hmethods) hproperties).mp h
  · intro h
    cases h with
    | tag hsplit hbefore hf =>
      exact Or.inl (Draft.declareAll_eq_error.mpr ⟨_, _, _, _, _, hsplit, hbefore, hf, rfl⟩)
    | @duplicate k s hread hearlier h =>
      obtain ⟨d, hd⟩ := Draft.exists_declareAll_eq_ok.mpr hread
      obtain ⟨hm, hp, hs⟩ := (Draft.declare_of_declareAll hd).names_eq
      refine Or.inr ⟨d, hd, ?_⟩
      rw [hm, hp, hs]
      cases k with
      | method => exact Or.inl ⟨s, h, rfl⟩
      | property =>
        exact Or.inr ⟨hearlier .method (by decide), Or.inl ⟨s, h, rfl⟩⟩
      | signal =>
        exact Or.inr ⟨hearlier .method (by decide),
          Or.inr ⟨hearlier .property (by decide), Or.inl ⟨s, h, rfl⟩⟩⟩
    | collision hread hdistinct h =>
      obtain ⟨d, hd⟩ := Draft.exists_declareAll_eq_ok.mpr hread
      obtain ⟨hm, hp, hs⟩ := (Draft.declare_of_declareAll hd).names_eq
      refine Or.inr ⟨d, hd, ?_⟩
      rw [Member.fst_all, hm, hp, hs]
      refine Or.inr ⟨hdistinct .method, Or.inr ⟨hdistinct .property,
        Or.inr ⟨hdistinct .signal, _, ?_, rfl⟩⟩⟩
      exact (firstRepeat_append (Member.nodup_namesFor (hdistinct .method))
        (hdistinct .property)).mpr h

/-- The interface is that of the declarations. -/
structure Built (name : String) (ds : List Declaration) (i : Interface) : Prop where
  name : i.name = name
  /-- Its lists are those of the declarations, in order and with every tag read. -/
  declared : Declaration.Declare ds i.methods i.properties i.signals
  /-- A look-up finds the member that has the name, -/
  found : ∀ s x, i.member? s = some x ↔ i.Names s x
  /-- and nothing if no member has it. -/
  absent : ∀ s, i.member? s = none ↔ ∀ x, ¬ i.Names s x
  /-- No name comes twice among the members, -/
  distinct : (i.members.map Prod.fst).Nodup
  /-- so that there are three for each method and one for each property. -/
  size : i.members.length = 3 * i.methods.length + i.properties.length

/-- **Building is exact.**  Declarations make an interface just if they fit together; the interface
is theirs, and has just the members that they give it; and if they make none, the error is that of
the first check that does not hold. -/
theorem build_exact (name : String) (ds : List Declaration) :
    ((∃ i, build name ds = .ok i) ↔ Declaration.Coherent ds) ∧
    (∀ i, build name ds = .ok i → Built name ds i) ∧
    ∀ e, build name ds = .error e ↔ Declaration.Flaw ds e := by
  refine ⟨exists_build_eq_ok, fun i h => ?_, fun e => build_eq_error_iff⟩
  have hfound : ∀ s x, i.member? s = some x ↔ i.Names s x := fun s x => member?_iff h
  have habsent : ∀ s, i.member? s = none ↔ ∀ x, ¬ i.Names s x := fun s => by
    simp only [← hfound, Option.eq_none_iff_forall_ne_some, ne_eq]
  obtain ⟨d, hd, -, -, -, hmembers, rfl⟩ := build_eq_ok.mp h
  exact ⟨rfl, Draft.declare_of_declareAll hd, hfound, habsent, hmembers, Member.length_all _ _⟩

/-! ## 6. Names that nest -/

/-- The members of one method look like those of a method that has the name of one of them. -/
def nestedDeclarations : List Declaration :=
  [.method "a" ["s"] ["ai"], .property "aSyncS" "v" .readWrite, .method "aSync" [] [],
    .signal "a" ["s"]]

/-- The interface that they make. -/
def nested : Interface where
  name := "org.example.Nested"
  methods := [⟨"a", [.string], [.array (.int .int32)]⟩, ⟨"aSync", [], []⟩]
  properties := [⟨"aSyncS", .variant, .readWrite⟩]
  signals := [⟨"a", [.string]⟩]
  members := [("aRemote", .call 0 .async), ("aSync", .call 0 .sync), ("aFinish", .finish 0),
    ("aSyncRemote", .call 1 .async), ("aSyncSync", .call 1 .sync), ("aSyncFinish", .finish 1),
    ("aSyncS", .property 0)]

/-- Each is found under its own name, and no method under its bare name. -/
theorem build_exact_nested : build "org.example.Nested" nestedDeclarations = .ok nested ∧
    Declaration.Coherent nestedDeclarations ∧ nested.member? "aSync" = some (.call 0 .sync) ∧
    nested.member? "aSyncSync" = some (.call 1 .sync) ∧
    nested.member? "aSyncS" = some (.property 0) ∧ ∀ x, ¬ nested.Names "a" x := by
  have hbuild : build "org.example.Nested" nestedDeclarations = .ok nested := by rfl
  obtain ⟨hcoherent, hbuilt, -⟩ := build_exact "org.example.Nested" nestedDeclarations
  have hbuilt := hbuilt nested hbuild
  exact ⟨hbuild, hcoherent.mp ⟨nested, hbuild⟩, (hbuilt.found _ _).mpr ⟨_, rfl, rfl⟩,
    (hbuilt.found _ _).mpr ⟨_, rfl, rfl⟩, (hbuilt.found _ _).mpr ⟨_, rfl, rfl⟩,
    (hbuilt.absent _).mp (by rfl)⟩

/-- One letter more, and the property has the name of a member of the second method. -/
example : build "org.example.Nested"
    (nestedDeclarations ++ [.property "aSyncSync" "v" .readWrite])
      = .error (.collision "aSyncSync") := by rfl

end Interface

end MessageBus
