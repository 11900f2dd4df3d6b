/-
# Object paths: the recogniser, the form, and those that rely on it

`ObjectPath.recognised_everywhere` is the main theorem.  A text is recognised as an object path
exactly if it has the form of one (`ObjectPath.Written`), and the two places that ask the
recogniser, packing and exporting, let through what has the form and nothing else.

The recogniser takes one character after the other and only knows whether an element has begun; the
form is a concatenation of whole elements.  What stands between them (`ObjectPath.Spells`) is the
rest of a path: the characters that are left of the element that has begun, and the elements after
it.  The induction is on the rest, for both states of the recogniser at once.

For packing, the places are those of `Value.Visited`, so that inferred boxes are covered.  For
exporting it is not enough to look at the moment of the export, since objects stay: every path that
stands on a bus has the form, after every run (`World.addressed_run`).
-/
import MessageBus.Proofs.Exports
import MessageBus.Proofs.Places

namespace MessageBus

namespace ObjectPath

/-! ## 1. The form -/

/-- An ASCII letter, an ASCII digit or an underscore. -/
def WordChar (c : Char) : Prop :=
  ('A' ≤ c ∧ c ≤ 'Z') ∨ ('a' ≤ c ∧ c ≤ 'z') ∨ ('0' ≤ c ∧ c ≤ '9') ∨ c = '_'

/-- The form of an object path: a slash, or one or more elements, each of them one or more word
characters with a slash before them. -/
def Written (path : String) : Prop :=
  path = "/" ∨ ∃ elements : List String, elements ≠ [] ∧
    (∀ e ∈ elements, e ≠ "" ∧ ∀ c ∈ e.toList, WordChar c) ∧
    path = String.join (elements.map ("/" ++ ·))

theorem isWord_iff {c : Char} : isWord c = true ↔ WordChar c := by
  have hupper : c.isUpper = true ↔ 'A' ≤ c ∧ c ≤ 'Z' := decide_eq_true_iff
  have hlower : c.isLower = true ↔ 'a' ≤ c ∧ c ≤ 'z' :=
    Bool.and_eq_true_iff.trans (and_congr decide_eq_true_iff decide_eq_true_iff)
  have hdigit : c.isDigit = true ↔ '0' ≤ c ∧ c ≤ '9' :=
    Bool.and_eq_true_iff.trans (and_congr decide_eq_true_iff decide_eq_true_iff)
  change (((c.isUpper || c.isLower) || c.isDigit) || decide (c = '_')) = true ↔ WordChar c
  rw [Bool.or_eq_true, Bool.or_eq_true, Bool.or_eq_true, hupper, hlower, hdigit, decide_eq_true_iff,
    or_assoc, or_assoc, WordChar]

theorem WordChar.ne_slash {c : Char} (h : WordChar c) : c ≠ '/' := by
  rintro rfl
  exact absurd (isWord_iff.2 h) (by decide)

/-! ## 2. The recogniser -/

/-- The characters `cs` are those of `word`, and then of a slash and an element, any number of
times. -/
structure Spells (cs word : List Char) (words : List (List Char)) : Prop where
  begun : ∀ c ∈ word, WordChar c
  others : ∀ w ∈ words, w ≠ [] ∧ ∀ c ∈ w, WordChar c
  text : cs = word ++ words.flatMap ('/' :: ·)

variable {c : Char} {cs : List Char}

/-- A word character goes to the element that has begun. -/
theorem Spells.cons {word : List Char} {words : List (List Char)} (h : Spells cs word words)
    (hc : WordChar c) : Spells (c :: cs) (c :: word) words where
  begun := List.forall_mem_cons.2 ⟨hc, h.begun⟩
  others := h.others
  text := by rw [h.text, List.cons_append]

/-- A slash ends the element that has begun. -/
theorem Spells.slash {word : List Char} {words : List (List Char)} (h : Spells cs word words)
    (hne : word ≠ []) : Spells ('/' :: cs) [] (word :: words) where
  begun := by simp
  others := List.forall_mem_cons.2 ⟨⟨hne, h.begun⟩, h.others⟩
  text := by rw [h.text, List.nil_append, List.flatMap_cons, List.cons_append]

/-- What is spelt begins with a word character or with a slash. -/
theorem Spells.cases {word : List Char} {words : List (List Char)}
    (h : Spells (c :: cs) word words) :
    (WordChar c ∧ ∃ word', word = c :: word' ∧ Spells cs word' words) ∨
      (c = '/' ∧ word = [] ∧ ∃ word' words', word' ≠ [] ∧ Spells cs word' words') := by
  cases word with
  | cons x word' =>
    obtain ⟨rfl, htext⟩ := List.cons.inj h.text
    obtain ⟨hc, hword⟩ := List.forall_mem_cons.1 h.begun
    exact .inl ⟨hc, word', rfl, hword, h.others, htext⟩
  | nil =>
    cases words with
    | nil => cases h.text
    | cons w words' =>
      obtain ⟨rfl, htext⟩ := List.cons.inj h.text
      obtain ⟨⟨hne, hw⟩, hwords⟩ := List.forall_mem_cons.1 h.others
      exact .inr ⟨rfl, rfl, w, words', hne, hw, hwords, htext⟩

/-- **The recogniser knows the rest of a path**, in either of its states. -/
theorem rest_iff (cs : List Char) :
    (continues cs = true ↔ ∃ word words, Spells cs word words) ∧
      (opens cs = true ↔ ∃ word words, word ≠ [] ∧ Spells cs word words) := by
  induction cs with
  | nil =>
    constructor
    · exact iff_of_true rfl ⟨[], [], by simp, by simp, rfl⟩
    · refine iff_of_false (by simp [opens]) ?_
      rintro ⟨word, words, hne, h⟩
      exact hne (List.append_eq_nil_iff.1 h.text.symm).1
  | cons c cs ih =>
    have hopens : opens (c :: cs) = true ↔ WordChar c ∧ ∃ word words, Spells cs word words := by
      rw [opens, Bool.and_eq_true, isWord_iff, ih.1]
    constructor
    · constructor
      · intro h
        rw [continues] at h
        split at h
        · rename_i hc
          obtain ⟨word, words, hne, hspells⟩ := ih.2.1 h
          exact ⟨[], word :: words, hc ▸ hspells.slash hne⟩
        · obtain ⟨hc, word, words, hspells⟩ := hopens.1 h
          exact ⟨c :: word, words, hspells.cons hc⟩
      · rintro ⟨word, words, h⟩
        rw [continues]
        rcases h.cases with ⟨hc, word', -, hspells⟩ | ⟨rfl, -, word', words', hne, hspells⟩
        · rw [if_neg hc.ne_slash]
          exact hopens.2 ⟨hc, word', words, hspells⟩
        · rw [if_pos rfl]
          exact ih.2.2 ⟨word', words', hne, hspells⟩
    · rw [hopens]
      constructor
      · rintro ⟨hc, word, words, hspells⟩
        exact ⟨c :: word, words, List.cons_ne_nil _ _, hspells.cons hc⟩
      · rintro ⟨word, words, hne, h⟩
        rcases h.cases with ⟨hc, word', -, hspells⟩ | ⟨-, rfl, -⟩
        · exact ⟨hc, word', words, hspells⟩
        · exact absurd rfl hne

/-- A path is a slash alone, or a slash and the rest of a path. -/
theorem accepts_iff {cs : List Char} :
    accepts cs = true ↔ cs = ['/'] ∨ ∃ words, words ≠ [] ∧ Spells cs [] words := by
  constructor
  · intro h
    unfold accepts at h
    split at h
    · exact .inl rfl
    · obtain ⟨word, words, hne, hspells⟩ := (rest_iff _).2.1 h
      exact .inr ⟨word :: words, List.cons_ne_nil _ _, hspells.slash hne⟩
    · cases h
  · rintro (rfl | ⟨words, hne, h⟩)
    · rfl
    · cases words with
      | nil => exact absurd rfl hne
      | cons w words =>
        have hopens : opens (w ++ words.flatMap ('/' :: ·)) = true := by
          obtain ⟨⟨hne, hw⟩, hwords⟩ := List.forall_mem_cons.1 h.others
          exact (rest_iff _).2.2 ⟨w, words, hne, hw, hwords, rfl⟩
        rw [h.text, List.nil_append, List.flatMap_cons, List.cons_append]
        unfold accepts
        split
        · rfl
        · rename_i heq
          rwa [← (List.cons.inj heq).2]
        · rename_i hother
          exact absurd rfl (hother _)

/-- The form in characters. -/
theorem written_iff {path : String} :
    Written path ↔ path.toList = ['/'] ∨ ∃ words, words ≠ [] ∧ Spells path.toList [] words := by
  refine or_congr (by rw [← String.toList_inj]; rfl) ?_
  constructor
  · rintro ⟨elements, hne, h, rfl⟩
    refine ⟨elements.map String.toList, by simpa using hne, by simp, ?_, ?_⟩
    · intro w hw
      obtain ⟨e, he, rfl⟩ := List.mem_map.1 hw
      exact ⟨fun hnil => (h e he).1 (String.toList_eq_nil_iff.1 hnil), (h e he).2⟩
    · simp [String.toList_join, List.flatMap_map]
  · rintro ⟨words, hne, h⟩
    refine ⟨words.map String.ofList, by simpa using hne, ?_, ?_⟩
    · intro e he
      obtain ⟨w, hw, rfl⟩ := List.mem_map.1 he
      obtain ⟨hne, hw⟩ := h.others w hw
      rw [ne_eq, ← String.toList_eq_nil_iff, String.toList_ofList]
      exact ⟨hne, hw⟩
    · rw [← String.toList_inj, h.text]
      simp [String.toList_join, List.flatMap_map]

/-- **The recogniser accepts the form, and nothing else.** -/
theorem isValid_iff {path : String} : isValid path = true ↔ Written path := by
  rw [isValid, accepts_iff, written_iff]

/-- Doubled and trailing slashes leave an element empty, and letters are ASCII letters. -/
example : ["/", "/org/Test_1", "/a//b", "/a/", "a/b", "", "/é"].map isValid =
    [true, true, false, false, false, false, false] := by cbv

end ObjectPath

open ObjectPath (Written)

/-! ## 3. Packing -/

namespace Value

/-- A text packs as an object path if it has the form of one, -/
theorem fitPath_eq_ok {s : String} {w : Value} :
    fitPath s = .ok w ↔ Written s ∧ w = .objectPath s := by
  rw [fitPath, ← ObjectPath.isValid_iff]
  split
  · rename_i hs
    rw [Except.ok.injEq, eq_comm, and_iff_right hs]
  · rename_i hs
    exact iff_of_false (by simp) fun h => hs h.1

/-- and otherwise it is refused for that. -/
theorem fitPath_eq_error {s : String} {e : PackError} :
    fitPath s = .error e ↔ ¬ Written s ∧ e = .invalidObjectPath s := by
  rw [fitPath, ← ObjectPath.isValid_iff]
  split
  · rename_i hs
    exact iff_of_false (by simp) fun h => h.1 hs
  · rename_i hs
    rw [Except.error.injEq, eq_comm, and_iff_right hs]

theorem fitWithin_objectPath {n : Nat} (hn : 0 < n) {u : Value} {s : String}
    (hu : u = .objectPath s ∨ u = .string s) : fitWithin n .objectPath u = fitPath s := by
  obtain ⟨n, rfl⟩ := Nat.exists_eq_succ_of_ne_zero (Nat.ne_of_gt hn)
  rcases hu with rfl | rfl <;> rfl

end Value

/-! ## 4. Exporting -/

/-- Whatever is registered on the bus is under a path of the form. -/
def Bus.Addressed {η σ : Type} (b : Bus η σ) : Prop := ∀ key ∈ b.objects.keys, Written key.path

namespace Bus

variable {η σ : Type} {b b' : Bus η σ}

theorem addressed_empty (callTimeout : Nat) : (empty callTimeout : Bus η σ).Addressed := by
  intro key hkey
  cases hkey

theorem Addressed.mono (h : b.Addressed) (hkeys : ∀ key ∈ b'.objects.keys, key ∈ b.objects.keys) :
    b'.Addressed :=
  fun key hkey => h key (hkeys key hkey)

/-- Only what has the form is registered. -/
theorem Addressed.register (h : b.Addressed) {me path interface : String} {handler : η} {id : Nat}
    (hr : b.register me path interface handler = .ok (b', id)) : b'.Addressed := by
  have hwritten : Written path :=
    ObjectPath.isValid_iff.1 ((register_iff handler).1 ⟨_, hr⟩).2.1
  obtain ⟨-, rfl⟩ := register_eq_ok hr
  intro key hkey
  obtain ⟨r, hr⟩ := Table.mem_keys_iff.1 hkey
  rw [Table.get?_insert] at hr
  split at hr
  · rename_i heq
    exact heq ▸ hwritten
  · exact h key (Table.mem_keys_iff.2 ⟨r, hr⟩)

/-- **No operation registers anything else.** -/
theorem Addressed.apply (h : b.Addressed) (op : Operation η σ) : (b.apply op).Addressed := by
  cases op with
  | connect => exact h
  | close me =>
    show (b.close me).Addressed
    unfold Bus.close
    split
    · exact h.mono fun _ => Table.mem_keys_filter
    · exact h
  | ownName me name =>
    rcases b.apply_ownName me name with ⟨-, heq⟩ | heq <;> rw [heq] <;> exact h
  | releaseName me name =>
    rcases b.apply_releaseName me name with heq | heq <;> rw [heq] <;> exact h
  | register me path interface handler =>
    simp only [Bus.apply]
    cases hr : b.register me path interface handler with
    | ok r => exact h.register hr
    | error e => exact h
  | unregister id => exact h.mono fun _ => Table.mem_keys_filter
  | subscribe me rule sink => exact h
  | unsubscribe id => exact h
  | emit me m =>
    rw [(b.apply_emit me m).1]
    exact h
  | drain c => exact h

end Bus

namespace World

variable {w w' : World} {m : Move}

/-- Whatever is registered on any of the buses is under a path of the form. -/
def Addressed (w : World) : Prop := ∀ b, (w.bus b).Addressed

theorem Addressed.of_buses (h : w.Addressed) (hbuses : w'.buses = w.buses) : w'.Addressed := by
  intro b
  rw [World.bus, hbuses]
  exact h b

theorem Addressed.setBus (h : w.Addressed) (b : Nat) {x : Bus Nat Sink} (hx : x.Addressed) :
    (w.setBus b x).Addressed := by
  intro c
  rw [bus_setBus]
  split
  · exact hx
  · exact h c

/-- Each change that a move makes keeps the paths. -/
theorem Addressed.change {w₀ : World} (hc : Change w₀ m w w') (h : w.Addressed) :
    w'.Addressed := by
  cases hc with
  | inert hi => exact h.of_buses hi.buses
  | bus b op hop hi => exact (h.setBus b ((h b).apply op)).of_buses hi.buses
  | addBus _ => exact h.setBus _ (Bus.addressed_empty _)
  | addObject _ => exact h.of_buses rfl
  | @exported v id o link path registration _ ho _ hr =>
    refine Addressed.of_buses (w := v) ?_ rfl
    cases link with
    | bus b me =>
      simp only [World.register] at hr
      split at hr
      · rename_i hx
        cases hr
        exact h.setBus b ((h b).register hx)
      · cases hr
    | scripted n =>
      simp only [World.register] at hr
      split at hr
      · cases hr
      · cases hr
        have hasked := (inert_nextScriptedId w n).trans
          (inert_ask _ n (.exported path o.interface.name (w.nextScriptedId n).2))
        exact h.of_buses hasked.buses
  | @unexported id o place _ _ _ =>
    refine Addressed.of_buses (w := w.unregister place.link place.registration) ?_ rfl
    cases place.link with
    | bus b me => exact h.setBus b ((h b).apply (.unregister place.registration))
    | scripted n => exact h.of_buses (inert_ask w n _).buses
  | written _ _ _ => exact h.of_buses rfl
  | setCell _ => exact h.of_buses rfl
  | addProxy _ _ => exact h.of_buses rfl
  | learned _ _ => exact h.of_buses rfl

/-- **Whatever is registered is under a path of the form**, after every run. -/
theorem addressed_run (ms : List Move) : (empty.run ms).Addressed := by
  induction ms using List.reverseRecOn with
  | nil => exact fun _ => Bus.addressed_empty _
  | append_singleton ms m ih =>
    rw [run_append, run_cons, run_nil]
    exact act_keeps (orderly_run ms) (fun hc hv => hv.change hc) ih

end World

/-! ## 5. Everywhere -/

namespace ObjectPath

open Value (Visited)

/-- Where the text `path` is let through as an object path. -/
structure Recognised (path : String) : Prop where
  /-- The recogniser accepts it exactly if it has the form. -/
  valid : isValid path = true ↔ Written path
  /-- Where packing comes to it and an object path is asked for, it packs exactly if it has the
  form, whether it is a string or an object path already, -/
  packed (t : Tag) (v : Value) (d : Nat) (u : Value) (h : Visited .objectPath u d levels t v)
    (hd : d ≤ maxDepth) (hu : u = .objectPath path ∨ u = .string path) (w : Value) :
    Value.fitWithin (levels - d) .objectPath u = .ok w ↔ Written path ∧ w = .objectPath path
  /-- and it is refused for nothing else. -/
  refused (t : Tag) (v : Value) (d : Nat) (u : Value) (h : Visited .objectPath u d levels t v)
    (hd : d ≤ maxDepth) (hu : u = .objectPath path ∨ u = .string path) (e : PackError) :
    Value.fitWithin (levels - d) .objectPath u = .error e ↔
      ¬ Written path ∧ e = .invalidObjectPath path
  /-- No place is deeper than this, if the tag of the whole has been read or is inferred. -/
  placed (t : Tag) (v : Value) (d : Nat) (u : Value) (h : Visited .objectPath u d levels t v)
    (ht : (∃ s, Tag.parse s = .ok t) ∨ Value.inferWithin levels v = .ok t) : d ≤ maxDepth
  /-- What packs as a whole has the form in every such place. -/
  whole (ts : List Tag) (vs : List Value) (c : Container) (hc : Container.pack ts vs = .ok c)
    (p : Tag × Value) (hp : p ∈ ts.zip vs) (d : Nat) (u : Value)
    (h : Visited .objectPath u d levels p.1 p.2) (hu : u = .objectPath path ∨ u = .string path) :
    Written path
  /-- An export succeeds only if it has the form, -/
  exported (w : World) (id : Nat) (o : Object) (b : Nat) (me : String)
    (h : (w.exportObject id o (.bus b me) path).2 = .ok ()) : Written path
  /-- and fails otherwise, and changes nothing. -/
  withheld (h : ¬ Written path) (w : World) (id : Nat) (o : Object) (b : Nat) (me : String) :
    ∃ e, w.exportObject id o (.bus b me) path = (w, .error e)
  /-- So nothing else is ever registered on a bus. -/
  registered (ms : List Move) (b : Nat) (key : ObjectKey) (r : Registration Nat)
    (h : ((World.empty.run ms).bus b).objects.get? key = some r) (hkey : key.path = path) :
    Written path

/-- **Object paths are recognised exactly**, whatever the text. -/
theorem recognised_everywhere (path : String) : Recognised path where
  valid := isValid_iff
  packed t v d u h hd hu w := by
    rw [Value.fitWithin_objectPath (levels_sub_pos hd) hu]
    exact Value.fitPath_eq_ok
  refused t v d u h hd hu e := by
    rw [Value.fitWithin_objectPath (levels_sub_pos hd) hu]
    exact Value.fitPath_eq_error
  placed t v d u h ht := h.depth_le (Value.depth_le_of_asked ht)
  whole ts vs c hc p hp d u h hu := by
    obtain ⟨x, -, -, hfit, -⟩ := h.of_pack hc hp
    have hroom : 0 < levels - d := Value.pos_of_fitWithin hfit
    rw [Value.fitWithin_objectPath hroom hu] at hfit
    exact (Value.fitPath_eq_ok.1 hfit).1
  exported w id o b me h := isValid_iff.1 (World.exportObject_iff.1 h).2.2.1
  withheld h w id o b me := by
    have hfails : (w.exportObject id o (.bus b me) path).2 ≠ .ok () := fun hok =>
      h (isValid_iff.1 (World.exportObject_iff.1 hok).2.2.1)
    cases hresult : (w.exportObject id o (.bus b me) path).2 with
    | ok _ => exact absurd hresult hfails
    | error e => exact ⟨e, Prod.ext (World.exportObject_refused hfails) hresult⟩
  registered ms b key r h hkey :=
    hkey ▸ World.addressed_run ms b key (Table.mem_keys_iff.2 ⟨r, h⟩)

end ObjectPath

end MessageBus
