/-
# Written tags are a prefix code

`Tag.decomposes_uniquely` is the main theorem.  A text that is a concatenation of written tags is so
in one way: reading it gives the tags back, texts that are put together are read as their tags put
together, and no written tag begins another.

The two parts of this have different scopes.

* **Reading** (`Tag.parseMany_eq_ok`) is about tags that are well formed and nest no deeper than
allowed, since the reader accepts no others.  It follows from what the reader does with one tag.
* **Cancellation** (`Tag.chars_append_inj`) is about all tags, at any depth and with any keys, and
the reader is of no use for it.  It compares two written forms that begin one text, by the character
that they begin with, and leaves open what follows.

A tuple puts its tags one level deeper than they are on their own, so of tags that can be read a
tuple can be read only if each nests less than `maxDepth` levels (`Tag.parse_tuple`).
-/
import MessageBus.Proofs.Checks
import MessageBus.Proofs.Reading

namespace MessageBus.Tag

/-! ## 1. One written tag -/

/-- A written tag begins with a character that closes nothing and makes no array a dictionary. -/
theorem exists_chars_eq_cons (t : Tag) :
    ∃ c cs, t.chars = c :: cs ∧ c ≠ '{' ∧ c ≠ '}' ∧ c ≠ ')' := by
  cases t with
  | int k => cases k <;> exact ⟨_, _, rfl, by decide⟩
  | _ => exact ⟨_, _, rfl, by decide⟩

/-- So it is not the closing character of a container that comes next. -/
theorem chars_append_ne {t : Tag} {c : Char} (hc : c = '{' ∨ c = '}' ∨ c = ')')
    (rest rest' : List Char) : t.chars ++ rest ≠ c :: rest' := by
  obtain ⟨d, cs, ht, hb, hcb, hp⟩ := exists_chars_eq_cons t
  rw [ht]
  intro h
  obtain ⟨rfl, -⟩ := List.cons.inj h
  rcases hc with rfl | rfl | rfl
  · exact hb rfl
  · exact hcb rfl
  · exact hp rfl

/-- What a written tag begins with. -/
inductive Opening : Tag → Prop where
  /-- A code letter, and that is all. -/
  | letter {t : Tag} {c : Char} (hc : Reader.ofLetter c = some t) (h : t.chars = [c]) : Opening t
  | array (elem : Tag) : Opening (.array elem)
  | dict (key value : Tag) : Opening (.dict key value)
  | struct (fields : List Tag) : Opening (.struct fields)

theorem opening (t : Tag) : Opening t := by
  cases t with
  | int k => exact .letter (Reader.ofLetter_letter k) rfl
  | array elem => exact .array elem
  | dict key value => exact .dict key value
  | struct fields => exact .struct fields
  | _ => exact .letter rfl rfl

/-- A code letter begins no container. -/
theorem letter_ne {c : Char} {t : Tag} (hc : Reader.ofLetter c = some t) : c ≠ 'a' ∧ c ≠ '(' := by
  constructor <;> (rintro rfl; cases hc)

/-! ## 2. Cancellation -/

theorem letter_append_inj {t u : Tag} {c : Char} (hc : Reader.ofLetter c = some t)
    (ht : t.chars = [c]) {rest rest' : List Char} (h : t.chars ++ rest = u.chars ++ rest') :
    t = u ∧ rest = rest' := by
  rw [ht] at h
  cases opening u with
  | letter hc' hu =>
    rw [hu] at h
    obtain ⟨rfl, hrest⟩ := List.cons.inj h
    exact ⟨Option.some.inj (hc.symm.trans hc'), hrest⟩
  | array elem => exact absurd (List.cons.inj h).1 (letter_ne hc).1
  | dict key value => exact absurd (List.cons.inj h).1 (letter_ne hc).1
  | struct fields => exact absurd (List.cons.inj h).1 (letter_ne hc).2

mutual
/-- **A written tag can be told from what follows it**: two tags that begin one text are equal. -/
theorem chars_append_inj : ∀ (t u : Tag) {rest rest' : List Char},
    t.chars ++ rest = u.chars ++ rest' → t = u ∧ rest = rest'
  | .int k, _, _, _, h => letter_append_inj (Reader.ofLetter_letter k) rfl h
  | .bool, _, _, _, h | .double, _, _, _, h | .string, _, _, _, h | .objectPath, _, _, _, h
  | .signature, _, _, _, h | .variant, _, _, _, h => letter_append_inj rfl rfl h
  | .array elem, u, rest, rest', h => by
    cases opening u with
    | letter hc hu =>
      obtain ⟨rfl, rfl⟩ := letter_append_inj hc hu h.symm
      exact ⟨rfl, rfl⟩
    | array elem' =>
      obtain ⟨rfl, hrest⟩ := chars_append_inj elem elem' (List.cons.inj h).2
      exact ⟨rfl, hrest⟩
    | dict key value => exact absurd (List.cons.inj h).2 (chars_append_ne (.inl rfl) _ _)
    | struct fields => cases h
  | .dict key value, u, rest, rest', h => by
    cases opening u with
    | letter hc hu =>
      obtain ⟨rfl, rfl⟩ := letter_append_inj hc hu h.symm
      exact ⟨rfl, rfl⟩
    | array elem => exact absurd (List.cons.inj h).2.symm (chars_append_ne (.inl rfl) _ _)
    | dict key' value' =>
      simp only [chars, List.cons_append, List.append_assoc, List.cons.injEq, true_and] at h
      obtain ⟨rfl, hvalue⟩ := chars_append_inj key key' h
      obtain ⟨rfl, hrest⟩ := chars_append_inj value value' hvalue
      exact ⟨rfl, (List.cons.inj hrest).2⟩
    | struct fields => cases h
  | .struct fields, u, rest, rest', h => by
    cases opening u with
    | letter hc hu =>
      obtain ⟨rfl, rfl⟩ := letter_append_inj hc hu h.symm
      exact ⟨rfl, rfl⟩
    | array elem => cases h
    | dict key value => cases h
    | struct fields' =>
      simp only [chars, List.cons_append, List.append_assoc, List.cons.injEq, true_and] at h
      obtain ⟨rfl, hrest⟩ := charsAll_append_inj fields fields' h
      exact ⟨rfl, hrest⟩
/-- The fields of a struct end where it is closed. -/
theorem charsAll_append_inj : ∀ (ts us : List Tag) {rest rest' : List Char},
    charsAll ts ++ ')' :: rest = charsAll us ++ ')' :: rest' → ts = us ∧ rest = rest'
  | [], [], _, _, h => ⟨rfl, (List.cons.inj h).2⟩
  | [], u :: us, _, _, h => by
    rw [charsAll, charsAll, List.append_assoc] at h
    exact absurd h.symm (chars_append_ne (.inr (.inr rfl)) _ _)
  | t :: ts, [], _, _, h => by
    rw [charsAll, charsAll, List.append_assoc] at h
    exact absurd h (chars_append_ne (.inr (.inr rfl)) _ _)
  | t :: ts, u :: us, _, _, h => by
    simp only [charsAll, List.append_assoc] at h
    obtain ⟨rfl, htail⟩ := chars_append_inj t u h
    obtain ⟨rfl, hrest⟩ := charsAll_append_inj ts us htail
    exact ⟨rfl, hrest⟩
end

/-! ## 3. Texts -/

theorem toList_render (t : Tag) : t.render.toList = t.chars := String.toList_ofList

theorem toList_join_render (ts : List Tag) :
    (String.join (ts.map render)).toList = charsAll ts := by
  rw [String.toList_join]
  induction ts with
  | nil => rfl
  | cons t ts ih => rw [List.map_cons, List.flatMap_cons, toList_render, ih, charsAll]

/-- What is read is written as the text. -/
theorem join_render_eq_iff {ts : List Tag} {s : String} :
    String.join (ts.map render) = s ↔ charsAll ts = s.toList := by
  rw [← String.toList_inj, toList_join_render]

/-- The tags that can be read. -/
theorem exists_parse_iff {t : Tag} :
    (∃ s, parse s = .ok t) ↔ t.WellFormed ∧ t.depth ≤ maxDepth := by
  constructor
  · rintro ⟨s, hs⟩
    obtain ⟨hw, hl, -⟩ := sound_parse hs
    exact ⟨hw, hl⟩
  · rintro ⟨hw, hl⟩
    exact ⟨_, parse_render hw hl⟩

/-- Where any number of tags may stand, the characters of several have the effect of the tags. -/
theorem run_charsAll_start (rest : List Char) : ∀ (done ts : List Tag),
    (∀ t ∈ ts, t.WellFormed ∧ t.depth ≤ maxDepth) →
      Reader.run ⟨false, done, []⟩ (charsAll ts ++ rest) = Reader.run ⟨false, done ++ ts, []⟩ rest
  | done, [], _ => by rw [charsAll, List.nil_append, List.append_nil]
  | done, t :: ts, h => by
    obtain ⟨⟨hw, hl⟩, hts⟩ := List.forall_mem_cons.1 h
    have hready : Reader.Ready false done [] := fun h => nomatch h
    rw [charsAll, List.append_assoc, Reader.run_chars _ t hw hready (by simpa using hl)]
    show Reader.run ⟨false, done ++ [t], []⟩ (charsAll ts ++ rest) = _
    rw [run_charsAll_start rest (done ++ [t]) ts hts, List.append_assoc]
    rfl

/-- **A text is read as the tags that it spells**, if each of them can be read. -/
theorem parseMany_eq_ok {s : String} {ts : List Tag} :
    parseMany s = .ok ts ↔ (∀ t ∈ ts, t.WellFormed ∧ t.depth ≤ maxDepth) ∧
      charsAll ts = s.toList := by
  rw [parseMany, mapError_eq_ok]
  constructor
  · intro h
    obtain ⟨hchars, hall⟩ := Reader.sound_finish h
    exact ⟨hall, hchars⟩
  · rintro ⟨hall, hchars⟩
    have hrun : (Reader.start false).run (charsAll ts ++ []) = .ok ⟨false, ts, []⟩ :=
      run_charsAll_start [] [] ts hall
    rw [← hchars, ← List.append_nil (charsAll ts), hrun]
    rfl

theorem parseMany_append {s s' : String} {ts ts' : List Tag} (h : parseMany s = .ok ts)
    (h' : parseMany s' = .ok ts') : parseMany (s ++ s') = .ok (ts ++ ts') := by
  obtain ⟨hall, hchars⟩ := parseMany_eq_ok.1 h
  obtain ⟨hall', hchars'⟩ := parseMany_eq_ok.1 h'
  refine parseMany_eq_ok.2 ⟨List.forall_mem_append.2 ⟨hall, hall'⟩, ?_⟩
  rw [charsAll_append, hchars, hchars', String.toList_append]

theorem count_eq_ok {s : String} {n : Nat} :
    count s = .ok n ↔ ∃ ts, parseMany s = .ok ts ∧ ts.length = n := by
  rw [count]
  cases parseMany s <;> simp [Except.map]

/-! ## 4. Tuples -/

theorem tuple_inj {ts us : List Tag} (h : tuple ts = tuple us) : ts = us := by
  have hchars : (struct ts).chars ++ [] = (struct us).chars ++ [] := by
    rw [← toList_render, ← toList_render]
    exact congrArg (String.toList · ++ []) h
  exact Tag.struct.inj (chars_append_inj _ _ hchars).1

/-- **A tuple can be read** if its tags can, and have room one level down. -/
theorem parse_tuple {ts : List Tag} (h : ∀ t ∈ ts, ∃ s, parse s = .ok t) :
    parse (tuple ts) = .ok (.struct ts) ↔ ∀ t ∈ ts, t.depth < maxDepth := by
  have hw : (struct ts).WellFormed :=
    wellFormedAll_iff.2 fun t ht => (exists_parse_iff.1 (h t ht)).1
  rw [← height_le_iff]
  constructor
  · exact fun h => (sound_parse h).2.1
  · exact fun hl => parse_render hw hl

/-- Otherwise it is refused for its depth. -/
theorem parse_tuple_tooDeep {ts : List Tag} (h : ∀ t ∈ ts, ∃ s, parse s = .ok t)
    (hl : ¬ ∀ t ∈ ts, t.depth < maxDepth) : parse (tuple ts) = .error .recursionLimit := by
  have hw : (struct ts).WellFormed :=
    wellFormedAll_iff.2 fun t ht => (exists_parse_iff.1 (h t ht)).1
  rw [← height_le_iff, Nat.not_le] at hl
  exact parse_render_tooDeep hw hl

/-! ## 5. Unique decomposition -/

/-- How texts of several tags are put together and taken apart. -/
structure DecomposesUniquely : Prop where
  /-- The written forms of tags that can be read, one after the other, are read as the tags. -/
  read (ts : List Tag) (h : ∀ t ∈ ts, ∃ s, parse s = .ok t) :
    parseMany (String.join (ts.map render)) = .ok ts
  /-- What is read is written as the text. -/
  written (s : String) (ts : List Tag) (h : parseMany s = .ok ts) :
    String.join (ts.map render) = s
  /-- Texts that are put together are read as their tags put together, -/
  append (s s' : String) (ts ts' : List Tag) (h : parseMany s = .ok ts)
    (h' : parseMany s' = .ok ts') : parseMany (s ++ s') = .ok (ts ++ ts')
  /-- and there are as many as in both. -/
  count (s s' : String) (n n' : Nat) (h : Tag.count s = .ok n) (h' : Tag.count s' = .ok n') :
    Tag.count (s ++ s') = .ok (n + n')
  /-- No tag is written as the beginning of what another is written as, whether they can be read or
  not. -/
  prefixFree (t u : Tag) (rest : String) (h : u.render = t.render ++ rest) : t = u ∧ rest = ""
  /-- A tuple tells its tags, whether they can be read or not. -/
  tuple (ts us : List Tag) (h : Tag.tuple ts = Tag.tuple us) : ts = us
  /-- A tuple of tags that can be read is read as a struct exactly if none of them nests as deep as
  is allowed; -/
  struct (ts : List Tag) (h : ∀ t ∈ ts, ∃ s, parse s = .ok t) :
    parse (Tag.tuple ts) = .ok (.struct ts) ↔ ∀ t ∈ ts, t.depth < maxDepth
  /-- if one does, the tuple is refused for its depth. -/
  tooDeep (ts : List Tag) (h : ∀ t ∈ ts, ∃ s, parse s = .ok t) (t : Tag) (ht : t ∈ ts)
    (hl : t.depth = maxDepth) : parse (Tag.tuple ts) = .error .recursionLimit

/-- **A signature decomposes in one way** into the tags that it is made of. -/
theorem decomposes_uniquely : DecomposesUniquely where
  read ts h :=
    parseMany_eq_ok.2 ⟨fun t ht => exists_parse_iff.1 (h t ht), (toList_join_render ts).symm⟩
  written s ts h := join_render_eq_iff.2 (parseMany_eq_ok.1 h).2
  append s s' ts ts' h h' := parseMany_append h h'
  count s s' n n' h h' := by
    obtain ⟨ts, hts, rfl⟩ := count_eq_ok.1 h
    obtain ⟨ts', hts', rfl⟩ := count_eq_ok.1 h'
    exact count_eq_ok.2 ⟨_, parseMany_append hts hts', List.length_append⟩
  prefixFree t u rest h := by
    have hchars : u.chars = t.chars ++ rest.toList := by
      rw [← toList_render, h, String.toList_append, toList_render]
    obtain ⟨rfl, hrest⟩ := chars_append_inj t u (hchars.symm.trans (List.append_nil _).symm)
    exact ⟨rfl, String.toList_eq_nil_iff.1 hrest⟩
  tuple ts us h := tuple_inj h
  struct ts h := parse_tuple h
  tooDeep ts h t ht hl := parse_tuple_tooDeep h fun hall => absurd hl (Nat.ne_of_lt (hall t ht))

/-- An array of bytes, a dictionary and an empty struct, one after the other. -/
example : parseMany ("ay" ++ "a\x7bsv\x7d()") =
    .ok [.array (.int .byte), .dict .string .variant, .struct []] := rfl

end MessageBus.Tag
