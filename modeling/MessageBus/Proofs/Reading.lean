/-
# The reader reads the grammar, and nothing else

`Tag.parse_exact` is the main theorem: a text is accepted as the tag `t` exactly if `t` is well
formed, nests at most `maxDepth` levels, and is written as the text.  A text that spells a
well-formed tag of greater depth is refused for its depth, and any other text is an error too.

The reader keeps a stack of open containers where a grammar has nested rules, so the two directions
need two statements about the stack.

* **Completeness** (`run_chars`): wherever a tag may begin, the characters of `t` have the same
  effect as handing `t` to the innermost open container in one go.  The induction is on the tag,
  with the characters that follow left open.
* **Soundness** (`sound_step`): the characters taken so far are what the completed tags and the open
  containers spell (`Reader.text`), and every tag among them is well formed and lies no deeper than
  allowed (`Reader.Sound`).  Every step keeps this, so the induction is on the text.

The limit on nesting is a limit on the stack, and the bound in both is the same sum: the height of
the stack at the place where a tag begins, and the depth of the tag.
-/
import MessageBus.Packing.Canonical

namespace MessageBus

namespace Tag

/-! ## 1. Several tags one after the other -/

theorem charsAll_append (ss ts : List Tag) : charsAll (ss ++ ts) = charsAll ss ++ charsAll ts := by
  induction ss with
  | nil => rfl
  | cons s ss ih => simp only [List.cons_append, charsAll, ih, List.append_assoc]

theorem height_append (ss ts : List Tag) : height (ss ++ ts) = max (height ss) (height ts) := by
  induction ss with
  | nil => simp [height]
  | cons s ss ih => simp only [List.cons_append, height, ih, Nat.max_assoc]

theorem wellFormedAll_append (ss ts : List Tag) :
    WellFormedAll (ss ++ ts) ↔ WellFormedAll ss ∧ WellFormedAll ts := by
  induction ss with
  | nil => simp [WellFormedAll]
  | cons s ss ih => simp only [List.cons_append, WellFormedAll, ih, and_assoc]

/-- Several tags nest one level deeper than the deepest of them. -/
theorem height_le_iff {ts : List Tag} {n : Nat} : height ts ≤ n ↔ ∀ t ∈ ts, t.depth < n := by
  induction ts with
  | nil => simp [height]
  | cons t ts ih => rw [height, Nat.max_le, List.forall_mem_cons, ih, Nat.succ_le_iff]

theorem wellFormedAll_iff {ts : List Tag} : WellFormedAll ts ↔ ∀ t ∈ ts, t.WellFormed := by
  induction ts with
  | nil => simp [WellFormedAll]
  | cons t ts ih => rw [WellFormedAll, List.forall_mem_cons, ih]

/-- A basic tag has nothing below it. -/
theorem depth_of_isBasic {t : Tag} (h : t.isBasic = true) : t.depth = 0 := by
  cases t <;> first | rfl | cases h

namespace Reader

/-! ## 2. One character -/

/-- The reader after some tags have been completed and some containers opened or closed. -/
def resume (alone : Bool) (p : List Tag × List Frame) : Reader := ⟨alone, p.1, p.2⟩

/-- What a character does to the tags and the open containers. -/
def take (alone : Bool) (done : List Tag) (c : Char) :
    List Frame → Except Fault (List Tag × List Frame)
  | [] => if alone && !done.isEmpty then .error .malformed else begin done [] c
  | .array :: fs => if c = '{' then .ok (done, .key :: fs) else begin done (.array :: fs) c
  | .key :: fs => begin done (.key :: fs) c
  | .value k :: fs => begin done (.value k :: fs) c
  | .entry k v :: fs => if c = '}' then put done (.dict k v) fs else .error .malformed
  | .struct ts :: fs =>
    if c = ')' then put done (.struct ts) fs else begin done (.struct ts :: fs) c

theorem step_eq (alone : Bool) (done : List Tag) (fs : List Frame) (c : Char) :
    step ⟨alone, done, fs⟩ c = take alone done c fs >>= fun p => .ok (resume alone p) := by
  rcases fs with - | ⟨f, fs⟩
  · simp only [step, take]
    split <;> rfl
  · cases f <;> simp only [step, take] <;> first | rfl | (split <;> rfl)

/-- The first character takes effect, and then the others do. -/
theorem run_cons (alone : Bool) (done : List Tag) (fs : List Frame) (c : Char) (cs : List Char) :
    run ⟨alone, done, fs⟩ (c :: cs)
      = take alone done c fs >>= fun p => run (resume alone p) cs := by
  show step ⟨alone, done, fs⟩ c >>= (run · cs) = _
  rw [step_eq]
  cases take alone done c fs <;> rfl

/-! ## 3. Where a tag may begin -/

/-- Whether a tag may begin: not after a dictionary's value, and not after a tag that is to stand
alone. -/
def Ready (alone : Bool) (done : List Tag) : List Frame → Prop
  | [] => alone = true → done = []
  | .entry _ _ :: _ => False
  | _ => True

@[simp] theorem ready_array {alone : Bool} {done : List Tag} {fs : List Frame} :
    Ready alone done (.array :: fs) := trivial

@[simp] theorem ready_key {alone : Bool} {done : List Tag} {fs : List Frame} :
    Ready alone done (.key :: fs) := trivial

@[simp] theorem ready_value {alone : Bool} {done : List Tag} {fs : List Frame} {k : Tag} :
    Ready alone done (.value k :: fs) := trivial

@[simp] theorem ready_struct {alone : Bool} {done : List Tag} {fs : List Frame} {ts : List Tag} :
    Ready alone done (.struct ts :: fs) := trivial

theorem take_of_ready {alone : Bool} {done : List Tag} {fs : List Frame}
    (h : Ready alone done fs) {c : Char} (hb : c ≠ '{') (hp : c ≠ ')') :
    take alone done c fs = begin done fs c := by
  rcases fs with - | ⟨f, fs⟩
  · have hd : ¬ (alone && !done.isEmpty) = true := by
      cases alone with
      | false => simp
      | true => simp [h rfl]
    exact if_neg hd
  · cases f with
    | entry k v => exact h.elim
    | array => exact if_neg hb
    | struct ts => exact if_neg hp
    | key => rfl
    | value k => rfl

/-- A code letter hands its tag on. -/
theorem run_letter {alone : Bool} {done : List Tag} {fs : List Frame} (h : Ready alone done fs)
    (hl : fs.length ≤ maxDepth) {c : Char} {t : Tag} (hc : ofLetter c = some t)
    (rest : List Char) :
    run ⟨alone, done, fs⟩ (c :: rest)
      = put done t fs >>= fun p => run (resume alone p) rest := by
  have hne : c ≠ '{' ∧ c ≠ ')' ∧ c ≠ 'a' ∧ c ≠ '(' := by
    refine ⟨?_, ?_, ?_, ?_⟩ <;> (rintro rfl; cases hc)
  rw [run_cons, take_of_ready h hne.1 hne.2.1, begin, if_neg (Nat.not_lt.2 hl),
    if_neg hne.2.2.1, if_neg hne.2.2.2, hc]

/-- An opening letter opens an array. -/
theorem run_array {alone : Bool} {done : List Tag} {fs : List Frame} (h : Ready alone done fs)
    (hl : fs.length < maxDepth) (rest : List Char) :
    run ⟨alone, done, fs⟩ ('a' :: rest) = run ⟨alone, done, .array :: fs⟩ rest := by
  rw [run_cons, take_of_ready h (by decide) (by decide), begin, if_neg (Nat.lt_asymm hl),
    if_pos rfl, if_neg (Nat.ne_of_lt hl)]
  rfl

/-- An opening parenthesis opens a struct. -/
theorem run_struct {alone : Bool} {done : List Tag} {fs : List Frame} (h : Ready alone done fs)
    (hl : fs.length ≤ maxDepth) (rest : List Char) :
    run ⟨alone, done, fs⟩ ('(' :: rest) = run ⟨alone, done, .struct [] :: fs⟩ rest := by
  rw [run_cons, take_of_ready h (by decide) (by decide), begin, if_neg (Nat.not_lt.2 hl),
    if_neg (by decide), if_pos rfl]
  rfl

/-- A brace makes an array a dictionary. -/
theorem run_brace {alone : Bool} {done : List Tag} {fs : List Frame} (rest : List Char) :
    run ⟨alone, done, .array :: fs⟩ ('{' :: rest) = run ⟨alone, done, .key :: fs⟩ rest := rfl

theorem put_key {done : List Tag} {fs : List Frame} {k : Tag} (h : k.isBasic = true) :
    put done k (.key :: fs) = .ok (done, .value k :: fs) := if_pos h

/-- A closing brace completes a dictionary. -/
theorem run_closeBrace {alone : Bool} {done : List Tag} {fs : List Frame} {k v : Tag}
    (rest : List Char) :
    run ⟨alone, done, .entry k v :: fs⟩ ('}' :: rest)
      = put done (.dict k v) fs >>= fun p => run (resume alone p) rest := by
  rw [run_cons, take, if_pos rfl]

/-- A closing parenthesis completes a struct. -/
theorem run_closeParenthesis {alone : Bool} {done : List Tag} {fs : List Frame} {ts : List Tag}
    (rest : List Char) :
    run ⟨alone, done, .struct ts :: fs⟩ (')' :: rest)
      = put done (.struct ts) fs >>= fun p => run (resume alone p) rest := by
  rw [run_cons, take, if_pos rfl]

/-- Below the last level nothing begins. -/
theorem run_below {alone : Bool} {done : List Tag} {fs : List Frame} (h : Ready alone done fs)
    (hl : maxDepth < fs.length) {c : Char} (hb : c ≠ '{') (hp : c ≠ ')') (rest : List Char) :
    run ⟨alone, done, fs⟩ (c :: rest) = .error .tooDeep := by
  rw [run_cons, take_of_ready h hb hp, begin, if_pos hl]
  rfl

/-- On the last level no array opens: it would have no room for an element. -/
theorem run_array_below {alone : Bool} {done : List Tag} {fs : List Frame}
    (h : Ready alone done fs) (hl : maxDepth ≤ fs.length) (rest : List Char) :
    run ⟨alone, done, fs⟩ ('a' :: rest) = .error .tooDeep := by
  rcases Nat.lt_or_eq_of_le hl with hlt | heq
  · exact run_below h hlt (by decide) (by decide) rest
  · rw [run_cons, take_of_ready h (by decide) (by decide), begin, if_neg (by omega), if_pos rfl,
      if_pos heq.symm]
    rfl

theorem ofLetter_letter (k : IntKind) : ofLetter k.letter = some (.int k) := by
  cases k <;> rfl

/-! ## 4. Every written tag is read -/

mutual
/-- **The characters of a tag have the effect of the tag**, wherever a tag may begin and there is
room for it. -/
theorem run_chars {alone : Bool} {done : List Tag} {fs : List Frame} (rest : List Char) :
    ∀ t : Tag, t.WellFormed → Ready alone done fs → fs.length + t.depth ≤ maxDepth →
      run ⟨alone, done, fs⟩ (t.chars ++ rest)
        = put done t fs >>= fun p => run (resume alone p) rest
  | .int k, _, h, hl => run_letter h hl (ofLetter_letter k) rest
  | .bool, _, h, hl | .double, _, h, hl | .string, _, h, hl | .objectPath, _, h, hl
  | .signature, _, h, hl | .variant, _, h, hl => run_letter h hl rfl rest
  | .array elem, hw, h, hl => by
    simp only [depth] at hl
    rw [chars, List.cons_append, run_array h (by omega),
      run_chars rest elem hw ready_array (by simp only [List.length_cons]; omega)]
    rfl
  | .dict key value, ⟨hb, hk, hv⟩, h, hl => by
    simp only [depth] at hl
    simp only [chars, List.cons_append, List.append_assoc, List.nil_append]
    rw [run_array h (by omega), run_brace,
      run_chars _ key hk ready_key (by simp only [List.length_cons]; omega), put_key hb]
    show run ⟨alone, done, .value key :: fs⟩ (value.chars ++ '}' :: rest) = _
    rw [run_chars _ value hv ready_value (by simp only [List.length_cons]; omega)]
    exact run_closeBrace rest
  | .struct fields, hw, h, hl => by
    simp only [depth] at hl
    simp only [chars, List.cons_append, List.append_assoc, List.nil_append]
    rw [run_struct h (by omega), run_charsAll [] _ fields hw hl, List.nil_append,
      run_closeParenthesis]
/-- The characters of a struct's fields are read as the fields. -/
theorem run_charsAll {alone : Bool} {done : List Tag} {fs : List Frame} (read : List Tag)
    (rest : List Char) :
    ∀ ts : List Tag, WellFormedAll ts → fs.length + height ts ≤ maxDepth →
      run ⟨alone, done, .struct read :: fs⟩ (charsAll ts ++ rest)
        = run ⟨alone, done, .struct (read ++ ts) :: fs⟩ rest
  | [], _, _ => by rw [charsAll, List.nil_append, List.append_nil]
  | t :: ts, ⟨ht, hts⟩, hl => by
    simp only [height] at hl
    rw [charsAll, List.append_assoc,
      run_chars _ t ht ready_struct (by simp only [List.length_cons]; omega)]
    show run ⟨alone, done, .struct (read ++ [t]) :: fs⟩ (charsAll ts ++ rest) = _
    rw [run_charsAll (read ++ [t]) rest ts hts (by omega), List.append_assoc]
    rfl
end

/-! ## 5. A tag that nests too deep is refused -/

mutual
/-- **A tag without room is refused for its depth**, wherever a tag may begin. -/
theorem run_chars_tooDeep {alone : Bool} {done : List Tag} {fs : List Frame} (rest : List Char) :
    ∀ t : Tag, t.WellFormed → Ready alone done fs → maxDepth < fs.length + t.depth →
      run ⟨alone, done, fs⟩ (t.chars ++ rest) = .error .tooDeep
  | .int k, _, h, hl => by
    have hc : k.letter ≠ '{' ∧ k.letter ≠ ')' := by cases k <;> decide
    exact run_below h hl hc.1 hc.2 rest
  | .bool, _, h, hl | .double, _, h, hl | .string, _, h, hl | .objectPath, _, h, hl
  | .signature, _, h, hl | .variant, _, h, hl => run_below h hl (by decide) (by decide) rest
  | .array elem, hw, h, hl => by
    simp only [depth] at hl
    rw [chars, List.cons_append]
    rcases Nat.lt_or_ge fs.length maxDepth with hlt | hge
    · rw [run_array h hlt]
      exact run_chars_tooDeep rest elem hw ready_array (by simp only [List.length_cons]; omega)
    · exact run_array_below h hge _
  | .dict key value, ⟨hb, hk, hv⟩, h, hl => by
    -- The key is basic, so it is the value that lacks the room.
    have hd : key.depth = 0 := depth_of_isBasic hb
    simp only [depth, hd] at hl
    simp only [chars, List.cons_append, List.append_assoc, List.nil_append]
    rcases Nat.lt_or_ge fs.length maxDepth with hlt | hge
    · rw [run_array h hlt, run_brace,
        run_chars _ key hk ready_key (by simp only [List.length_cons]; omega), put_key hb]
      exact run_chars_tooDeep _ value hv ready_value (by simp only [List.length_cons]; omega)
    · exact run_array_below h hge _
  | .struct fields, hw, h, hl => by
    simp only [depth] at hl
    simp only [chars, List.cons_append, List.append_assoc, List.nil_append]
    rcases Nat.lt_or_ge maxDepth fs.length with hlt | hge
    · exact run_below h hlt (by decide) (by decide) _
    · rw [run_struct h hge]
      exact run_charsAll_tooDeep [] _ fields hw hge hl
/-- Of a struct's fields one has no room, and those before it are read. -/
theorem run_charsAll_tooDeep {alone : Bool} {done : List Tag} {fs : List Frame} (read : List Tag)
    (rest : List Char) :
    ∀ ts : List Tag, WellFormedAll ts → fs.length ≤ maxDepth → maxDepth < fs.length + height ts →
      run ⟨alone, done, .struct read :: fs⟩ (charsAll ts ++ rest) = .error .tooDeep
  | [], _, hf, hl => absurd hl (Nat.not_lt.2 hf)
  | t :: ts, ⟨ht, hts⟩, hf, hl => by
    simp only [height] at hl
    rw [charsAll, List.append_assoc]
    rcases Nat.lt_or_ge maxDepth (fs.length + 1 + t.depth) with hd | hd
    · exact run_chars_tooDeep _ t ht ready_struct hd
    · rw [run_chars _ t ht ready_struct hd]
      exact run_charsAll_tooDeep (read ++ [t]) rest ts hts hf (by omega)
end

end Reader

/-! ## 6. What has been read is written -/

/-- The characters that were taken for an open container. -/
def Frame.chars : Frame → List Char
  | .array => ['a']
  | .key => ['a', '{']
  | .value k => 'a' :: '{' :: k.chars
  | .entry k v => 'a' :: '{' :: (k.chars ++ v.chars)
  | .struct ts => '(' :: charsAll ts

/-- The characters that were taken for open containers, the innermost of which comes first in the
list and last in the text. -/
def Frame.charsAll : List Frame → List Char
  | [] => []
  | f :: fs => charsAll fs ++ f.chars

/-- Whether an open container may stand inside `n` others: there is room for what it still needs,
and what it has is well formed. -/
def Frame.Sound (n : Nat) : Frame → Prop
  | .array | .key => n < maxDepth
  | .value k => n < maxDepth ∧ k.isBasic = true ∧ k.WellFormed
  | .entry k v =>
    n < maxDepth ∧ k.isBasic = true ∧ k.WellFormed ∧ v.WellFormed ∧ n + 1 + v.depth ≤ maxDepth
  | .struct ts => n ≤ maxDepth ∧ WellFormedAll ts ∧ n + height ts ≤ maxDepth

/-- Whether every open container may stand inside those that come after it in the list. -/
def Frame.SoundAll : List Frame → Prop
  | [] => True
  | f :: fs => f.Sound fs.length ∧ SoundAll fs

namespace Reader

/-- The characters that a reader has taken. -/
def text (r : Reader) : List Char := charsAll r.done ++ Frame.charsAll r.stack

/-- The tags a reader has completed are well formed and nest no deeper than allowed, and so will be
those it has begun. -/
structure Sound (r : Reader) : Prop where
  done : ∀ t ∈ r.done, t.WellFormed ∧ t.depth ≤ maxDepth
  stack : Frame.SoundAll r.stack

/-- Handing on a tag that has room keeps the reader sound and takes the tag's characters. -/
theorem sound_put {alone : Bool} {done : List Tag} : ∀ {fs : List Frame} {t : Tag}
    {p : List Tag × List Frame}, put done t fs = .ok p → Sound ⟨alone, done, fs⟩ →
      t.WellFormed → fs.length + t.depth ≤ maxDepth →
      Sound (resume alone p) ∧ (resume alone p).text = text ⟨alone, done, fs⟩ ++ t.chars
  | [], t, p, h, hs, hw, hl => by
    cases h
    refine ⟨⟨?_, trivial⟩, ?_⟩
    · intro u hu
      rcases List.mem_append.1 hu with hu | hu
      · exact hs.done u hu
      · cases List.mem_singleton.1 hu
        exact ⟨hw, by simpa using hl⟩
    · simp [resume, text, Frame.charsAll, charsAll_append, charsAll]
  | .array :: fs, t, p, h, ⟨hd, hf, hfs⟩, hw, hl => by
    have hroom : fs.length + (Tag.array t).depth ≤ maxDepth := by
      simp only [List.length_cons, depth] at hl ⊢
      omega
    have hs : Sound ⟨alone, done, fs⟩ := ⟨hd, hfs⟩
    have h : put done (.array t) fs = .ok p := h
    obtain ⟨hp, htext⟩ := sound_put h hs hw hroom
    refine ⟨hp, htext.trans ?_⟩
    simp [text, Frame.charsAll, Frame.chars, Tag.chars]
  | .key :: fs, t, p, h, ⟨hd, hf, hfs⟩, hw, hl => by
    simp only [put] at h
    split at h
    · cases h
      refine ⟨⟨hd, ⟨hf, ‹_›, hw⟩, hfs⟩, ?_⟩
      simp [resume, text, Frame.charsAll, Frame.chars]
    · cases h
  | .value k :: fs, t, p, h, ⟨hd, ⟨hf, hb, hk⟩, hfs⟩, hw, hl => by
    cases h
    refine ⟨⟨hd, ⟨hf, hb, hk, hw, hl⟩, hfs⟩, ?_⟩
    simp [resume, text, Frame.charsAll, Frame.chars]
  | .entry k v :: fs, t, p, h, _, _, _ => by cases h
  | .struct ts :: fs, t, p, h, ⟨hd, ⟨hf, hts, hh⟩, hfs⟩, hw, hl => by
    cases h
    have hroom : fs.length + height (ts ++ [t]) ≤ maxDepth := by
      simp only [height_append, height, List.length_cons] at hl ⊢
      omega
    refine ⟨⟨hd, ⟨hf, (wellFormedAll_append _ _).2 ⟨hts, hw, trivial⟩, hroom⟩, hfs⟩, ?_⟩
    simp [resume, text, Frame.charsAll, Frame.chars, charsAll_append, Tag.charsAll]

theorem chars_of_ofLetter {c : Char} {t : Tag} (h : ofLetter c = some t) :
    t.chars = [c] ∧ t.WellFormed ∧ t.depth = 0 := by
  unfold ofLetter at h
  split at h <;> cases h <;> exact ⟨rfl, trivial, rfl⟩

/-- Taking a character where a tag is due keeps the reader sound. -/
theorem sound_begin {alone : Bool} {done : List Tag} {fs : List Frame} {c : Char}
    {p : List Tag × List Frame} (h : begin done fs c = .ok p) (hs : Sound ⟨alone, done, fs⟩) :
    Sound (resume alone p) ∧ (resume alone p).text = text ⟨alone, done, fs⟩ ++ [c] := by
  unfold begin at h
  split at h
  · cases h
  · have hf : fs.length ≤ maxDepth := Nat.not_lt.1 ‹_›
    split at h
    · split at h
      · cases h
      · cases h
        subst c
        refine ⟨⟨hs.done, Nat.lt_of_le_of_ne hf ‹_›, hs.stack⟩, ?_⟩
        simp [resume, text, Frame.charsAll, Frame.chars]
    · split at h
      · cases h
        subst c
        refine ⟨⟨hs.done, ⟨hf, trivial, by simpa [height] using hf⟩, hs.stack⟩, ?_⟩
        simp [resume, text, Frame.charsAll, Frame.chars, Tag.charsAll]
      · split at h
        · rename_i t hc
          obtain ⟨hchars, hw, hd⟩ := chars_of_ofLetter hc
          exact hchars ▸ sound_put h hs hw (by omega)
        · cases h

/-- **A step keeps the reader sound, and takes its character.** -/
theorem sound_step {r r' : Reader} {c : Char} (h : step r c = .ok r') (hs : r.Sound) :
    r'.Sound ∧ r'.text = r.text ++ [c] := by
  obtain ⟨alone, done, stack⟩ := r
  rw [step_eq] at h
  obtain ⟨p, hp, h⟩ := bind_eq_ok.1 h
  cases h
  show Sound (resume alone p) ∧ (resume alone p).text = _
  cases stack with
  | nil =>
    simp only [take] at hp
    split at hp
    · cases hp
    · exact sound_begin hp hs
  | cons f fs =>
    cases f with
    | array =>
      simp only [take] at hp
      split at hp
      · cases hp
        subst c
        refine ⟨⟨hs.done, hs.stack⟩, ?_⟩
        simp [resume, text, Frame.charsAll, Frame.chars]
      · exact sound_begin hp hs
    | key => exact sound_begin hp hs
    | value k => exact sound_begin hp hs
    | entry k v =>
      simp only [take] at hp
      split at hp
      · subst c
        obtain ⟨hd, ⟨hf, hb, hk, hv, hroom⟩, hfs⟩ := hs
        have hdepth : fs.length + (Tag.dict k v).depth ≤ maxDepth := by
          simp only [depth, depth_of_isBasic hb]
          omega
        have hs : Sound ⟨alone, done, fs⟩ := ⟨hd, hfs⟩
        obtain ⟨hp, htext⟩ := sound_put hp hs ⟨hb, hk, hv⟩ hdepth
        refine ⟨hp, htext.trans ?_⟩
        simp [text, Frame.charsAll, Frame.chars, Tag.chars]
      · cases hp
    | struct ts =>
      simp only [take] at hp
      split at hp
      · subst c
        obtain ⟨hd, ⟨hf, hts, hroom⟩, hfs⟩ := hs
        have hs : Sound ⟨alone, done, fs⟩ := ⟨hd, hfs⟩
        obtain ⟨hp, htext⟩ := sound_put hp hs hts hroom
        refine ⟨hp, htext.trans ?_⟩
        simp [text, Frame.charsAll, Frame.chars, Tag.chars]
      · exact sound_begin hp hs

/-- Reading keeps the reader sound, and takes the text. -/
theorem sound_run {cs : List Char} : ∀ {r r' : Reader}, run r cs = .ok r' → r.Sound →
    r'.Sound ∧ r'.text = r.text ++ cs := by
  induction cs with
  | nil =>
    intro r r' h hs
    cases h
    exact ⟨hs, (List.append_nil _).symm⟩
  | cons c cs ih =>
    intro r r' h hs
    obtain ⟨m, hm, h⟩ := bind_eq_ok.1 (show step r c >>= (run · cs) = .ok r' from h)
    obtain ⟨hsm, htm⟩ := sound_step hm hs
    obtain ⟨hsr, htr⟩ := ih h hsm
    exact ⟨hsr, by rw [htr, htm, List.append_assoc]; rfl⟩

theorem sound_start (alone : Bool) : (start alone).Sound := ⟨by simp [start], trivial⟩

/-- The tags that a reader ends with are well formed, nest no deeper than allowed, and spell the
text. -/
theorem sound_finish {alone : Bool} {cs : List Char} {ts : List Tag}
    (h : (start alone).run cs >>= finish = .ok ts) :
    charsAll ts = cs ∧ ∀ t ∈ ts, t.WellFormed ∧ t.depth ≤ maxDepth := by
  obtain ⟨r, hr, h⟩ := bind_eq_ok.1 h
  obtain ⟨hs, ht⟩ := sound_run hr (sound_start alone)
  unfold finish at h
  split at h
  · rename_i hnil
    cases h
    have htext : r.text = cs := ht
    rw [text, List.isEmpty_iff.1 hnil, Frame.charsAll, List.append_nil] at htext
    exact ⟨htext, hs.done⟩
  · cases h

end Reader

/-! ## 7. The reader and the grammar -/

/-- A tag that is read is well formed, nests no deeper than allowed, and is written as the text. -/
theorem sound_parse {s : String} {t : Tag} (h : parse s = .ok t) :
    t.WellFormed ∧ t.depth ≤ maxDepth ∧ t.render = s := by
  unfold parse at h
  split at h
  · rename_i u hu
    cases h
    obtain ⟨hchars, hall⟩ := Reader.sound_finish hu
    have hrender : t.chars = s.toList := by simpa [charsAll] using hchars
    obtain ⟨hw, hl⟩ := hall t (List.mem_singleton_self t)
    exact ⟨hw, hl, by rw [render, hrender, String.ofList_toList]⟩
  · cases h
  · cases h

theorem run_toList_render (t : Tag) (alone : Bool) :
    (Reader.start alone).run t.render.toList = (Reader.start alone).run (t.chars ++ []) := by
  rw [render, String.toList_ofList, List.append_nil]

/-- A well-formed tag is read back from its written form. -/
theorem parse_render {t : Tag} (hw : t.WellFormed) (hl : t.depth ≤ maxDepth) :
    parse t.render = .ok t := by
  have hready : Reader.Ready true [] [] := fun _ => rfl
  have hrun : (Reader.start true).run t.render.toList = .ok ⟨true, [t], []⟩ := by
    rw [run_toList_render]
    exact Reader.run_chars [] t hw hready (by simpa using hl)
  rw [parse, hrun]
  rfl

/-- A well-formed tag that nests too deep is refused for that. -/
theorem parse_render_tooDeep {t : Tag} (hw : t.WellFormed) (hl : maxDepth < t.depth) :
    parse t.render = .error .recursionLimit := by
  have hready : Reader.Ready true [] [] := fun _ => rfl
  have hrun : (Reader.start true).run t.render.toList = .error .tooDeep := by
    rw [run_toList_render]
    exact Reader.run_chars_tooDeep [] t hw hready (by simpa using hl)
  rw [parse, hrun]
  rfl

/-- A text that is not accepted is refused with one of two errors. -/
theorem parse_error {s : String} (h : ∀ t, parse s ≠ .ok t) :
    parse s = .error (.invalidSignature s) ∨ parse s = .error .recursionLimit := by
  unfold parse at h ⊢
  split
  · rename_i t ht
    exact absurd (by rw [ht]) (h t)
  · exact .inl rfl
  · rename_i f _
    cases f with
    | malformed => exact .inl rfl
    | tooDeep => exact .inr rfl

/-- What the reader makes of the text `s`. -/
structure ReadsExactly (s : String) : Prop where
  /-- It accepts the text as `t` exactly if `t` is well formed, nests no deeper than allowed, and is
  written as the text. -/
  accepted (t : Tag) : parse s = .ok t ↔ t.WellFormed ∧ t.depth ≤ maxDepth ∧ t.render = s
  /-- There is at most one such tag. -/
  unique (t u : Tag) (ht : t.WellFormed ∧ t.depth ≤ maxDepth ∧ t.render = s)
    (hu : u.WellFormed ∧ u.depth ≤ maxDepth ∧ u.render = s) : t = u
  /-- If the text spells a well-formed tag of greater depth, the error says that. -/
  tooDeep (t : Tag) (hw : t.WellFormed) (hl : maxDepth < t.depth) (hr : t.render = s) :
    parse s = .error .recursionLimit
  /-- A text that spells no well-formed tag is an error. -/
  refused (h : ∀ t : Tag, t.WellFormed → t.render ≠ s) :
    parse s = .error (.invalidSignature s) ∨ parse s = .error .recursionLimit

/-- **The reader accepts its grammar, and nothing else**, whatever the text. -/
theorem parse_exact (s : String) : ReadsExactly s := by
  have accepted (t : Tag) : parse s = .ok t ↔ t.WellFormed ∧ t.depth ≤ maxDepth ∧ t.render = s := by
    constructor
    · exact sound_parse
    · rintro ⟨hw, hl, rfl⟩
      exact parse_render hw hl
  refine ⟨accepted, ?_, ?_, ?_⟩
  · intro t u ht hu
    have h : (Except.ok t : Except PackError Tag) = .ok u :=
      ((accepted t).2 ht).symm.trans ((accepted u).2 hu)
    exact Except.ok.inj h
  · rintro t hw hl rfl
    exact parse_render_tooDeep hw hl
  · intro h
    refine parse_error fun t ht => ?_
    obtain ⟨hw, -, hr⟩ := sound_parse ht
    exact h t hw hr

end Tag

end MessageBus
