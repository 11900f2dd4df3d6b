/-
# Packing keeps the data

`Value.packing_keeps_data` is the main theorem.  What packing changes about a value is its form: the
kind of an integer, the role of a text, whether items are an array or a struct, and the boxes.  What
a value says with all that left out is its content (`Value.content`), and that stays what it was,
with one exception: an integer where a double is asked for becomes the nearest double.

The exception is a matter of the tag, so the content that comes out is a function of the tag and of
the content that goes in (`Content.under`), and the induction shows that packing computes it
(`Value.content_of_fitWithin`).  Under `v` no tag is known beforehand; there the argument is another
one, since a value is what it was once it has been packed against the tag that is inferred for it.

Integers are the only values that packing may refuse for their size, and `Value.fitInt_eq_ok` and
`Value.fitInt_eq_error` say when.
-/
import MessageBus.Proofs.Places

namespace MessageBus

/-! ## 1. Contents -/

/-- What a value says: numbers, truth values, texts, and how they are put together. -/
inductive Content where
  | int (n : Int)
  | bool (b : Bool)
  | double (d : Double)
  | text (s : String)
  | items (cs : List Content)
  | entries (es : List (Content × Content))

namespace Value

mutual
/-- What the value says, whatever the kinds of its integers, the roles of its texts and its boxes. -/
def content : Value → Content
  | .int _ n => .int n.val
  | .bool b => .bool b
  | .double d => .double d
  | .string s | .objectPath s | .signature s => .text s
  | .array vs | .struct vs => .items (contentAll vs)
  | .dict es => .entries (contentEntries es)
  | .variant _ v => content v
/-- What several values say. -/
def contentAll : List Value → List Content
  | [] => []
  | v :: vs => content v :: contentAll vs
/-- What the entries of a dictionary say. -/
def contentEntries : List (Value × Value) → List (Content × Content)
  | [] => []
  | (k, v) :: es => (content k, content v) :: contentEntries es
end

theorem contentAll_eq (vs : List Value) : contentAll vs = vs.map content := by
  induction vs with
  | nil => rfl
  | cons v vs ih => rw [contentAll, ih, List.map_cons]

theorem contentEntries_eq (es : List (Value × Value)) :
    contentEntries es = es.map fun e => (e.1.content, e.2.content) := by
  induction es with
  | nil => rfl
  | cons e es ih => rw [contentEntries, ih, List.map_cons]

/-- Arrays and structs say the same. -/
theorem content_of_asItems {v : Value} {vs : List Value} (h : v.asItems = some vs) :
    v.content = .items (vs.map content) := by
  cases v with
  | array us => cases h; rw [content, contentAll_eq]
  | struct us => cases h; rw [content, contentAll_eq]
  | _ => cases h

end Value

namespace Content

mutual
/-- The content with its integers made doubles where the tag asks for doubles. -/
def under : Tag → Content → Content
  | .double, .int n => .double (.ofInt n)
  | .array elem, .items cs => .items (cs.map (under elem))
  | .dict key value, .entries es => .entries (es.map fun e => (under key e.1, under value e.2))
  | .struct fields, .items cs => .items (underAll fields cs)
  | _, c => c
/-- Several contents, each under its tag.  What has no tag stays. -/
def underAll : List Tag → List Content → List Content
  | t :: ts, c :: cs => under t c :: underAll ts cs
  | _, cs => cs
end

theorem underAll_eq : ∀ {ts : List Tag} {cs : List Content}, ts.length = cs.length →
    underAll ts cs = (ts.zip cs).map fun p => under p.1 p.2
  | [], [], _ => rfl
  | t :: ts, c :: cs, h => by
    rw [underAll, underAll_eq (Nat.succ.inj h), List.zip_cons_cons, List.map_cons]

mutual
/-- **Without doubles in the tag the content stays.** -/
theorem under_of_not_mem : ∀ (t : Tag), 'd' ∉ t.chars → ∀ c : Content, under t c = c
  | .double, h, _ => absurd (List.mem_singleton_self 'd') h
  | .array elem, h, c => by
    have helem := under_of_not_mem elem fun hd => h (List.mem_cons_of_mem _ hd)
    cases c with
    | items cs => rw [under, List.map_congr_left fun c _ => helem c, List.map_id']
    | _ => rfl
  | .dict key value, h, c => by
    simp only [Tag.chars, List.mem_cons, List.mem_append, not_or] at h
    obtain ⟨-, -, ⟨hk, hv⟩, -⟩ := h
    have hkey := under_of_not_mem key hk
    have hvalue := under_of_not_mem value hv
    cases c with
    | entries es =>
      have hentry : ∀ e ∈ es, (under key e.1, under value e.2) = e := fun e _ => by
        rw [hkey, hvalue]
      rw [under, List.map_congr_left hentry, List.map_id']
    | _ => rfl
  | .struct fields, h, c => by
    simp only [Tag.chars, List.mem_cons, List.mem_append, not_or] at h
    cases c with
    | items cs => rw [under, underAll_of_not_mem fields h.2.1]
    | _ => rfl
  | .int _, _, c | .bool, _, c | .string, _, c | .objectPath, _, c | .signature, _, c
  | .variant, _, c => by cases c <;> rfl
theorem underAll_of_not_mem : ∀ (ts : List Tag), 'd' ∉ Tag.charsAll ts → ∀ cs : List Content,
    underAll ts cs = cs
  | [], _, _ => rfl
  | _ :: _, _, [] => rfl
  | t :: ts, h, c :: cs => by
    rw [Tag.charsAll, List.mem_append, not_or] at h
    rw [underAll, under_of_not_mem t h.1, underAll_of_not_mem ts h.2]
end

end Content

namespace Value

/-! ## 2. Integers -/

/-- An integer is accepted if the kind holds its number, whatever kind it is of. -/
theorem fitInt_int {j k : IntKind} (m : j.Number) :
    fitInt k (.int j m) =
      if h : k.Holds m.val then .ok (.int k ⟨m.val, h⟩)
      else .error (.typeMismatch (.int k) (.int j)) := by
  rw [fitInt, asIntOf, asInt, Option.bind_some]
  by_cases h : k.Holds m.val
  · rw [dif_pos h, dif_pos h]
  · rw [dif_neg h, dif_neg h]
    rfl

/-- **Integers are packed exactly if the kind holds their number**, and nothing else is packed as an
integer, -/
theorem fitInt_eq_ok {k : IntKind} {v w : Value} :
    fitInt k v = .ok w ↔ ∃ j m, ∃ h : k.Holds m.val, v = .int j m ∧ w = .int k ⟨m.val, h⟩ := by
  cases v with
  | int j m =>
    rw [fitInt_int]
    by_cases h : k.Holds m.val
    · rw [dif_pos h, Except.ok.injEq]
      constructor
      · rintro rfl
        exact ⟨j, m, h, rfl, rfl⟩
      · rintro ⟨j, m, h, ⟨⟩, rfl⟩
        rfl
    · rw [dif_neg h]
      refine iff_of_false (by simp) ?_
      rintro ⟨j, m, h', ⟨⟩, -⟩
      exact h h'
  | _ => simp [fitInt, asIntOf, asInt]

/-- and everything else is refused for not being such an integer. -/
theorem fitInt_eq_error {k : IntKind} {v : Value} {e : PackError} :
    fitInt k v = .error e ↔
      (∀ j m, v = .int j m → ¬ k.Holds m.val) ∧ e = .typeMismatch (.int k) v.kind := by
  cases v with
  | int j m =>
    rw [fitInt_int]
    by_cases h : k.Holds m.val
    · rw [dif_pos h]
      exact iff_of_false (by simp) fun hno => hno.1 j m rfl h
    · rw [dif_neg h, Except.error.injEq, eq_comm]
      refine (and_iff_right ?_).symm
      rintro j m ⟨⟩
      exact h
  | _ => simp [fitInt, asIntOf, asInt, mismatch, eq_comm]

theorem fitWithin_int {n : Nat} (hn : 0 < n) {k : IntKind} {v : Value} :
    fitWithin n (.int k) v = fitInt k v := by
  obtain ⟨n, rfl⟩ := Nat.exists_eq_succ_of_ne_zero (Nat.ne_of_gt hn)
  rfl

/-! ## 3. Packing -/

theorem content_of_fitInt {k : IntKind} {v w : Value} (h : fitInt k v = .ok w) :
    w.content = v.content := by
  obtain ⟨j, m, hm, rfl, rfl⟩ := fitInt_eq_ok.1 h
  rfl

theorem content_of_fitDouble {v w : Value} (h : fitDouble v = .ok w) :
    w.content = v.content.under .double := by
  cases v with
  | double d => cases h; rfl
  | int j m => cases h; rfl
  | _ => cases h

theorem content_of_fitPath {s : String} {w : Value} (h : fitPath s = .ok w) :
    w.content = .text s := by
  unfold fitPath at h
  split at h <;> cases h
  rfl

theorem content_of_fitSignature {s : String} {w : Value} (h : fitSignature s = .ok w) :
    w.content = .text s := by
  unfold fitSignature at h
  split at h <;> cases h
  rfl

/-- **Packing keeps what the value says**, but for the integers that become doubles. -/
theorem content_of_fitWithin {n : Nat} {t : Tag} {v w : Value} (h : fitWithin n t v = .ok w) :
    w.content = v.content.under t := by
  induction n generalizing t v w with
  | zero => cases h
  | succ n ih =>
    cases fits_of_fitWithin h with
    | @int k v w hfit =>
      rw [content_of_fitInt hfit, Content.under_of_not_mem (.int k) (by cases k <;> decide)]
    | bool b => rfl
    | double hfit => exact content_of_fitDouble hfit
    | string s => rfl
    | path hv hfit =>
      rw [content_of_fitPath hfit]
      rcases hv with rfl | rfl <;> rfl
    | signature hv hfit =>
      rw [content_of_fitSignature hfit]
      rcases hv with rfl | rfl <;> rfl
    | boxed t v => rw [Content.under_of_not_mem .variant (by decide)]
    | box hv ht hfit =>
      -- Against an inferred tag nothing changes, not even where it asks for a double.
      rw [eq_of_inferWithin ht hfit, Content.under_of_not_mem .variant (by decide), content]
    | array hfit =>
      rw [content, content, contentAll_eq, contentAll_eq, Content.under, List.map_map]
      exact congrArg _ (map_eq_of_forall₂ (hfit.imp fun _ _ => ih))
    | dict hfit =>
      rw [content, content, contentEntries_eq, contentEntries_eq, Content.under, List.map_map]
      exact congrArg _ (map_eq_of_forall₂ (hfit.imp fun _ _ he => Prod.ext (ih he.1) (ih he.2)))
    | @struct fields v items us hv hl hfit =>
      have hlength : fields.length = (items.map content).length := by rw [hl, List.length_map]
      rw [content_of_asItems hv, content, contentAll_eq, Content.under,
        Content.underAll_eq hlength, List.zip_map_right, List.map_map]
      exact congrArg _ (map_eq_of_forall₂ (hfit.imp fun _ _ => ih))

/-- What packs side by side keeps what it says, each value under its tag. -/
theorem content_of_pack {ts : List Tag} {vs : List Value} {c : Container}
    (h : Container.pack ts vs = .ok c) :
    c.values.map content = Content.underAll ts (vs.map content) := by
  obtain ⟨hl, hfits⟩ := fitAll_eq_ok.1 (Container.pack_eq_ok.1 h).2
  have hlength : ts.length = (vs.map content).length := by rw [hl, List.length_map]
  rw [Content.underAll_eq hlength, List.zip_map_right, List.map_map]
  exact map_eq_of_forall₂ ((mapM_eq_ok.1 hfits).imp fun _ _ => content_of_fitWithin)

/-- What packing against the tag `t` makes of what the value `v` says. -/
structure KeepsData (t : Tag) (v : Value) : Prop where
  /-- What comes out says the same, but that integers are doubles where the tag asks for doubles. -/
  content (w : Value) (h : fit t v = .ok w) : w.content = v.content.under t
  /-- It says just the same if the tag asks for none. -/
  plain (w : Value) (h : fit t v = .ok w) (hd : 'd' ∉ t.chars) : w.content = v.content
  /-- So it is at every place, inferred boxes included: what comes out there says the same, and lies
  inside what comes out as a whole. -/
  nested (w : Value) (h : fit t v = .ok w) (s : Tag) (u : Value) (d : Nat)
    (hu : Visited s u d levels t v) :
    ∃ x, fitWithin (levels - d) s u = .ok x ∧ Inside x w ∧ x.content = u.content.under s
  /-- At a place where an integer is asked for, just the integers are accepted that the kind holds,
  of whatever kind they are, and the number stays; -/
  accepted (k : IntKind) (u : Value) (d : Nat) (hu : Visited (.int k) u d levels t v)
    (hd : d ≤ maxDepth) (x : Value) :
    fitWithin (levels - d) (.int k) u = .ok x ↔
      ∃ j m, ∃ h : k.Holds m.val, u = .int j m ∧ x = .int k ⟨m.val, h⟩
  /-- all else is refused as a mismatch. -/
  refused (k : IntKind) (u : Value) (d : Nat) (hu : Visited (.int k) u d levels t v)
    (hd : d ≤ maxDepth) (e : PackError) :
    fitWithin (levels - d) (.int k) u = .error e ↔
      (∀ j m, u = .int j m → ¬ k.Holds m.val) ∧ e = .typeMismatch (.int k) u.kind
  /-- No place is deeper than this, if the tag of the whole has been read or is inferred. -/
  placed (s : Tag) (u : Value) (d : Nat) (hu : Visited s u d levels t v)
    (ht : (∃ text, Tag.parse text = .ok t) ∨ inferWithin levels v = .ok t) : d ≤ maxDepth

theorem keepsData (t : Tag) (v : Value) : KeepsData t v where
  content w h := content_of_fitWithin h
  plain w h hd := (content_of_fitWithin h).trans (Content.under_of_not_mem t hd _)
  nested w h s u d hu := by
    obtain ⟨x, hx, hin⟩ := hu.packed h
    exact ⟨x, hx, hin, content_of_fitWithin hx⟩
  accepted k u d hu hd x := by
    rw [fitWithin_int (levels_sub_pos hd)]
    exact fitInt_eq_ok
  refused k u d hu hd e := by
    rw [fitWithin_int (levels_sub_pos hd)]
    exact fitInt_eq_error
  placed s u d hu ht := hu.depth_le (depth_le_of_asked ht)

/-- **Packing keeps the data**, whatever the tag and the value; and so does packing values side by
side. -/
theorem packing_keeps_data :
    (∀ (t : Tag) (v : Value), KeepsData t v) ∧
      ∀ (ts : List Tag) (vs : List Value) (c : Container), Container.pack ts vs = .ok c →
        c.values.map content = Content.underAll ts (vs.map content) :=
  ⟨keepsData, fun _ _ _ => content_of_pack⟩

/-- The array becomes a struct, its first item an integer of another kind, its second one a double,
and the third gets a box. -/
theorem packing_keeps_data_struct :
    let v : Value := .array [.int .byte ⟨7, by decide⟩, .int .int32 ⟨-3, by decide⟩,
      .array [.int .uint16 ⟨9, by decide⟩]]
    let t : Tag := .struct [.int .int64, .double, .variant]
    let w : Value := .struct [.int .int64 ⟨7, by decide⟩, .double (.ofInt (-3)),
      .variant (.array (.int .uint16)) (.array [.int .uint16 ⟨9, by decide⟩])]
    Tag.parse "(xdv)" = .ok t ∧ fit t v = .ok w ∧
      w.content = .items [.int 7, .double (.ofInt (-3)), .items [.int 9]] := by
  intro v t w
  have hfit : fit t v = .ok w := rfl
  exact ⟨rfl, hfit, (packing_keeps_data.1 t v).content w hfit⟩

end Value

end MessageBus
