/-
# The places that packing comes to

Packing a value against a tag goes down both at once.  An element meets the tag of the elements, a
field the tag at its place, and a value that gets a box meets the tag that is inferred for it.
`Value.Visited` is the relation between the root and the places below it that are reached in this
way, inferred boxes included, with the depth at which they lie.

Two facts make it useful.

* **What is packed as a whole is packed at every place** (`Visited.packed`), and what comes out at a
place lies inside what comes out as a whole.
* **There is room at every place** (`Visited.room`), if there is room for the tag at the root: a box
is only made if there is room for its tag.  For a tag that has been read there is
(`Visited.depth_le`), so the limit on nesting never refuses a value that has come to a place.

The first follows from what a single level does when it succeeds (`Fits`), the second from what
inference does when it succeeds (`inferWithin_iff`).
-/
import MessageBus.Proofs.Boxes

namespace MessageBus

/-- As deep as allowed there is a level left. -/
theorem levels_sub_pos {d : Nat} (hd : d ≤ maxDepth) : 0 < levels - d :=
  Nat.sub_pos_of_lt (Nat.lt_succ_of_le hd)

namespace Value

/-! ## 1. Places -/

/-- With `n` levels left, packing the value `v` against the tag `t` comes to packing `u` against
`s`, at a place that lies `d` levels below. -/
inductive Visited (s : Tag) (u : Value) : Nat → Nat → Tag → Value → Prop where
  | here {n : Nat} : Visited s u 0 n s u
  | item {d n : Nat} {elem : Tag} {items : List Value} {v : Value} (hv : v ∈ items)
      (h : Visited s u d n elem v) : Visited s u (d + 1) (n + 1) (.array elem) (.array items)
  | key {d n : Nat} {key value : Tag} {entries : List (Value × Value)} {e : Value × Value}
      (he : e ∈ entries) (h : Visited s u d n key e.1) :
      Visited s u (d + 1) (n + 1) (.dict key value) (.dict entries)
  | value {d n : Nat} {key value : Tag} {entries : List (Value × Value)} {e : Value × Value}
      (he : e ∈ entries) (h : Visited s u d n value e.2) :
      Visited s u (d + 1) (n + 1) (.dict key value) (.dict entries)
  | field {d n : Nat} {fields : List Tag} {v : Value} {items : List Value} {p : Tag × Value}
      (hv : v.asItems = some items) (hl : fields.length = items.length)
      (hp : p ∈ fields.zip items) (h : Visited s u d n p.1 p.2) :
      Visited s u (d + 1) (n + 1) (.struct fields) v
  /-- A value that gets a box is packed against the tag that is inferred for it. -/
  | box {d n : Nat} {t : Tag} {v : Value} (hv : v.kind ≠ .variant) (ht : inferWithin n v = .ok t)
      (h : Visited s u d n t v) : Visited s u (d + 1) (n + 1) .variant v

namespace Visited

variable {s t : Tag} {u v w : Value} {d n : Nat}

/-- **There is room at every place**, if there is at the root. -/
theorem room (h : Visited s u d n t v) (ht : t.depth < n) : s.depth + d < n := by
  induction h with
  | here => exact ht
  | item _ _ ih => exact Nat.succ_lt_succ (ih (Nat.lt_of_succ_lt_succ ht))
  | key _ _ ih => exact Nat.succ_lt_succ (ih (Nat.max_lt.1 (Nat.lt_of_succ_lt_succ ht)).1)
  | value _ _ ih => exact Nat.succ_lt_succ (ih (Nat.max_lt.1 (Nat.lt_of_succ_lt_succ ht)).2)
  | field _ _ hp _ ih =>
    have hfields := Tag.height_le_iff.1 (Nat.le_of_lt_succ ht)
    exact Nat.succ_lt_succ (ih (hfields _ (List.of_mem_zip hp).1))
  | box _ hinfer _ ih => exact Nat.succ_lt_succ (ih (inferWithin_iff.1 hinfer).2)

/-- A place below the root of a tag that is as deep as allowed at most is as deep as allowed at
most. -/
theorem depth_le (h : Visited s u d levels t v) (ht : t.depth ≤ maxDepth) : d ≤ maxDepth := by
  have hroom := h.room (Nat.lt_succ_of_le ht)
  simp only [levels] at hroom
  omega

/-- **What is packed as a whole is packed at every place.** -/
theorem packed (h : Visited s u d n t v) (hw : fitWithin n t v = .ok w) :
    ∃ x, fitWithin (n - d) s u = .ok x ∧ Inside x w := by
  induction h generalizing w with
  | here => exact ⟨w, hw, .here⟩
  | item hv _ ih =>
    cases fits_of_fitWithin hw with
    | array h =>
      obtain ⟨y, hy, hfit⟩ := exists_mem_of_forall₂ h _ hv
      obtain ⟨x, hx, hin⟩ := ih hfit
      exact ⟨x, by rwa [Nat.add_sub_add_right], .item hy hin⟩
  | key he _ ih =>
    cases fits_of_fitWithin hw with
    | dict h =>
      obtain ⟨y, hy, hfit⟩ := exists_mem_of_forall₂ h _ he
      obtain ⟨x, hx, hin⟩ := ih hfit.1
      exact ⟨x, by rwa [Nat.add_sub_add_right], .key hy hin⟩
  | value he _ ih =>
    cases fits_of_fitWithin hw with
    | dict h =>
      obtain ⟨y, hy, hfit⟩ := exists_mem_of_forall₂ h _ he
      obtain ⟨x, hx, hin⟩ := ih hfit.2
      exact ⟨x, by rwa [Nat.add_sub_add_right], .value hy hin⟩
  | field hv _ hp _ ih =>
    cases fits_of_fitWithin hw with
    | struct hv' _ h =>
      cases hv.symm.trans hv'
      obtain ⟨y, hy, hfit⟩ := exists_mem_of_forall₂ h _ hp
      obtain ⟨x, hx, hin⟩ := ih hfit
      exact ⟨x, by rwa [Nat.add_sub_add_right], .field hy hin⟩
  | box hv ht _ ih =>
    cases fits_of_fitWithin hw with
    | boxed t v => exact absurd rfl hv
    | box _ ht' hfit =>
      cases ht.symm.trans ht'
      obtain ⟨x, hx, hin⟩ := ih hfit
      exact ⟨x, by rwa [Nat.add_sub_add_right], .boxed hin⟩

/-- What is packed together with others is packed at every place. -/
theorem of_pack {ts : List Tag} {vs : List Value} {c : Container} {p : Tag × Value}
    (h : Visited s u d levels p.1 p.2) (hc : Container.pack ts vs = .ok c) (hp : p ∈ ts.zip vs) :
    ∃ x, ∃ w ∈ c.values, fitWithin (levels - d) s u = .ok x ∧ Inside x w := by
  obtain ⟨-, hfits⟩ := fitAll_eq_ok.1 (Container.pack_eq_ok.1 hc).2
  obtain ⟨w, hw, hfit⟩ := exists_mem_of_forall₂ (mapM_eq_ok.1 hfits) p hp
  obtain ⟨x, hx, hin⟩ := h.packed hfit
  exact ⟨x, w, hw, hx, hin⟩

end Visited

/-- A tag that has been read or is inferred is as deep as allowed at most. -/
theorem depth_le_of_asked {t : Tag} {v : Value}
    (h : (∃ s, Tag.parse s = .ok t) ∨ inferWithin levels v = .ok t) : t.depth ≤ maxDepth := by
  rcases h with ⟨s, hs⟩ | h
  · exact (Tag.sound_parse hs).2.1
  · exact Nat.le_of_lt_succ (inferWithin_iff.1 h).2

end Value

end MessageBus
