/-
# Boxing under `v` is inferring a box

`Value.boxed_as_inferred` is the main theorem.  A value that stands under `v` without a box gets the
box that `Variant.infer` makes for it, exactly if it makes one and the value is not too deep for the
place.  A value that has a box is passed on.

Both make the box in two passes, one that infers a tag and one that packs against it, and they start
with different numbers of levels left.  They are not compared with one another.  That the value
takes the tag of the box (`Value.Takes`) and is canonical for it (`Canonical`) has nothing to do
with levels, and all that is left of their number is an inequality (`Variant.inferWithin_iff`).  A
value is as deep as the tag that it takes (`Value.Takes.depth_eq`), so the inequality is about the
value, and can be told without knowing what is inferred.
-/
import MessageBus.Proofs.Places
import Mathlib.Logic.Function.Iterate
import Mathlib.Order.Nat

namespace MessageBus

namespace Value

/-! ## 1. Depth -/

mutual
/-- How deep the deepest node lies below the root.  What is in a box does not count. -/
def depth : Value → Nat
  | .array vs | .struct vs => height vs
  | .dict es => heightEntries es
  | _ => 0
/-- How deep the deepest node of several values lies below a node that holds them all; `0` if there
is none. -/
def height : List Value → Nat
  | [] => 0
  | v :: vs => max (depth v + 1) (height vs)
/-- How deep the deepest node of several entries lies below the dictionary that holds them. -/
def heightEntries : List (Value × Value) → Nat
  | [] => 0
  | (k, v) :: es => max (max (depth k) (depth v) + 1) (heightEntries es)
end

theorem height_le_iff {vs : List Value} {n : Nat} : height vs ≤ n ↔ ∀ v ∈ vs, v.depth < n := by
  induction vs with
  | nil => simp [height]
  | cons v vs ih => rw [height, Nat.max_le, List.forall_mem_cons, ih, Nat.succ_le_iff]

theorem heightEntries_le_iff {es : List (Value × Value)} {n : Nat} :
    heightEntries es ≤ n ↔ ∀ e ∈ es, e.1.depth < n ∧ e.2.depth < n := by
  induction es with
  | nil => simp [heightEntries]
  | cons e es ih =>
    rw [heightEntries, Nat.max_le, List.forall_mem_cons, ih, Nat.succ_le_iff, Nat.max_lt]

/-- **A value is as deep as the tag that it takes.** -/
theorem Takes.depth_eq {t : Tag} {v : Value} (h : Takes t v) : t.depth = v.depth := by
  induction h with
  | @array elem items hne _ ih =>
    refine eq_of_forall_ge_iff fun n => ?_
    rw [Tag.depth, depth, height_le_iff, Nat.succ_le_iff]
    constructor
    · intro hn v hv
      exact ih v hv ▸ hn
    · intro hn
      obtain ⟨v, hv⟩ := List.exists_mem_of_ne_nil _ hne
      exact ih v hv ▸ hn v hv
  | @dict key value entries hne _ _ _ ihk ihv =>
    refine eq_of_forall_ge_iff fun n => ?_
    rw [Tag.depth, depth, heightEntries_le_iff, Nat.succ_le_iff, Nat.max_lt]
    constructor
    · intro hn e he
      exact ⟨ihk e he ▸ hn.1, ihv e he ▸ hn.2⟩
    · intro hn
      obtain ⟨e, he⟩ := List.exists_mem_of_ne_nil _ hne
      exact ⟨ihk e he ▸ (hn e he).1, ihv e he ▸ (hn e he).2⟩
  | @struct fields items hl _ ih =>
    have hdepths : items.map depth = fields.map Tag.depth := by
      refine map_eq_of_forall₂ (List.forall₂_iff_zip.2 ⟨hl, fun {_ _} hp => ?_⟩)
      exact (ih _ hp).symm
    refine eq_of_forall_ge_iff fun n => ?_
    rw [Tag.depth, depth, Tag.height_le_iff, height_le_iff]
    have hall := List.forall_mem_map (f := Tag.depth) (l := fields) (P := (· < n))
    rw [← hall, ← hdepths, List.forall_mem_map]
  | _ => rfl

end Value

/-! ## 2. Inferred boxes -/

/-- A value is packed as it is against a tag that it is canonical for, and only then, if there is
room for the tag. -/
theorem Value.fitWithin_self_iff {n : Nat} {t : Tag} {v : Value} (hd : t.depth < n) :
    fitWithin n t v = .ok v ↔ Canonical t v :=
  ⟨canonical_of_fitWithin n t v v, fun hc => fitWithin_of_canonical n t v hc hd⟩

namespace Variant

open Value (Takes)

/-- **A box is inferred for a value** if the value takes its tag and is canonical for it, and is not
too deep.  The value is in it as it is. -/
theorem inferWithin_iff {n : Nat} {x : Value} {b : Variant} :
    inferWithin n x = .ok b ↔
      (Takes b.tag x ∧ Canonical b.tag x ∧ b.value = x) ∧ x.depth < n := by
  constructor
  · intro h
    obtain ⟨t, ht, h⟩ := bind_eq_ok.1 h
    obtain ⟨w, hw, h⟩ := bind_eq_ok.1 h
    cases h
    obtain rfl : w = x := Value.eq_of_inferWithin ht hw
    obtain ⟨htakes, hdepth⟩ := Value.inferWithin_iff.1 ht
    exact ⟨⟨htakes, Value.canonical_of_fitWithin n t w w hw, rfl⟩, htakes.depth_eq ▸ hdepth⟩
  · rintro ⟨⟨htakes, hc, hvalue⟩, hdepth⟩
    obtain ⟨t, w⟩ := b
    cases hvalue
    rw [← htakes.depth_eq] at hdepth
    exact bind_eq_ok.2 ⟨t, Value.inferWithin_iff.2 ⟨htakes, hdepth⟩,
      bind_eq_ok.2 ⟨_, (Value.fitWithin_self_iff hdepth).2 hc, rfl⟩⟩

/-- With fewer levels left the same box is inferred, or none. -/
theorem inferWithin_iff_infer {n : Nat} (hn : n ≤ levels) {x : Value} {b : Variant} :
    inferWithin n x = .ok b ↔ infer x = .ok b ∧ x.depth < n := by
  rw [infer, inferWithin_iff, inferWithin_iff]
  constructor
  · rintro ⟨h, hdepth⟩
    exact ⟨⟨h, Nat.lt_of_lt_of_le hdepth hn⟩, hdepth⟩
  · rintro ⟨⟨h, -⟩, hdepth⟩
    exact ⟨h, hdepth⟩

end Variant

/-! ## 3. Boxes made under `v` -/

namespace Value

/-- What has no box gets the inferred one under `v`. -/
theorem fitWithin_variant_eq {n : Nat} {x : Value} (hx : x.kind ≠ .variant) :
    fitWithin (n + 1) .variant x = Variant.inferWithin n x >>= fun b => .ok b.toValue := by
  rw [fitWithin_variant hx, Variant.inferWithin]
  simp only [bind_assoc]
  rfl

/-- It gets one exactly if one is inferred with the levels below. -/
theorem fitWithin_variant_eq_ok {n : Nat} {x w : Value} (hx : x.kind ≠ .variant) :
    fitWithin (n + 1) .variant x = .ok w ↔
      ∃ b, Variant.inferWithin n x = .ok b ∧ w = b.toValue := by
  rw [fitWithin_variant_eq hx, bind_eq_ok]
  simp only [Except.ok.injEq, eq_comm]

/-- **Under `v`, at depth `d`, the inferred box is made**, exactly if a box is inferred and nothing in
the value lies as deep as the limit, counted from the root of the whole. -/
theorem fitWithin_variant_iff_infer {d : Nat} (hd : d ≤ maxDepth) {x w : Value}
    (hx : x.kind ≠ .variant) :
    fitWithin (levels - d) .variant x = .ok w ↔
      ∃ b, Variant.infer x = .ok b ∧ x.depth + d < maxDepth ∧ w = b.toValue := by
  have hlevels : levels - d = maxDepth - d + 1 := Nat.succ_sub hd
  have hn : maxDepth - d ≤ levels := by simp only [levels]; omega
  rw [hlevels, fitWithin_variant_eq_ok hx]
  simp only [Variant.inferWithin_iff_infer hn, Nat.lt_sub_iff_add_lt, and_assoc]

/-- A value that has a box is passed on as it is, wherever there is a level left. -/
theorem fitWithin_variant_self {n : Nat} (hn : 0 < n) {x : Value} (hx : x.kind = .variant) :
    fitWithin n .variant x = .ok x := by
  obtain ⟨n, rfl⟩ := Nat.exists_eq_succ_of_ne_zero (Nat.ne_of_gt hn)
  cases x with
  | variant t v => rfl
  | _ => cases hx

/-! ## 4. Places as deep as there can be -/

/-- In `d` arrays, one in the other, the innermost item is a place at depth `d`. -/
theorem Visited.arrays (s : Tag) (u : Value) (d n : Nat) :
    Visited s u d (n + d) (Tag.array^[d] s) ((fun v => Value.array [v])^[d] u) := by
  induction d with
  | zero => exact .here
  | succ d ih =>
    rw [Function.iterate_succ_apply', Function.iterate_succ_apply']
    exact .item (List.mem_singleton_self _) ih

end Value

namespace Tag

theorem depth_arrays (t : Tag) (d : Nat) : (Tag.array^[d] t).depth = t.depth + d := by
  induction d with
  | zero => rfl
  | succ d ih => rw [Function.iterate_succ_apply', depth, ih, Nat.add_assoc]

theorem wellFormed_arrays {t : Tag} (ht : t.WellFormed) (d : Nat) :
    (Tag.array^[d] t).WellFormed := by
  induction d with
  | zero => exact ht
  | succ d ih => rwa [Function.iterate_succ_apply', WellFormed]

end Tag

namespace Value

/-- Every depth up to the limit has places. -/
theorem exists_visited (s : Tag) (hs : s.WellFormed) (u : Value) {d : Nat}
    (hd : s.depth + d ≤ maxDepth) :
    ∃ t v, (∃ text, Tag.parse text = .ok t) ∧ Visited s u d levels t v := by
  have hdepth : (Tag.array^[d] s).depth ≤ maxDepth := by rwa [Tag.depth_arrays]
  have hlevels : levels - d + d = levels := by
    simp only [levels]
    omega
  have hu := Visited.arrays s u d (levels - d)
  rw [hlevels] at hu
  exact ⟨_, _, ⟨_, Tag.parse_render (Tag.wellFormed_arrays hs d) hdepth⟩, hu⟩

/-! ## 5. Everywhere -/

/-- A single value packs as it fits its tag. -/
theorem pack_singleton {t : Tag} {v : Value} {c : Container} :
    Container.pack [t] [v] = .ok c ↔ ∃ w, fit t v = .ok w ∧ c.tags = [t] ∧ c.values = [w] := by
  rw [Container.pack_eq_ok, fitAll_cons]
  constructor
  · rintro ⟨ht, w, hw, us, ⟨⟩, hvalues⟩
    exact ⟨w, hw, ht, hvalues.symm⟩
  · rintro ⟨w, hw, ht, hvalues⟩
    exact ⟨ht, w, hw, [], rfl, hvalues.symm⟩

/-- How boxing the value `x` under `v` goes with inferring a box for it. -/
structure BoxedAsInferred (x : Value) : Prop where
  /-- Where `v` stands at depth `d`, a value without a box gets the inferred one, exactly if one is
  inferred and no node of the value lies deeper than `maxDepth - 1 - d` below its root; -/
  fresh (hx : x.kind ≠ .variant) (d : Nat) (hd : d ≤ maxDepth) (w : Value) :
    fitWithin (levels - d) .variant x = .ok w ↔
      ∃ b, Variant.infer x = .ok b ∧ x.depth + d < maxDepth ∧ w = b.toValue
  /-- and one that has a box is passed on as it is, however deep it is. -/
  given (hx : x.kind = .variant) (d : Nat) (hd : d ≤ maxDepth) :
    fitWithin (levels - d) .variant x = .ok x
  /-- At the root this is how a single value packs. -/
  root (hx : x.kind ≠ .variant) (c : Container) :
    Container.pack [.variant] [x] = .ok c ↔
      ∃ b, Variant.infer x = .ok b ∧ x.depth < maxDepth ∧ c.tags = [.variant] ∧
        c.values = [b.toValue]
  rootGiven (hx : x.kind = .variant) (c : Container) :
    Container.pack [.variant] [x] = .ok c ↔ c.tags = [.variant] ∧ c.values = [x]
  /-- Where the value is packed under `v` as a part of another one, what becomes of it there is
  found in what comes out as a whole. -/
  inside (t : Tag) (v : Value) (d : Nat) (h : Visited .variant x d levels t v) (w : Value)
    (hw : fit t v = .ok w) :
    ∃ y, fitWithin (levels - d) .variant x = .ok y ∧ Inside y w
  /-- No `v` lies deeper than this, if the tag of the whole has been read or is inferred, -/
  placed (t : Tag) (v : Value) (d : Nat) (h : Visited .variant x d levels t v)
    (ht : (∃ text, Tag.parse text = .ok t) ∨ inferWithin levels v = .ok t) : d ≤ maxDepth
  /-- and at every depth up to it there can be one. -/
  reached (d : Nat) (hd : d ≤ maxDepth) :
    ∃ t v, (∃ text, Tag.parse text = .ok t) ∧ Visited .variant x d levels t v

/-- **Boxing under `v` is inferring a box**, whatever the value. -/
theorem boxed_as_inferred (x : Value) : BoxedAsInferred x where
  fresh hx d hd w := fitWithin_variant_iff_infer hd hx
  given hx d hd := fitWithin_variant_self (levels_sub_pos hd) hx
  root hx c := by
    have hfit (w : Value) : fit .variant x = .ok w ↔
        ∃ b, Variant.infer x = .ok b ∧ x.depth < maxDepth ∧ w = b.toValue :=
      fitWithin_variant_iff_infer (Nat.zero_le maxDepth) hx
    rw [pack_singleton]
    constructor
    · rintro ⟨w, hw, hc⟩
      obtain ⟨b, hb, hdepth, rfl⟩ := (hfit w).1 hw
      exact ⟨b, hb, hdepth, hc⟩
    · rintro ⟨b, hb, hdepth, hc⟩
      exact ⟨b.toValue, (hfit _).2 ⟨b, hb, hdepth, rfl⟩, hc⟩
  rootGiven hx c := by
    have hfit : fit .variant x = .ok x := fitWithin_variant_self (Nat.succ_pos maxDepth) hx
    rw [pack_singleton]
    constructor
    · rintro ⟨w, hw, hc⟩
      cases hfit.symm.trans hw
      exact hc
    · intro hc
      exact ⟨x, hfit, hc⟩
  inside t v d h w hw := h.packed hw
  placed t v d h ht := h.depth_le (depth_le_of_asked ht)
  reached d hd := exists_visited .variant trivial x ((Nat.zero_add d).trans_le hd)

/-- An array with one item still gets its box at depth 62.  At depth 63 it gets none, for the item
would lie too deep in the whole. -/
theorem boxed_as_inferred_boundary :
    let x : Value := .array [.bool true]
    let b : Variant := ⟨.array .bool, x⟩
    Variant.infer x = .ok b ∧ fitWithin (levels - 62) .variant x = .ok b.toValue ∧
      ∀ w, fitWithin (levels - 63) .variant x ≠ .ok w := by
  intro x b
  have hinfer : Variant.infer x = .ok b := rfl
  refine ⟨hinfer, ?_, fun w hw => ?_⟩
  · exact ((boxed_as_inferred x).fresh (by decide) 62 (by decide) _).2 ⟨b, hinfer, by decide, rfl⟩
  · obtain ⟨-, -, hdepth, -⟩ := ((boxed_as_inferred x).fresh (by decide) 63 (by decide) w).1 hw
    exact absurd hdepth (by decide)

end Value

end MessageBus
