/-
# Keys and sizes of tables

A world numbers what it holds: the next object, proxy or invocation gets the size of its table as
its number.  That this number is free is not a property of tables as such, but one that every
operation of a world keeps: the table is FILLED BELOW ITS SIZE (`Table.Below`), nothing stands under
a number from the size on.

The other half of this module is about tables as lists: a table that is only changed by `insert` and
`erase` has no key twice (`Table.Distinct`), so that a sum over its entries loses exactly one term
when one entry goes (`Table.weigh_erase`).
-/
import Mathlib.Algebra.GroupWithZero.Nat
import MessageBus.Table

namespace MessageBus.Table

variable {κ α : Type}

theorem size_eq_length_keys (t : Table κ α) : t.size = t.keys.length := by
  simp [size, keys]

variable [DecidableEq κ]

/-! ## 1. Entries and look-up -/

/-- What is found is an entry. -/
theorem mem_of_find {k : κ} {v : α} : ∀ {es : List (κ × α)}, find k es = some v → (k, v) ∈ es
  | (l, w) :: es, h => by
    simp only [find] at h
    split at h
    · rename_i hl
      cases h
      exact hl ▸ List.mem_cons_self
    · exact List.mem_cons_of_mem _ (mem_of_find h)

theorem mem_entries_of_get? {t : Table κ α} {k : κ} {v : α} (h : t.get? k = some v) :
    (k, v) ∈ t.entries := mem_of_find h

theorem mem_values_of_get? {t : Table κ α} {k : κ} {v : α} (h : t.get? k = some v) :
    v ∈ t.values := List.mem_map.mpr ⟨(k, v), mem_entries_of_get? h, rfl⟩

/-- Something is found under just those keys that there are. -/
theorem find_eq_none_iff {k : κ} {es : List (κ × α)} : find k es = none ↔ k ∉ es.map Prod.fst := by
  induction es with
  | nil => simp [find]
  | cons e es ih =>
    by_cases hl : e.1 = k
    · simp [find, hl]
    · simp [find, hl, ih, Ne.symm hl]

theorem get?_eq_none_iff {t : Table κ α} {k : κ} : t.get? k = none ↔ k ∉ t.keys :=
  find_eq_none_iff

theorem mem_keys_iff {t : Table κ α} {k : κ} : k ∈ t.keys ↔ ∃ v, t.get? k = some v := by
  rw [← Option.isSome_iff_exists, ← Option.ne_none_iff_isSome, ne_eq, get?_eq_none_iff,
    Classical.not_not]

theorem find_append {k : κ} {es es' : List (κ × α)} :
    find k (es ++ es') = (find k es).or (find k es') := by
  induction es with
  | nil => rfl
  | cons e es ih =>
    rw [List.cons_append, find, find]
    split
    · rfl
    · exact ih

/-- A new key goes to the end. -/
theorem store_new {k : κ} {v : α} {es : List (κ × α)} (h : find k es = none) :
    store k v es = es ++ [(k, v)] := by
  induction es with
  | nil => rfl
  | cons e es ih =>
    simp only [find] at h
    split at h
    · cases h
    · rename_i hl
      simp only [store, hl, if_false, ih h, List.cons_append]

theorem entries_insert_new {t : Table κ α} {k : κ} {v : α} (h : t.get? k = none) :
    (t.insert k v).entries = t.entries ++ [(k, v)] := store_new h

theorem store_self {k : κ} {v : α} {es : List (κ × α)} (h : find k es = some v) :
    store k v es = es := by
  induction es with
  | nil => cases h
  | cons e es ih =>
    obtain ⟨l, u⟩ := e
    by_cases hl : l = k
    · subst hl
      rw [find, if_pos rfl] at h
      cases h
      rw [store, if_pos rfl]
    · rw [find, if_neg hl] at h
      rw [store, if_neg hl, ih h]

/-- Storing what is there already changes nothing. -/
theorem insert_self {t : Table κ α} {k : κ} {v : α} (h : t.get? k = some v) : t.insert k v = t :=
  congrArg Table.mk (store_self h)

/-! ## 2. Keys after an operation -/

/-- Storing keeps the keys, or adds one at the end. -/
theorem map_fst_store (k : κ) (v : α) (es : List (κ × α)) :
    (store k v es).map Prod.fst
      = if k ∈ es.map Prod.fst then es.map Prod.fst else es.map Prod.fst ++ [k] := by
  induction es with
  | nil => simp [store]
  | cons e es ih =>
    by_cases hl : e.1 = k
    · simp [store, hl]
    · simp only [store, hl, if_false, List.map_cons, ih, List.mem_cons, Ne.symm hl, false_or]
      split <;> simp

theorem keys_insert (t : Table κ α) (k : κ) (v : α) :
    (t.insert k v).keys = if k ∈ t.keys then t.keys else t.keys ++ [k] := map_fst_store k v _

theorem size_insert (t : Table κ α) (k : κ) (v : α) :
    (t.insert k v).size = if k ∈ t.keys then t.size else t.size + 1 := by
  rw [size_eq_length_keys, keys_insert, size_eq_length_keys]
  split <;> simp

theorem keys_erase (t : Table κ α) (k : κ) : (t.erase k).keys = t.keys.filter (· ≠ k) := by
  simp [erase, filter, keys, List.filter_map, Function.comp_def]

omit [DecidableEq κ] in
/-- Filtering brings no value in. -/
theorem mem_values_filter {t : Table κ α} {p : κ → α → Bool} {v : α}
    (h : v ∈ (t.filter p).values) : v ∈ t.values := by
  obtain ⟨e, he, rfl⟩ := List.mem_map.mp h
  exact List.mem_map.mpr ⟨e, (List.mem_filter.mp he).1, rfl⟩

omit [DecidableEq κ] in
theorem mem_keys_filter {t : Table κ α} {p : κ → α → Bool} {k : κ} (h : k ∈ (t.filter p).keys) :
    k ∈ t.keys := by
  obtain ⟨e, he, rfl⟩ := List.mem_map.mp h
  exact List.mem_map.mpr ⟨e, (List.mem_filter.mp he).1, rfl⟩

theorem mem_map_snd_store {k : κ} {v x : α} {es : List (κ × α)}
    (h : x ∈ (store k v es).map Prod.snd) : x = v ∨ x ∈ es.map Prod.snd := by
  induction es with
  | nil => simpa [store] using h
  | cons e es ih =>
    by_cases hl : e.1 = k
    · simp only [store, hl, if_true, List.map_cons, List.mem_cons] at h ⊢
      rcases h with h | h
      · exact Or.inl h
      · exact Or.inr (Or.inr h)
    · simp only [store, hl, if_false, List.map_cons, List.mem_cons] at h ⊢
      rcases h with h | h
      · exact Or.inr (Or.inl h)
      · exact (ih h).imp_right Or.inr

/-- Storing brings in one value at most. -/
theorem mem_values_insert {t : Table κ α} {k : κ} {v x : α} (h : x ∈ (t.insert k v).values) :
    x = v ∨ x ∈ t.values := mem_map_snd_store h

/-! ## 3. Tables without a repeated key -/

/-- No key occurs twice. -/
def Distinct {κ α : Type} (t : Table κ α) : Prop := t.keys.Nodup

omit [DecidableEq κ] in
theorem distinct_empty : (empty : Table κ α).Distinct := List.nodup_nil

theorem Distinct.insert {t : Table κ α} (h : t.Distinct) (k : κ) (v : α) :
    (t.insert k v).Distinct := by
  unfold Distinct
  rw [keys_insert]
  split
  · exact h
  · rename_i hk
    rw [List.nodup_append]
    refine ⟨h, by simp, fun a ha b hb hab => hk ?_⟩
    rw [List.mem_singleton] at hb
    exact hb ▸ hab ▸ ha

theorem Distinct.erase {t : Table κ α} (h : t.Distinct) (k : κ) : (t.erase k).Distinct := by
  unfold Distinct
  rw [keys_erase]
  exact List.Pairwise.filter _ h

omit [DecidableEq κ] in
theorem Distinct.filter {t : Table κ α} (h : t.Distinct) (p : κ → α → Bool) :
    (t.filter p).Distinct := h.sublist (List.filter_sublist.map _)

/-- In a table without a repeated key, an entry is what is found under its key. -/
theorem find_of_mem {k : κ} {v : α} : ∀ {es : List (κ × α)},
    (es.map Prod.fst).Nodup → (k, v) ∈ es → find k es = some v
  | (l, w) :: es, hd, h => by
    rw [List.map_cons, List.nodup_cons] at hd
    rcases List.mem_cons.mp h with h | h
    · cases h
      simp [find]
    · have hl : l ≠ k := fun hl => hd.1 (hl ▸ List.mem_map.mpr ⟨(k, v), h, rfl⟩)
      simp only [find, hl, if_false]
      exact find_of_mem hd.2 h

theorem Distinct.get?_of_mem {t : Table κ α} (hd : t.Distinct) {k : κ} {v : α}
    (h : (k, v) ∈ t.entries) : t.get? k = some v := find_of_mem hd h

/-- A filtered table without a repeated key has what it had and what passes. -/
theorem Distinct.get?_filter {t : Table κ α} (hd : t.Distinct) (p : κ → α → Bool) (k : κ) :
    (t.filter p).get? k = (t.get? k).filter (p k) := by
  have hmem : ∀ v, (t.filter p).get? k = some v ↔ t.get? k = some v ∧ p k v = true := by
    intro v
    constructor
    · intro h
      obtain ⟨hv, hp⟩ := List.mem_filter.mp (mem_entries_of_get? h)
      exact ⟨hd.get?_of_mem hv, hp⟩
    · rintro ⟨h, hp⟩
      exact (hd.filter p).get?_of_mem (List.mem_filter.mpr ⟨mem_entries_of_get? h, hp⟩)
  ext v
  rw [hmem, Option.filter_eq_some_iff]

/-! ## 4. Tables that are filled below their size -/

/-- Nothing stands under a number from the size on. -/
def Below (t : Table Nat α) : Prop := ∀ n, t.size ≤ n → t.get? n = none

theorem below_empty : (empty : Table Nat α).Below := fun _ _ => rfl

theorem Below.lt_size {t : Table Nat α} (h : t.Below) {n : Nat} {v : α} (hn : t.get? n = some v) :
    n < t.size := by
  rcases Nat.lt_or_ge n t.size with hlt | hge
  · exact hlt
  · rw [h n hge] at hn
    cases hn

/-- The next number is free. -/
theorem Below.get?_size {t : Table Nat α} (h : t.Below) : t.get? t.size = none :=
  h _ (Nat.le_refl _)

theorem Below.insert {t : Table Nat α} (h : t.Below) {k : Nat} (hk : k ≤ t.size) (v : α) :
    (t.insert k v).Below := by
  intro n hn
  rw [size_insert] at hn
  split at hn
  · rename_i hmem
    obtain ⟨w, hw⟩ := mem_keys_iff.mp hmem
    have hlt := h.lt_size hw
    rw [get?_insert, if_neg (by omega), h n hn]
  · rw [get?_insert, if_neg (by omega), h n (by omega)]

/-- The table of a number under which something stands keeps its size. -/
theorem size_replace {t : Table κ α} {k : κ} {v w : α} (hk : t.get? k = some w) :
    (t.insert k v).size = t.size := by
  rw [size_insert, if_pos (mem_keys_iff.mpr ⟨w, hk⟩)]

/-- A new key makes the table larger by one. -/
theorem size_insert_new {t : Table κ α} {k : κ} {v : α} (hk : t.get? k = none) :
    (t.insert k v).size = t.size + 1 := by
  rw [size_insert, if_neg (get?_eq_none_iff.mp hk)]

/-! ## 5. Sums over the values -/

/-- The sum of a weight over the values. -/
def weigh (f : α → Nat) (t : Table κ α) : Nat := (t.values.map f).sum

theorem sum_map_snd_store (f : α → Nat) (k : κ) (v : α) (es : List (κ × α)) :
    ((store k v es).map fun e => f e.2).sum + ((find k es).map f).getD 0
      = (es.map fun e => f e.2).sum + f v := by
  induction es with
  | nil => simp [store, find]
  | cons e es ih =>
    by_cases hl : e.1 = k
    · simp only [store, find, hl, if_true, List.map_cons, List.sum_cons, Option.map_some,
        Option.getD_some]
      omega
    · simp only [store, find, hl, if_false, List.map_cons, List.sum_cons]
      omega

/-- Storing replaces one term of the sum, or adds one. -/
theorem weigh_insert (f : α → Nat) (t : Table κ α) (k : κ) (v : α) :
    (t.insert k v).weigh f + ((t.get? k).map f).getD 0 = t.weigh f + f v := by
  have h := sum_map_snd_store f k v t.entries
  simpa [weigh, values, insert, get?, Function.comp_def] using h

theorem sum_filter_fst_ne (f : α → Nat) {k : κ} {es : List (κ × α)}
    (hd : (es.map Prod.fst).Nodup) :
    ((es.filter fun e => decide (e.1 ≠ k)).map fun e => f e.2).sum + ((find k es).map f).getD 0
      = (es.map fun e => f e.2).sum := by
  induction es with
  | nil => simp [find]
  | cons e es ih =>
    rw [List.map_cons, List.nodup_cons] at hd
    have ih := ih hd.2
    by_cases hl : e.1 = k
    · have hk : find k es = none := find_eq_none_iff.mpr (hl ▸ hd.1)
      rw [hk] at ih
      simp only [List.filter_cons, hl, ne_eq, not_true_eq_false, decide_false, Bool.false_eq_true,
        if_false, find, if_true, List.map_cons, List.sum_cons, Option.map_some, Option.getD_some]
      simp only [ne_eq, Option.map_none, Option.getD_none] at ih
      omega
    · simp only [List.filter_cons, hl, ne_eq, not_false_eq_true, decide_true, if_true, find,
        if_false, List.map_cons, List.sum_cons]
      simp only [ne_eq] at ih
      omega

/-- Erasing a key takes its term out of the sum. -/
theorem weigh_erase (f : α → Nat) {t : Table κ α} (hd : t.Distinct) (k : κ) :
    (t.erase k).weigh f + ((t.get? k).map f).getD 0 = t.weigh f := by
  have h := sum_filter_fst_ne f (k := k) hd
  simpa [weigh, values, erase, filter, get?, Function.comp_def] using h

end MessageBus.Table
