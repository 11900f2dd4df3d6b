/-
# Tables: finite maps that keep their order

A table is a list of entries that is read by key.  Storing under a key that is present keeps the
entry's place, and a new key goes to the end, so a table lists its keys in the order in which they
first came.  The lemmas say what `get?` reads after each operation.
-/

namespace MessageBus

/-- A finite map from `κ` to `α`, read by its first entry under a key. -/
structure Table (κ α : Type) where
  entries : List (κ × α)

namespace Table

variable {κ α : Type}

/-- The table with no entry. -/
def empty : Table κ α := ⟨[]⟩

instance : Inhabited (Table κ α) := ⟨empty⟩

/-- The keys, in order of first arrival. -/
def keys (t : Table κ α) : List κ := t.entries.map Prod.fst

/-- The values, in the order of their keys. -/
def values (t : Table κ α) : List α := t.entries.map Prod.snd

/-- The number of entries. -/
def size (t : Table κ α) : Nat := t.entries.length

/-- Keeps the entries that satisfy `p`. -/
def filter (t : Table κ α) (p : κ → α → Bool) : Table κ α := ⟨t.entries.filter fun e => p e.1 e.2⟩

variable [DecidableEq κ]

/-- The value of the first entry under `k`. -/
def find (k : κ) : List (κ × α) → Option α
  | [] => none
  | (l, v) :: es => if l = k then some v else find k es

/-- Replaces the first entry under `k`, or adds one at the end. -/
def store (k : κ) (v : α) : List (κ × α) → List (κ × α)
  | [] => [(k, v)]
  | (l, w) :: es => if l = k then (k, v) :: es else (l, w) :: store k v es

/-- The value under `k`. -/
def get? (t : Table κ α) (k : κ) : Option α := find k t.entries

/-- Whether there is an entry under `k`. -/
def contains (t : Table κ α) (k : κ) : Bool := (t.get? k).isSome

/-- Replaces the value under `k`, or adds an entry at the end. -/
def insert (t : Table κ α) (k : κ) (v : α) : Table κ α := ⟨store k v t.entries⟩

/-- Removes every entry under `k`. -/
def erase (t : Table κ α) (k : κ) : Table κ α := t.filter fun l _ => l ≠ k

/-- Changes the value under `k`, if there is one. -/
def modify (t : Table κ α) (k : κ) (f : α → α) : Table κ α :=
  match t.get? k with
  | some v => t.insert k (f v)
  | none => t

/-- The table of a list of entries, later ones replacing earlier ones under one key. -/
def ofList (es : List (κ × α)) : Table κ α := es.foldl (fun t e => t.insert e.1 e.2) empty

/-! ## Reading after an operation -/

@[simp] theorem get?_empty (k : κ) : (empty : Table κ α).get? k = none := rfl

theorem find_store (k l : κ) (v : α) (es : List (κ × α)) :
    find l (store k v es) = if k = l then some v else find l es := by
  induction es with
  | nil => rfl
  | cons e es ih =>
    obtain ⟨m, w⟩ := e
    by_cases hm : m = k
    · subst hm
      by_cases hl : m = l <;> simp [store, find, hl]
    · by_cases hl : m = l
      · subst hl
        simp [store, find, hm, Ne.symm hm]
      · simp [store, find, hm, hl, ih]

theorem get?_insert (t : Table κ α) (k l : κ) (v : α) :
    (t.insert k v).get? l = if k = l then some v else t.get? l := find_store k l v t.entries

@[simp] theorem get?_insert_self (t : Table κ α) (k : κ) (v : α) :
    (t.insert k v).get? k = some v := by simp [get?_insert]

theorem find_filter_ne (k l : κ) (es : List (κ × α)) :
    find l (es.filter fun e => decide (e.1 ≠ k)) = if k = l then none else find l es := by
  induction es with
  | nil => simp [find]
  | cons e es ih =>
    obtain ⟨m, w⟩ := e
    by_cases hm : m = k
    · subst hm
      by_cases hl : m = l
      · subst hl; simpa [find] using ih
      · simpa [find, hl] using ih
    · by_cases hl : m = l
      · subst hl
        simp [find, hm, Ne.symm hm]
      · simpa [find, hm, hl] using ih

theorem get?_erase (t : Table κ α) (k l : κ) :
    (t.erase k).get? l = if k = l then none else t.get? l := find_filter_ne k l t.entries

end Table

end MessageBus
