/-
# What fails first

A chain of checks fails as the first check in it that fails.  Success of a chain is opened by
`bind_eq_ok`, step by step; the lemmas here open its failure in the same way, and that of a check
made on one element of a list after the other (`mapM_eq_error`).  Where only one success is
possible, and only failures of a known kind, neither has to be opened (`OkOr`).
-/
import MessageBus.Packing.Canonical
import Mathlib.Data.List.Forall2

namespace MessageBus

variable {α β ε ε' : Type}

/-! ## 1. One check after the other -/

/-- A step fails in its first half, or in the second after the first has succeeded. -/
theorem bind_eq_error {x : Except ε α} {f : α → Except ε β} {e : ε} :
    x >>= f = .error e ↔ x = .error e ∨ ∃ a, x = .ok a ∧ f a = .error e := by
  cases x <;> simp [bind, Except.bind]

@[simp] theorem mapError_ok (f : ε → ε') (a : α) : (Except.ok a).mapError f = .ok a := rfl

@[simp] theorem mapError_error (f : ε → ε') (e : ε) :
    (Except.error e : Except ε α).mapError f = .error (f e) := rfl

@[simp] theorem mapError_eq_ok {x : Except ε α} {f : ε → ε'} {a : α} :
    x.mapError f = .ok a ↔ x = .ok a := by
  cases x <;> simp

theorem mapError_eq_error {x : Except ε α} {f : ε → ε'} {e' : ε'} :
    x.mapError f = .error e' ↔ ∃ e, x = .error e ∧ f e = e' := by
  cases x <;> simp

/-- What does not fail succeeds. -/
theorem exists_eq_ok {x : Except ε α} : (∃ a, x = .ok a) ↔ ∀ e, x ≠ .error e := by
  cases x <;> simp

/-- A comparison is passed if what is compared is as expected. -/
theorem bind_expect_eq_ok [DecidableEq α] {x : Except ε α} {z : Except ε β} {a : α} {b : β}
    {e : ε} : (x >>= fun s => if s ≠ a then .error e else z) = .ok b ↔ x = .ok a ∧ z = .ok b := by
  rw [bind_eq_ok]
  constructor
  · rintro ⟨s, hs, h⟩
    split at h
    · cases h
    · rename_i hsa
      exact ⟨not_ne_iff.1 hsa ▸ hs, h⟩
  · rintro ⟨hx, hz⟩
    exact ⟨a, hx, by simpa using hz⟩

/-! ## 2. Down a list -/

/-- A list is mapped to the list of what its elements are mapped to. -/
theorem mapM_eq_ok {f : α → Except ε β} {xs : List α} {ys : List β} :
    xs.mapM f = .ok ys ↔ List.Forall₂ (fun x y => f x = .ok y) xs ys := by
  induction xs generalizing ys with
  | nil => cases ys <;> simp [pure, Except.pure]
  | cons x xs ih =>
    rw [mapM_cons_eq_ok]
    simp only [ih]
    constructor
    · rintro ⟨y, hx, zs, hxs, rfl⟩
      exact .cons hx hxs
    · rintro (_ | ⟨hx, hxs⟩)
      exact ⟨_, hx, _, hxs, rfl⟩

/-- Of two lists side by side, each element of the first has one of the second beside it. -/
theorem exists_mem_of_forall₂ {R : α → β → Prop} {xs : List α} {ys : List β}
    (h : List.Forall₂ R xs ys) : ∀ x ∈ xs, ∃ y ∈ ys, R x y := by
  induction h with
  | nil => simp
  | cons hx _ ih =>
    refine List.forall_mem_cons.2 ⟨⟨_, List.mem_cons_self, hx⟩, fun x hmem => ?_⟩
    obtain ⟨y, hy, hxy⟩ := ih x hmem
    exact ⟨y, List.mem_cons_of_mem _ hy, hxy⟩

/-- Lists are mapped to the same, if their elements are side by side. -/
theorem map_eq_of_forall₂ {γ : Type} {f : α → γ} {g : β → γ} {xs : List α} {ys : List β}
    (h : List.Forall₂ (fun x y => g y = f x) xs ys) : ys.map g = xs.map f := by
  rw [← List.forall₂_eq_eq_eq, List.forall₂_map_left_iff, List.forall₂_map_right_iff]
  exact h.flip

/-- A check down a list is passed if every element passes it. -/
theorem forM_eq_ok {f : α → Except ε Unit} {xs : List α} :
    xs.forM f = .ok () ↔ ∀ x ∈ xs, f x = .ok () := by
  induction xs with
  | nil => exact ⟨fun _ => by simp, fun _ => rfl⟩
  | cons x xs ih =>
    have hcons : (x :: xs).forM f = f x >>= fun _ => xs.forM f := rfl
    rw [hcons, bind_eq_ok, List.forall_mem_cons, ← ih]
    exact ⟨fun ⟨_, h⟩ => h, fun h => ⟨(), h⟩⟩

/-- A list is mapped if each of its elements is. -/
theorem exists_mapM_eq_ok {f : α → Except ε β} {xs : List α} :
    (∃ ys, xs.mapM f = .ok ys) ↔ ∀ x ∈ xs, ∃ y, f x = .ok y := by
  induction xs with
  | nil => exact ⟨fun _ => by simp, fun _ => ⟨[], rfl⟩⟩
  | cons x xs ih =>
    rw [List.forall_mem_cons, ← ih]
    constructor
    · rintro ⟨ys, h⟩
      obtain ⟨y, hx, zs, hs, -⟩ := mapM_cons_eq_ok.1 h
      exact ⟨⟨y, hx⟩, zs, hs⟩
    · rintro ⟨⟨y, hx⟩, zs, hs⟩
      exact ⟨y :: zs, mapM_cons_eq_ok.2 ⟨y, hx, zs, hs, rfl⟩⟩

/-- **A list fails as its first element that does.** -/
theorem mapM_eq_error {f : α → Except ε β} {xs : List α} {e : ε} :
    xs.mapM f = .error e ↔ ∃ before x after, xs = before ++ x :: after ∧
      (∀ y ∈ before, ∃ z, f y = .ok z) ∧ f x = .error e := by
  induction xs with
  | nil =>
    constructor
    · intro h
      cases h
    · rintro ⟨before, x, after, h, -⟩
      cases before <;> cases h
  | cons x xs ih =>
    rw [List.mapM_cons, bind_eq_error]
    constructor
    · rintro (hx | ⟨y, hx, h⟩)
      · exact ⟨[], x, xs, rfl, by simp, hx⟩
      · rcases bind_eq_error.1 h with h | ⟨ys, -, h⟩
        · obtain ⟨before, z, after, rfl, hbefore, hz⟩ := ih.1 h
          refine ⟨x :: before, z, after, rfl, ?_, hz⟩
          exact List.forall_mem_cons.2 ⟨⟨y, hx⟩, hbefore⟩
        · cases h
    · rintro ⟨before, z, after, h, hbefore, hz⟩
      cases before with
      | nil =>
        cases h
        exact Or.inl hz
      | cons w before =>
        cases h
        obtain ⟨⟨y, hx⟩, hbefore⟩ := List.forall_mem_cons.1 hbefore
        have htail := ih.2 ⟨before, z, after, rfl, hbefore, hz⟩
        exact Or.inr ⟨y, hx, bind_eq_error.2 (Or.inl htail)⟩

/-- The second half of a list is looked at if the first half does not fail. -/
theorem mapM_append_eq_error {f : α → Except ε β} {xs ys : List α} {e : ε} :
    (xs ++ ys).mapM f = .error e ↔ xs.mapM f = .error e ∨
      (∃ zs, xs.mapM f = .ok zs) ∧ ys.mapM f = .error e := by
  rw [List.mapM_append, bind_eq_error]
  refine or_congr_right ⟨?_, ?_⟩
  · rintro ⟨zs, hxs, h⟩
    rcases bind_eq_error.1 h with h | ⟨us, -, h⟩
    · exact ⟨⟨zs, hxs⟩, h⟩
    · cases h
  · rintro ⟨⟨zs, hxs⟩, h⟩
    exact ⟨zs, hxs, bind_eq_error.2 (Or.inl h)⟩

/-! ## 3. One success, known failures -/

/-- The outcome is `x`, or a failure of the kind given. -/
def OkOr (x : α) (Bad : ε → Prop) (r : Except ε α) : Prop :=
  r = .ok x ∨ ∃ e, Bad e ∧ r = .error e

namespace OkOr

variable {x : α} {y : β} {Bad Worse : ε → Prop} {r : Except ε α}

theorem bind {f : α → Except ε β} (h : OkOr x Bad r) (hf : OkOr y Bad (f x)) :
    OkOr y Bad (r >>= f) := by
  rcases h with rfl | ⟨e, he, rfl⟩
  · exact hf
  · exact .inr ⟨e, he, rfl⟩

theorem map {f : α → β} (h : OkOr x Bad r) : OkOr (f x) Bad (r >>= fun x => .ok (f x)) :=
  h.bind (.inl rfl)

theorem mono (h : OkOr x Bad r) (hb : ∀ e, Bad e → Worse e) : OkOr x Worse r :=
  h.imp id fun ⟨e, he, hr⟩ => ⟨e, hb e he, hr⟩

/-- Down a list, if it holds of every element. -/
theorem mapM {f : α → Except ε β} {g : α → β} {xs : List α}
    (h : ∀ x ∈ xs, OkOr (g x) Bad (f x)) : OkOr (xs.map g) Bad (xs.mapM f) := by
  induction xs with
  | nil => exact .inl rfl
  | cons x xs ih =>
    rw [List.forall_mem_cons] at h
    rw [List.mapM_cons]
    exact h.1.bind (ih h.2).map

end OkOr

end MessageBus
