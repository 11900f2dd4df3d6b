/-
# What fits is canonical

`Value.canonical_of_fit`: a value that comes out of `fit` has the form that its tag asks for.  A
container keeps this fact about its values, so it is proved here, before containers.
-/
import MessageBus.Packing

namespace MessageBus

/-! ## 1. Lists of values that are made one by one -/

/-- A step that succeeds has a first half that succeeds. -/
theorem bind_eq_ok {α β ε : Type} {x : Except ε α} {f : α → Except ε β} {b : β} :
    x >>= f = .ok b ↔ ∃ a, x = .ok a ∧ f a = .ok b := by
  cases x <;> simp [bind, Except.bind]

theorem mapM_cons_eq_ok {α β ε : Type} {f : α → Except ε β} {x : α} {xs : List α} {ys : List β} :
    (x :: xs).mapM f = .ok ys ↔ ∃ y, f x = .ok y ∧ ∃ zs, xs.mapM f = .ok zs ∧ y :: zs = ys := by
  simp only [List.mapM_cons, bind_eq_ok, pure, Except.pure, Except.ok.injEq]

theorem exists_of_mem_mapM {α β ε : Type} {f : α → Except ε β} {xs : List α} {ys : List β}
    (h : xs.mapM f = .ok ys) : ∀ y ∈ ys, ∃ x ∈ xs, f x = .ok y := by
  induction xs generalizing ys with
  | nil =>
    simp only [List.mapM_nil, pure, Except.pure, Except.ok.injEq] at h
    simp [← h]
  | cons x xs ih =>
    obtain ⟨y, hx, zs, hs, rfl⟩ := mapM_cons_eq_ok.1 h
    intro z hz
    rcases List.mem_cons.1 hz with rfl | hz
    · exact ⟨x, by simp, hx⟩
    · obtain ⟨w, hw, hf⟩ := ih hs z hz
      exact ⟨w, by simp [hw], hf⟩

namespace Value

/-- Values that are fitted side by side to their tags are canonical for them, if each is. -/
theorem canonicalAll_of_mapM {f : Tag → Value → Except PackError Value}
    (hf : ∀ t v w, f t v = .ok w → Canonical t w) :
    ∀ {ts : List Tag} {vs ws : List Value}, ts.length = vs.length →
      ((ts.zip vs).mapM fun (t, v) => f t v) = .ok ws → CanonicalAll ts ws
  | [], [], ws, _, h => by
    simp only [List.zip_nil_left, List.mapM_nil, pure, Except.pure, Except.ok.injEq] at h
    exact h ▸ .nil
  | t :: ts, v :: vs, ws, hl, h => by
    obtain ⟨y, hx, zs, hs, rfl⟩ := mapM_cons_eq_ok.1 h
    exact .cons (hf t v y hx) (canonicalAll_of_mapM hf (by simpa using hl) hs)

theorem canonicalAll_of_fitAll {f : Tag → Value → Except PackError Value}
    (hf : ∀ t v w, f t v = .ok w → Canonical t w) {ts : List Tag} {vs ws : List Value}
    (h : fitAll f ts vs = .ok ws) : CanonicalAll ts ws := by
  unfold fitAll at h
  split at h
  · exact canonicalAll_of_mapM hf ‹_› h
  · cases h

/-! ## 2. One value -/

theorem canonical_of_fitInt {k : IntKind} {v w : Value} (h : fitInt k v = .ok w) :
    Canonical (.int k) w := by
  unfold fitInt at h
  split at h
  · cases h; exact .int _ _
  · cases h

theorem canonical_of_fitDouble {v w : Value} (h : fitDouble v = .ok w) : Canonical .double w := by
  unfold fitDouble at h
  split at h
  · cases h; exact .double _
  · split at h
    · cases h; exact .double _
    · cases h

theorem canonical_of_fitPath {s : String} {w : Value} (h : fitPath s = .ok w) :
    Canonical .objectPath w := by
  unfold fitPath at h
  split at h
  · cases h; exact .objectPath _ ‹_›
  · cases h

theorem canonical_of_fitSignature {s : String} {w : Value} (h : fitSignature s = .ok w) :
    Canonical .signature w := by
  unfold fitSignature at h
  split at h
  · cases h; exact .signature _ ‹_›
  · cases h

/-- **What fits is canonical**, with any number of levels left. -/
theorem canonical_of_fitWithin :
    ∀ (n : Nat) (t : Tag) (v w : Value), fitWithin n t v = .ok w → Canonical t w := by
  intro n
  induction n with
  | zero => intro t v w h; cases h
  | succ n ih =>
    intro t v w h
    unfold fitWithin at h
    split at h
    · exact canonical_of_fitInt h
    · cases h; exact .bool _
    · exact canonical_of_fitDouble h
    · cases h; exact .string _
    · exact canonical_of_fitPath h
    · exact canonical_of_fitPath h
    · exact canonical_of_fitSignature h
    · exact canonical_of_fitSignature h
    · cases h; exact .variant _ _
    · obtain ⟨s, -, h⟩ := bind_eq_ok.1 h
      obtain ⟨u, -, h⟩ := bind_eq_ok.1 h
      cases h
      exact .variant _ _
    · obtain ⟨us, hs, h⟩ := bind_eq_ok.1 h
      cases h
      refine .array _ _ fun v hv => ?_
      obtain ⟨x, -, hx⟩ := exists_of_mem_mapM hs v hv
      exact ih _ _ _ hx
    · rename_i key value entries
      obtain ⟨us, hs, h⟩ := bind_eq_ok.1 h
      cases h
      have hus : ∀ e ∈ us, Canonical key e.1 ∧ Canonical value e.2 := by
        intro e he
        obtain ⟨⟨k, v⟩, -, hx⟩ := exists_of_mem_mapM hs e he
        obtain ⟨k', hk, hx⟩ := bind_eq_ok.1 hx
        obtain ⟨v', hv, hx⟩ := bind_eq_ok.1 hx
        cases hx
        exact ⟨ih _ _ _ hk, ih _ _ _ hv⟩
      exact .dict _ _ _ (fun e he => (hus e he).1) (fun e he => (hus e he).2)
    · obtain ⟨us, hs, h⟩ := bind_eq_ok.1 h
      cases h
      exact .struct _ _ (canonicalAll_of_fitAll ih hs)
    · obtain ⟨us, hs, h⟩ := bind_eq_ok.1 h
      cases h
      exact .struct _ _ (canonicalAll_of_fitAll ih hs)
    · cases h

theorem canonical_of_fit {t : Tag} {v w : Value} (h : fit t v = .ok w) : Canonical t w :=
  canonical_of_fitWithin levels t v w h

end Value

end MessageBus
