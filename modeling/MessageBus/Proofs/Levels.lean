/-
# What starting deeper changes

`Value.depth_adds_limit_only` is the main theorem.  Packing against a tag, inferring a tag and
inferring a box all go down with the number of levels left, and a start at a greater depth leaves
fewer.  The answer is then the one that was given before, or it is that the limit is met.  No other
failure takes the place of a success, none the place of another failure, and no success comes with
another outcome.

The three recursions look at the parts of a value in a certain order and stop at the first failure,
so what a failure says cannot be told from the value without that order.  It need not be told.  Two
runs of one recursion, with fewer and with more levels, are compared step by step (`Curbed`): as
long as the answers are the same, both go on in the same way, and the first step that meets the
limit ends the run with fewer (`Curbed.bind`).

A recursion that meets the limit whatever the value would pass this comparison.  So `Curbed` also
says when the limit may be met at all: only if there are too few levels for the depth of the value.
One level is needed for every node on the way to the deepest, and packing needs one more, for a box
that is made under `v`.  That box is where the two halves need one another: its tag is inferred, and
packing against an inferred tag fails over a text at most (`Value.fitWithin_of_takes`).
-/
import MessageBus.Proofs.Boxing

namespace MessageBus

open PackError

variable {α β : Type} {low low' : Prop} {r r' s s' : Except PackError α}

/-! ## 1. Answers with fewer levels -/

/-- The answer `r` is `s`, or that the limit is met; and the limit is met only if there are too few
levels (`low`). -/
structure Curbed (low : Prop) (r s : Except PackError α) : Prop where
  same_or : r = s ∨ r = .error recursionLimit
  low_of : r = .error recursionLimit → low

namespace Curbed

theorem refl (h : r ≠ .error recursionLimit) : Curbed low r r := ⟨.inl rfl, fun hr => absurd hr h⟩

theorem ok (a : α) : Curbed low (.ok a) (.ok a) := refl nofun

theorem limit (h : low) : Curbed low (.error recursionLimit) s := ⟨.inr rfl, fun _ => h⟩

theorem mono (h : Curbed low r s) (hl : low → low') : Curbed low' r s :=
  ⟨h.same_or, fun hr => hl (h.low_of hr)⟩

/-- Two runs go on in the same way until the limit is met. -/
theorem bind {f g : α → Except PackError β} (h : Curbed low r s)
    (hf : ∀ a, r = .ok a → Curbed low (f a) (g a)) : Curbed low (r >>= f) (s >>= g) := by
  rcases h.same_or with rfl | rfl
  · cases r with
    | ok a => exact hf a rfl
    | error e =>
      refine ⟨.inl rfl, fun he => ?_⟩
      cases he
      exact h.low_of rfl
  · exact limit (h.low_of rfl)

theorem map {f : α → β} (h : Curbed low r s) :
    Curbed low (r >>= fun a => .ok (f a)) (s >>= fun a => .ok (f a)) :=
  h.bind fun a _ => ok (f a)

/-- A condition that does not depend on the levels sends both runs the same way. -/
theorem ite {c : Prop} [Decidable c] (h : Curbed low r s) (h' : Curbed low r' s') :
    Curbed low (if c then r else r') (if c then s else s') := by
  split
  · exact h
  · exact h'

/-- Down a list, if it holds of every element. -/
theorem mapM {f g : α → Except PackError β} {xs : List α}
    (h : ∀ x ∈ xs, Curbed low (f x) (g x)) : Curbed low (xs.mapM f) (xs.mapM g) := by
  induction xs with
  | nil => exact ok []
  | cons x xs ih =>
    rw [List.forall_mem_cons] at h
    rw [List.mapM_cons, List.mapM_cons]
    exact h.1.bind fun _ _ => (ih h.2).map

theorem forM {f g : α → Except PackError Unit} {xs : List α}
    (h : ∀ x ∈ xs, Curbed low (f x) (g x)) : Curbed low (xs.forM f) (xs.forM g) := by
  induction xs with
  | nil => exact ok ()
  | cons x xs ih =>
    rw [List.forall_mem_cons] at h
    exact h.1.bind fun _ _ => ih h.2

/-- A part that needs `d` levels lies in a whole that needs one more. -/
theorem part {n d k : Nat} (h : Curbed (n < d) r s) (hd : d ≤ k) : Curbed (n + 1 < k + 1) r s :=
  h.mono fun hn => Nat.succ_lt_succ (Nat.lt_of_lt_of_le hn hd)

end Curbed

namespace Value

/-! ## 2. Inference -/

theorem depth_lt_of_item {v : Value} {items : List Value} (hv : v ∈ items) :
    v.depth < height items :=
  height_le_iff.1 (Nat.le_refl _) v hv

theorem depth_lt_of_entry {e : Value × Value} {entries : List (Value × Value)}
    (he : e ∈ entries) : e.1.depth < heightEntries entries ∧ e.2.depth < heightEntries entries :=
  heightEntries_le_iff.1 (Nat.le_refl _) e he

/-- **Inference with fewer levels** tells the same tag or the same failure, or meets the limit, and
that never if there are more levels than the value is deep. -/
theorem inferWithin_curbed (k n : Nat) (v : Value) :
    Curbed (n < v.depth + 1) (inferWithin n v) (inferWithin (k + n) v) := by
  induction n generalizing v with
  | zero => exact .limit (Nat.succ_pos _)
  | succ n ih =>
    have hitems {items : List Value} : ∀ u ∈ items,
        Curbed (n + 1 < height items + 1) (inferWithin n u) (inferWithin (k + n) u) :=
      fun u hu => (ih u).part (depth_lt_of_item hu)
    cases v with
    | array items =>
      cases items with
      | nil => exact .refl nofun
      | cons v rest =>
        obtain ⟨hv, hrest⟩ := List.forall_mem_cons.1 (hitems : ∀ u ∈ v :: rest, _)
        refine hv.bind fun elem _ => .bind (.forM fun u hu => ?_) fun _ _ => .ok _
        exact (hrest u hu).bind fun _ _ => .ite (.refl nofun) (.ok ())
    | dict entries =>
      have hkeys : ∀ e ∈ entries, Curbed (n + 1 < heightEntries entries + 1)
          (inferWithin n e.1) (inferWithin (k + n) e.1) :=
        fun e he => (ih e.1).part (depth_lt_of_entry he).1
      have hvalues : ∀ e ∈ entries, Curbed (n + 1 < heightEntries entries + 1)
          (inferWithin n e.2) (inferWithin (k + n) e.2) :=
        fun e he => (ih e.2).part (depth_lt_of_entry he).2
      cases entries with
      | nil => exact .refl nofun
      | cons e rest =>
        rw [List.forall_mem_cons] at hkeys hvalues
        refine hkeys.1.bind fun key _ => hvalues.1.bind fun value _ => .ite (.refl nofun) ?_
        refine .bind (.forM fun e he => ?_) fun _ _ => .ok _
        refine (hkeys.2 e he).bind fun _ _ => .ite (.refl nofun) ?_
        exact (hvalues.2 e he).bind fun _ _ => .ite (.refl nofun) (.ok ())
    | struct items => exact (Curbed.mapM hitems).map
    | _ => exact .ok _

/-! ## 3. Packing -/

theorem fitInt_ne_limit (k : IntKind) (v : Value) : fitInt k v ≠ .error recursionLimit := by
  unfold fitInt
  split <;> nofun

theorem fitDouble_ne_limit (v : Value) : fitDouble v ≠ .error recursionLimit := by
  unfold fitDouble
  split
  · nofun
  · split <;> nofun

theorem fitPath_ne_limit (s : String) : fitPath s ≠ .error recursionLimit := by
  unfold fitPath
  split <;> nofun

theorem fitSignature_ne_limit (s : String) : fitSignature s ≠ .error recursionLimit := by
  unfold fitSignature
  split <;> nofun

/-- Packing against an inferred tag never meets the limit that inference has not met. -/
theorem fitWithin_ne_limit {n : Nat} {t : Tag} {v : Value} (ht : inferWithin n v = .ok t) :
    fitWithin n t v ≠ .error recursionLimit := by
  obtain ⟨htakes, hdepth⟩ := inferWithin_iff.1 ht
  rcases fitWithin_of_takes htakes hdepth with hv | ⟨e, he, hv⟩
  · rw [hv]
    nofun
  · rw [hv]
    cases he <;> nofun

end Value

/-- **A box** is inferred with fewer levels as with more, if packing goes on in the same way, and
needs no more levels than its tag. -/
theorem Variant.inferWithin_curbed {k n : Nat} {v : Value}
    (hfit : ∀ t, Curbed low (Value.fitWithin n t v) (Value.fitWithin (k + n) t v)) :
    Curbed (n < v.depth + 1) (inferWithin n v) (inferWithin (k + n) v) := by
  refine (Value.inferWithin_curbed k n v).bind fun t ht => Curbed.map ?_
  exact ⟨(hfit t).same_or, fun h => absurd h (Value.fitWithin_ne_limit ht)⟩

namespace Value

/-- Values side by side with their tags are packed with fewer levels as with more, if each is. -/
theorem fitAll_curbed {f g : Tag → Value → Except PackError Value} {ts : List Tag}
    {vs : List Value} (h : ∀ t, ∀ v ∈ vs, Curbed low (f t v) (g t v)) :
    Curbed low (fitAll f ts vs) (fitAll g ts vs) :=
  .ite (.mapM fun p hp => h p.1 p.2 (List.of_mem_zip hp).2) (.refl nofun)

/-- **Packing with fewer levels** gives the same value or the same failure, or meets the limit, and
that never if there are at least two levels more than the value is deep. -/
theorem fitWithin_curbed (k n : Nat) (t : Tag) (v : Value) :
    Curbed (n < v.depth + 2) (fitWithin n t v) (fitWithin (k + n) t v) := by
  induction n generalizing t v with
  | zero => exact .limit (Nat.succ_pos _)
  | succ n ih =>
    have hitems {items : List Value} (t : Tag) : ∀ u ∈ items,
        Curbed (n + 1 < height items + 2) (fitWithin n t u) (fitWithin (k + n) t u) :=
      fun u hu => (ih t u).part (Nat.succ_le_succ (depth_lt_of_item hu))
    cases t with
    | int j => exact .refl (fitInt_ne_limit j v)
    | bool =>
      cases v with
      | bool b => exact .ok _
      | _ => exact .refl nofun
    | double => exact .refl (fitDouble_ne_limit v)
    | string =>
      cases v with
      | string s => exact .ok _
      | _ => exact .refl nofun
    | objectPath =>
      cases v with
      | objectPath s | string s => exact .refl (fitPath_ne_limit s)
      | _ => exact .refl nofun
    | signature =>
      cases v with
      | signature s | string s => exact .refl (fitSignature_ne_limit s)
      | _ => exact .refl nofun
    | variant =>
      by_cases hv : v.kind = .variant
      · cases v with
        | variant s w => exact .ok _
        | _ => cases hv
      · rw [fitWithin_variant_eq hv, ← Nat.add_assoc, fitWithin_variant_eq hv]
        have hbox := Variant.inferWithin_curbed fun t => ih t v
        exact (hbox.part (Nat.le_refl _)).map
    | array elem =>
      cases v with
      | array items => exact (Curbed.mapM (hitems elem)).map
      | _ => exact .refl nofun
    | dict key value =>
      cases v with
      | dict entries =>
        refine (Curbed.mapM fun e he => ?_).map
        obtain ⟨hk, hv⟩ := depth_lt_of_entry he
        have hkey := (ih key e.1).part (Nat.succ_le_succ hk)
        have hvalue := (ih value e.2).part (Nat.succ_le_succ hv)
        exact hkey.bind fun _ _ => hvalue.map
      | _ => exact .refl nofun
    | struct fields =>
      cases v with
      | array items | struct items => exact (fitAll_curbed hitems).map
      | _ => exact .refl nofun

/-- Under `v` one level goes to the box. -/
example : fitWithin 1 .variant (.bool true) = .error recursionLimit ∧
    fitWithin 2 .variant (.bool true) = .ok (.variant .bool (.bool true)) :=
  ⟨rfl, rfl⟩

end Value

/-! ## 4. Every depth -/

/-- How the answers of `f`, which is given the number of levels left, go with the depth at which it
starts.  It needs no more than `bound` levels. -/
structure Steady (bound : Nat) (f : Nat → Except PackError α) : Prop where
  /-- What succeeds at depth `d` succeeds with the same outcome at every lesser depth. -/
  raised (d' d : Nat) (hd : d' ≤ d) (x : α) (h : f (levels - d) = .ok x) : f (levels - d') = .ok x
  /-- What succeeds at depth `d'` succeeds with the same outcome at every greater depth, or the
  limit is met there; -/
  lowered (d' d : Nat) (hd : d' ≤ d) (x : α) (h : f (levels - d') = .ok x) :
    f (levels - d) = .ok x ∨ f (levels - d) = .error recursionLimit
  /-- and so it is with what fails. -/
  failed (d' d : Nat) (hd : d' ≤ d) (e : PackError) (h : f (levels - d') = .error e) :
    f (levels - d) = .error e ∨ f (levels - d) = .error recursionLimit
  /-- No two depths have different outcomes. -/
  unique (d' d : Nat) (x y : α) (hx : f (levels - d') = .ok x) (hy : f (levels - d) = .ok y) : x = y
  /-- The limit is met exactly if fewer levels are left than a number that is fixed beforehand. -/
  met : ∃ k ≤ bound, ∀ d, f (levels - d) = .error recursionLimit ↔ levels - d < k

section Steady

variable {bound : Nat} {f : Nat → Except PackError α}

/-- Fewer levels give the same answer, or meet the limit. -/
theorem eq_or_limit (h : ∀ k n, Curbed (n < bound) (f n) (f (k + n))) {n m : Nat} (hnm : n ≤ m) :
    f n = f m ∨ f n = .error recursionLimit := by
  obtain ⟨k, rfl⟩ := Nat.exists_eq_add_of_le' hnm
  exact (h k n).same_or

/-- There is a least number of levels that is enough. -/
theorem exists_levels_needed (h : ∀ k n, Curbed (n < bound) (f n) (f (k + n))) :
    ∃ k ≤ bound, ∀ n, f n = .error recursionLimit ↔ n < k := by
  classical
  have hbound : f bound ≠ .error recursionLimit :=
    fun hlimit => Nat.lt_irrefl bound ((h 0 bound).low_of hlimit)
  have henough : ∃ n, f n ≠ .error recursionLimit := ⟨bound, hbound⟩
  refine ⟨Nat.find henough, Nat.find_min' henough hbound, fun n => ⟨fun hn => ?_, fun hn => ?_⟩⟩
  · by_contra hle
    rcases eq_or_limit h (Nat.le_of_not_lt hle) with hsame | hlimit
    · exact Nat.find_spec henough (hsame.trans hn)
    · exact Nat.find_spec henough hlimit
  · exact not_not.1 (Nat.find_min henough hn)

/-- **What is the same up to the limit with more levels is steady.** -/
theorem steady_of_curbed (h : ∀ k n, Curbed (n < bound) (f n) (f (k + n))) : Steady bound f := by
  have hdeeper {d' d : Nat} (hd : d' ≤ d) :
      f (levels - d) = f (levels - d') ∨ f (levels - d) = .error recursionLimit :=
    eq_or_limit h (Nat.sub_le_sub_left hd levels)
  have hraised (d' d : Nat) (hd : d' ≤ d) (x : α) (hx : f (levels - d) = .ok x) :
      f (levels - d') = .ok x := by
    rcases hdeeper hd with hsame | hlimit
    · exact hsame.symm.trans hx
    · cases hx.symm.trans hlimit
  refine ⟨hraised, ?lowered, ?failed, ?unique, ?met⟩
  case lowered => exact fun d' d hd x hx => (hdeeper hd).imp_left fun hsame => hsame.trans hx
  case failed => exact fun d' d hd e he => (hdeeper hd).imp_left fun hsame => hsame.trans he
  case unique =>
    intro d' d x y hx hy
    rcases Nat.le_total d' d with hd | hd
    · exact Except.ok.inj (hx.symm.trans (hraised d' d hd y hy))
    · exact Except.ok.inj ((hraised d d' hd x hx).symm.trans hy)
  case met =>
    obtain ⟨k, hk, hmet⟩ := exists_levels_needed h
    exact ⟨k, hk, fun d => hmet (levels - d)⟩

end Steady

namespace Value

/-- **The depth adds the limit and nothing else**, whatever is packed, inferred or boxed: a start at
another depth leaves the answer as it is, or meets the limit.  A value that is not too deep for the
place does not meet it. -/
theorem depth_adds_limit_only (t : Tag) (v : Value) :
    Steady (v.depth + 2) (fun n => fitWithin n t v) ∧
      Steady (v.depth + 1) (fun n => inferWithin n v) ∧
      Steady (v.depth + 1) (fun n => Variant.inferWithin n v) :=
  ⟨steady_of_curbed fun k n => fitWithin_curbed k n t v,
    steady_of_curbed fun k n => inferWithin_curbed k n v,
    steady_of_curbed fun k n => Variant.inferWithin_curbed fun s => fitWithin_curbed k n s v⟩

/-- A struct that holds an array with an item packs at depth 62 and at no greater one. -/
theorem depth_adds_limit_only_struct :
    let v : Value := .struct [.array [.bool true], .string "on"]
    let t : Tag := .struct [.array .bool, .string]
    (∀ d ≤ 62, fitWithin (levels - d) t v = .ok v) ∧
      ∀ d > 62, fitWithin (levels - d) t v = .error recursionLimit := by
  intro v t
  have hsteady := (depth_adds_limit_only t v).1
  refine ⟨fun d hd => hsteady.raised d 62 hd v rfl, fun d hd => ?_⟩
  obtain ⟨k, -, hmet⟩ := hsteady.met
  have hk : levels - 63 < k := (hmet 63).1 rfl
  exact (hmet d).2 (Nat.lt_of_le_of_lt (Nat.sub_le_sub_left hd levels) hk)

/-- A field of another kind is complained about where the limit is not met before it. -/
example :
    let v : Value := .struct [.array [.bool true], .string "on"]
    let t : Tag := .struct [.array .bool, .bool]
    fitWithin (levels - 62) t v = .error (typeMismatch .bool .string) ∧
      fitWithin (levels - 63) t v = .error recursionLimit :=
  ⟨rfl, rfl⟩

end Value

end MessageBus
