/-
# Packing is a projection onto canonical values

`Container.pack_projects` is the main theorem.  What a container stores is canonical for its tags;
packing it a second time changes nothing; and for tags that have been read from text, the values
that packing leaves as they are, are the canonical ones and no others.

That fitting gives canonical values is `canonical_of_fit`, which containers rest on.  Two facts are
left to prove, and they are about different sets of values.

* **A canonical value is left alone** (`fitWithin_of_canonical`), if there are more levels left than
  its tag is deep.  Tags that have been read are at most `maxDepth` deep, and at the root there is
  one level more than that, so the limit never refuses a canonical value of such a tag.
* **What has been fitted is left alone** (`fitWithin_idempotent`), with no bound on the tag.  A tag
  that is not read from text may be deeper than the limit, and an empty array fits it all the same:
  the limit counts the levels of the value that are visited, which are the same the second time.

What a level does when it succeeds is said once, as a relation (`Value.Fits`); whatever is preserved
by packing is proved by induction on the levels with a case for each of its constructors.
-/
import MessageBus.Container
import MessageBus.Proofs.Checks
import MessageBus.Proofs.Reading

namespace MessageBus

/-! ## 1. Lists that are mapped onto themselves -/

theorem mapM_eq_self {α ε : Type} {f : α → Except ε α} {xs : List α}
    (h : ∀ x ∈ xs, f x = .ok x) : xs.mapM f = .ok xs := by
  induction xs with
  | nil => rfl
  | cons x xs ih =>
    have htail : xs.mapM f = .ok xs := ih fun y hy => h y (by simp [hy])
    exact mapM_cons_eq_ok.2 ⟨x, h x (by simp), xs, htail, rfl⟩

theorem canonicalAll_iff {ts : List Tag} {vs : List Value} :
    CanonicalAll ts vs ↔ List.Forall₂ Canonical ts vs := by
  constructor
  · intro h
    induction ts generalizing vs with
    | nil => cases h; exact .nil
    | cons t ts ih =>
      cases h with
      | cons ht hs => exact .cons ht (ih hs)
  · intro h
    induction h with
    | nil => exact .nil
    | cons ht _ hs => exact .cons ht hs

theorem CanonicalAll.length_eq {ts : List Tag} {vs : List Value} (h : CanonicalAll ts vs) :
    ts.length = vs.length :=
  (canonicalAll_iff.1 h).length_eq

theorem CanonicalAll.exists_of_mem {ts : List Tag} {vs : List Value} (h : CanonicalAll ts vs)
    {v : Value} (hv : v ∈ vs) : ∃ t, Canonical t v := by
  obtain ⟨hl, h⟩ := List.forall₂_iff_zip.1 (canonicalAll_iff.1 h)
  rw [← List.map_snd_zip (Nat.le_of_eq hl.symm)] at hv
  obtain ⟨p, hp, rfl⟩ := List.mem_map.1 hv
  exact ⟨p.1, h hp⟩

namespace Value

variable {f : Tag → Value → Except PackError Value}

theorem fitAll_eq_ok {ts : List Tag} {vs ws : List Value} :
    fitAll f ts vs = .ok ws ↔
      ts.length = vs.length ∧ ((ts.zip vs).mapM fun (t, v) => f t v) = .ok ws := by
  unfold fitAll
  split <;> simp_all

/-- The first tag goes with the first value. -/
theorem fitAll_cons {t : Tag} {ts : List Tag} {v : Value} {vs ws : List Value} :
    fitAll f (t :: ts) (v :: vs) = .ok ws ↔
      ∃ w, f t v = .ok w ∧ ∃ us, fitAll f ts vs = .ok us ∧ w :: us = ws := by
  rw [fitAll_eq_ok, List.zip_cons_cons, mapM_cons_eq_ok]
  simp only [fitAll_eq_ok, List.length_cons, Nat.add_right_cancel_iff]
  constructor
  · rintro ⟨hl, w, hw, us, hus, rfl⟩
    exact ⟨w, hw, us, ⟨hl, hus⟩, rfl⟩
  · rintro ⟨w, hw, us, ⟨hl, hus⟩, rfl⟩
    exact ⟨hl, w, hw, us, hus, rfl⟩

/-- Canonical values side by side are left alone, if each is. -/
theorem fitAll_of_canonicalAll {ts : List Tag} {vs : List Value}
    (hf : ∀ t ∈ ts, ∀ v, Canonical t v → f t v = .ok v) (h : CanonicalAll ts vs) :
    fitAll f ts vs = .ok vs := by
  induction ts generalizing vs with
  | nil => cases h; rfl
  | cons t ts ih =>
    cases h with
    | cons ht hs =>
      have htail : fitAll f ts _ = .ok _ := ih (fun u hu => hf u (by simp [hu])) hs
      exact fitAll_cons.2 ⟨_, hf t (by simp) _ ht, _, htail, rfl⟩

/-- A second pass over values side by side changes nothing, if none changes one of them. -/
theorem fitAll_idempotent (hf : ∀ t v w, f t v = .ok w → f t w = .ok w) {ts : List Tag}
    {vs ws : List Value} (h : fitAll f ts vs = .ok ws) : fitAll f ts ws = .ok ws := by
  induction ts generalizing vs ws with
  | nil =>
    cases vs with
    | nil => cases h; rfl
    | cons v vs => cases h
  | cons t ts ih =>
    cases vs with
    | nil => cases h
    | cons v vs =>
      obtain ⟨w, hw, us, hus, rfl⟩ := fitAll_cons.1 h
      exact fitAll_cons.2 ⟨w, hf t v w hw, us, ih hus, rfl⟩

/-! ## 2. One level -/

/-- What fitting does on one level, with `n` levels left below it. -/
inductive Fits (n : Nat) : Tag → Value → Value → Prop where
  | int {k : IntKind} {v w : Value} (h : fitInt k v = .ok w) : Fits n (.int k) v w
  | bool (b : Bool) : Fits n .bool (.bool b) (.bool b)
  | double {v w : Value} (h : fitDouble v = .ok w) : Fits n .double v w
  | string (s : String) : Fits n .string (.string s) (.string s)
  | path {v w : Value} {s : String} (hv : v = .objectPath s ∨ v = .string s)
      (h : fitPath s = .ok w) : Fits n .objectPath v w
  | signature {v w : Value} {s : String} (hv : v = .signature s ∨ v = .string s)
      (h : fitSignature s = .ok w) : Fits n .signature v w
  | boxed (t : Tag) (v : Value) : Fits n .variant (.variant t v) (.variant t v)
  | box {v w : Value} {t : Tag} (hv : v.kind ≠ .variant) (ht : inferWithin n v = .ok t)
      (h : fitWithin n t v = .ok w) : Fits n .variant v (.variant t w)
  | array {elem : Tag} {items us : List Value}
      (h : List.Forall₂ (fun v u => fitWithin n elem v = .ok u) items us) :
      Fits n (.array elem) (.array items) (.array us)
  | dict {key value : Tag} {entries us : List (Value × Value)}
      (h : List.Forall₂ (fun e u => fitWithin n key e.1 = .ok u.1 ∧
        fitWithin n value e.2 = .ok u.2) entries us) :
      Fits n (.dict key value) (.dict entries) (.dict us)
  | struct {fields : List Tag} {v : Value} {items us : List Value} (hv : v.asItems = some items)
      (hl : fields.length = items.length)
      (h : List.Forall₂ (fun p u => fitWithin n p.1 p.2 = .ok u) (fields.zip items) us) :
      Fits n (.struct fields) v (.struct us)

/-- The entries of a dictionary are fitted side by side. -/
theorem fitEntry_eq_ok {n : Nat} {key value : Tag} {e u : Value × Value} :
    (fitWithin n key e.1 >>= fun k => fitWithin n value e.2 >>= fun v => .ok (k, v)) = .ok u ↔
      fitWithin n key e.1 = .ok u.1 ∧ fitWithin n value e.2 = .ok u.2 := by
  rw [bind_eq_ok]
  constructor
  · rintro ⟨k, hk, h⟩
    obtain ⟨v, hv, h⟩ := bind_eq_ok.1 h
    cases h
    exact ⟨hk, hv⟩
  · rintro ⟨hk, hv⟩
    exact ⟨u.1, hk, bind_eq_ok.2 ⟨u.2, hv, rfl⟩⟩

/-- A value that has no box gets one under `v`. -/
theorem fitWithin_variant {n : Nat} {v : Value} (hv : v.kind ≠ .variant) :
    fitWithin (n + 1) .variant v =
      inferWithin n v >>= fun t => fitWithin n t v >>= fun w => .ok (.variant t w) := by
  cases v with
  | variant t w => exact absurd rfl hv
  | _ => rfl

/-- **Every success of a level is one of these.** -/
theorem fits_of_fitWithin {n : Nat} {t : Tag} {v w : Value} (h : fitWithin (n + 1) t v = .ok w) :
    Fits n t v w := by
  cases t with
  | int k => exact .int h
  | bool =>
    cases v with
    | bool b => cases h; exact .bool b
    | _ => cases h
  | double => exact .double h
  | string =>
    cases v with
    | string s => cases h; exact .string s
    | _ => cases h
  | objectPath =>
    cases v with
    | objectPath s => exact .path (.inl rfl) h
    | string s => exact .path (.inr rfl) h
    | _ => cases h
  | signature =>
    cases v with
    | signature s => exact .signature (.inl rfl) h
    | string s => exact .signature (.inr rfl) h
    | _ => cases h
  | variant =>
    by_cases hv : v.kind = .variant
    · cases v with
      | variant t v => cases h; exact .boxed t v
      | _ => cases hv
    · rw [fitWithin_variant hv] at h
      obtain ⟨t, ht, h⟩ := bind_eq_ok.1 h
      obtain ⟨u, hu, h⟩ := bind_eq_ok.1 h
      cases h
      exact .box hv ht hu
  | array elem =>
    cases v with
    | array items =>
      obtain ⟨us, hus, h⟩ := bind_eq_ok.1 h
      cases h
      exact .array (mapM_eq_ok.1 hus)
    | _ => cases h
  | dict key value =>
    cases v with
    | dict entries =>
      obtain ⟨us, hus, h⟩ := bind_eq_ok.1 h
      cases h
      exact .dict ((mapM_eq_ok.1 hus).imp fun _ _ => fitEntry_eq_ok.1)
    | _ => cases h
  | struct fields =>
    cases v with
    | array items =>
      obtain ⟨us, hus, h⟩ := bind_eq_ok.1 h
      cases h
      exact .struct rfl (fitAll_eq_ok.1 hus).1 (mapM_eq_ok.1 (fitAll_eq_ok.1 hus).2)
    | struct items =>
      obtain ⟨us, hus, h⟩ := bind_eq_ok.1 h
      cases h
      exact .struct rfl (fitAll_eq_ok.1 hus).1 (mapM_eq_ok.1 (fitAll_eq_ok.1 hus).2)
    | _ => cases h

/-- With no level left nothing is packed. -/
theorem pos_of_fitWithin {n : Nat} {t : Tag} {v w : Value} (h : fitWithin n t v = .ok w) :
    0 < n := by
  cases n with
  | zero => cases h
  | succ n => exact Nat.succ_pos n

/-! ## 3. Canonical values are left alone -/

theorem fitInt_self (k : IntKind) (n : k.Number) : fitInt k (.int k n) = .ok (.int k n) := by
  have h : asIntOf k (.int k n) = some n := dif_pos n.property
  rw [fitInt, h]

theorem fitDict_self {n : Nat} {key value : Tag} {entries : List (Value × Value)}
    (h : ∀ e ∈ entries, fitWithin n key e.1 = .ok e.1 ∧ fitWithin n value e.2 = .ok e.2) :
    fitWithin (n + 1) (.dict key value) (.dict entries) = .ok (.dict entries) := by
  unfold fitWithin
  refine bind_eq_ok.2 ⟨entries, mapM_eq_self fun e he => ?_, rfl⟩
  obtain ⟨hk, hv⟩ := h e he
  exact bind_eq_ok.2 ⟨e.1, hk, bind_eq_ok.2 ⟨e.2, hv, rfl⟩⟩

/-- **A canonical value is left alone**, if there are more levels left than its tag is deep. -/
theorem fitWithin_of_canonical :
    ∀ (n : Nat) (t : Tag) (v : Value), Canonical t v → t.depth < n → fitWithin n t v = .ok v := by
  intro n
  induction n with
  | zero => intro t v _ hd; exact absurd hd (Nat.not_lt_zero _)
  | succ n ih =>
    intro t v h hd
    cases h with
    | int k m => exact fitInt_self k m
    | bool b => rfl
    | double d => rfl
    | string s => rfl
    | objectPath s hs => exact if_pos hs
    | signature s hs => exact if_pos hs
    | variant s w => rfl
    | array elem items h =>
      have hn : elem.depth < n := Nat.lt_of_succ_lt_succ hd
      exact bind_eq_ok.2 ⟨items, mapM_eq_self fun v hv => ih elem v (h v hv) hn, rfl⟩
    | dict key value entries hk hv =>
      simp only [Tag.depth] at hd
      refine fitDict_self fun e he => ⟨?_, ?_⟩
      · exact ih key e.1 (hk e he) (by omega)
      · exact ih value e.2 (hv e he) (by omega)
    | struct fields items h =>
      simp only [Tag.depth] at hd
      have hall : fitAll (fitWithin n) fields items = .ok items :=
        fitAll_of_canonicalAll (fun t ht v hv =>
          ih t v hv (Tag.height_le_iff.1 (Nat.le_of_lt_succ hd) t ht)) h
      exact bind_eq_ok.2 ⟨items, hall, rfl⟩

/-! ## 4. What has been fitted is left alone -/

/-- **Fitting a second time changes nothing**, with the same number of levels left. -/
theorem fitWithin_idempotent :
    ∀ (n : Nat) (t : Tag) (v w : Value), fitWithin n t v = .ok w → fitWithin n t w = .ok w := by
  intro n
  induction n with
  | zero => intro t v w h; cases h
  | succ n ih =>
    intro t v w h
    -- A tag without elements has depth `0`, so for it the first half of the argument is enough.
    have hleaf : t.depth = 0 → fitWithin (n + 1) t w = .ok w := fun hd =>
      fitWithin_of_canonical (n + 1) t w (canonical_of_fitWithin (n + 1) t v w h) (by omega)
    cases fits_of_fitWithin h with
    | int _ => exact hleaf rfl
    | bool _ => exact hleaf rfl
    | double _ => exact hleaf rfl
    | string _ => exact hleaf rfl
    | path _ _ => exact hleaf rfl
    | signature _ _ => exact hleaf rfl
    | boxed _ _ => exact hleaf rfl
    | box _ _ _ => exact hleaf rfl
    | @array elem _ us hfit =>
      refine bind_eq_ok.2 ⟨us, mapM_eq_self fun u hu => ?_, rfl⟩
      obtain ⟨x, -, hx⟩ := exists_mem_of_forall₂ hfit.flip u hu
      exact ih elem x u hx
    | @dict key value _ us hfit =>
      refine fitDict_self fun e he => ?_
      obtain ⟨x, -, hk, hv⟩ := exists_mem_of_forall₂ hfit.flip e he
      exact ⟨ih key x.1 e.1 hk, ih value x.2 e.2 hv⟩
    | @struct fields _ items us _ hl hfit =>
      have hall : fitAll (fitWithin n) fields items = .ok us :=
        fitAll_eq_ok.2 ⟨hl, mapM_eq_ok.2 hfit⟩
      exact bind_eq_ok.2 ⟨us, fitAll_idempotent ih hall, rfl⟩

end Value

/-! ## 5. Packing -/

namespace Container

/-- How packing the values `vs` against the tags `ts` relates to the values that are canonical for
the tags. -/
structure Projects (ts : List Tag) (vs : List Value) : Prop where
  /-- A container has the tags it was packed against, and what it stores is canonical for them. -/
  canonical (c : Container) (h : pack ts vs = .ok c) : c.tags = ts ∧ CanonicalAll ts c.values
  /-- Packing what it stores against its tags gives the container again. -/
  again (c : Container) (h : pack ts vs = .ok c) : pack c.tags c.values = .ok c
  /-- If each of the tags has been read from a text, packing succeeds and stores just the values
  given exactly if there are as many values as tags and each is canonical for its tag. -/
  fixed (h : ∀ t ∈ ts, ∃ s, Tag.parse s = .ok t) :
    (∃ c, pack ts vs = .ok c ∧ c.values = vs) ↔ CanonicalAll ts vs

/-- **Packing is a projection onto canonical values**, whatever the tags and the values. -/
theorem pack_projects (ts : List Tag) (vs : List Value) : Projects ts vs where
  canonical c h := by
    obtain ⟨rfl, -⟩ := pack_eq_ok.1 h
    exact ⟨rfl, c.canonical⟩
  again c h := by
    obtain ⟨rfl, hfit⟩ := pack_eq_ok.1 h
    exact pack_eq_ok.2 ⟨rfl, Value.fitAll_idempotent (Value.fitWithin_idempotent levels) hfit⟩
  fixed hread := by
    constructor
    · rintro ⟨c, h, rfl⟩
      obtain ⟨rfl, -⟩ := pack_eq_ok.1 h
      exact c.canonical
    · intro hc
      have hdepth : ∀ t ∈ ts, t.depth < levels := by
        intro t ht
        obtain ⟨s, hs⟩ := hread t ht
        exact Nat.lt_succ_of_le (Tag.sound_parse hs).2.1
      have hfit : Value.fitAll Value.fit ts vs = .ok vs :=
        Value.fitAll_of_canonicalAll
          (fun t ht v hv => Value.fitWithin_of_canonical levels t v hv (hdepth t ht)) hc
      exact ⟨⟨ts, vs, hc⟩, pack_eq_ok.2 ⟨rfl, hfit⟩, rfl⟩

end Container

end MessageBus
