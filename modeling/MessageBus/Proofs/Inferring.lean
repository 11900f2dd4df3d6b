/-
# An inferred tag is the only one

`Value.infer_principal` is the main theorem.  The tag that is inferred for a value can be read back
from its written form; packing the value against it changes nothing and fails only over the text of
an object path or a signature; and the value packs unchanged against no other tag.  Conversely, a
value that packs unchanged against a tag that has been read has just that tag inferred, if nothing
in it is empty.

Inference, reading and packing each go down with a count of their own.  They meet in a relation
that counts nothing (`Value.Takes`): the value takes the tag as it stands.  Each of the three is
compared with it, and not with one another.

* **Inference** finds the tag that the value takes, if there are more levels left than that tag is
  deep, and nothing else (`Value.inferWithin_iff`).
* **Reading** accepts a tag that a value takes, for its keys are basic (`Value.Takes.wellFormed`).
* **Packing** against it leaves the value alone or complains about its text
  (`Value.fitWithin_of_takes`), and what comes out of packing is canonical, which a value that takes
  a tag is for no other (`Value.Takes.unique`).

Empty containers keep the last part from being an equivalence: an empty array is canonical for every
array tag and takes none of them (`Value.takes_of_canonical`).
-/
import MessageBus.Proofs.Fitting
import MessageBus.Proofs.Checks

namespace MessageBus

open PackError

namespace Value

/-! ## 1. The tag that a value takes -/

/-- The value takes the tag as it stands: every container shows what it holds.  There is no bound on
the depth. -/
inductive Takes : Tag → Value → Prop where
  | int (k : IntKind) (n : k.Number) : Takes (.int k) (.int k n)
  | bool (b : Bool) : Takes .bool (.bool b)
  | double (d : Double) : Takes .double (.double d)
  | string (s : String) : Takes .string (.string s)
  | objectPath (s : String) : Takes .objectPath (.objectPath s)
  | signature (s : String) : Takes .signature (.signature s)
  | variant (t : Tag) (v : Value) : Takes .variant (.variant t v)
  | array {elem : Tag} {items : List Value} (hne : items ≠ []) (h : ∀ v ∈ items, Takes elem v) :
      Takes (.array elem) (.array items)
  | dict {key value : Tag} {entries : List (Value × Value)} (hne : entries ≠ [])
      (hb : key.isBasic = true) (hk : ∀ e ∈ entries, Takes key e.1)
      (hv : ∀ e ∈ entries, Takes value e.2) : Takes (.dict key value) (.dict entries)
  | struct {fields : List Tag} {items : List Value} (hl : fields.length = items.length)
      (h : ∀ p ∈ fields.zip items, Takes p.1 p.2) : Takes (.struct fields) (.struct items)

/-- The tag of a struct is made of those of its fields. -/
theorem takes_struct_iff {t : Tag} {items : List Value} :
    Takes t (.struct items) ↔
      ∃ fields, t = .struct fields ∧ List.Forall₂ Takes fields items := by
  constructor
  · rintro ⟨⟩
    rename_i hl h
    exact ⟨_, rfl, List.forall₂_iff_zip.2 ⟨hl, fun {_ _} hp => h _ hp⟩⟩
  · rintro ⟨fields, rfl, h⟩
    obtain ⟨hl, h⟩ := List.forall₂_iff_zip.1 h
    exact .struct hl fun p hp => h hp

/-- A tag that a value takes has basic keys. -/
theorem Takes.wellFormed {t : Tag} {v : Value} (h : Takes t v) : t.WellFormed := by
  induction h with
  | array hne _ ih =>
    obtain ⟨v, hv⟩ := List.exists_mem_of_ne_nil _ hne
    exact ih v hv
  | dict hne hb _ _ ihk ihv =>
    obtain ⟨e, he⟩ := List.exists_mem_of_ne_nil _ hne
    exact ⟨hb, ihk e he, ihv e he⟩
  | @struct fields items hl _ ih =>
    refine Tag.wellFormedAll_iff.2 fun t ht => ?_
    rw [← List.map_fst_zip (Nat.le_of_eq hl)] at ht
    obtain ⟨p, hp, rfl⟩ := List.mem_map.1 ht
    exact ih p hp
  | _ => trivial

/-! ## 2. Inference finds it -/

theorem inferWithin_array {n : Nat} {items : List Value} {t : Tag} :
    inferWithin (n + 1) (.array items) = .ok t ↔
      ∃ elem, t = .array elem ∧ items ≠ [] ∧ ∀ u ∈ items, inferWithin n u = .ok elem := by
  cases items with
  | nil => simp [inferWithin]
  | cons v rest =>
    have hrest (elem : Tag) : (rest.forM fun u => inferWithin n u >>= fun s =>
        if s ≠ elem then .error (cannotInfer .array) else .ok ()) = .ok () ↔
          ∀ u ∈ rest, inferWithin n u = .ok elem :=
      forM_eq_ok.trans (forall₂_congr fun _ _ => bind_expect_eq_ok.trans (and_iff_left rfl))
    rw [inferWithin, bind_eq_ok]
    simp only [List.forall_mem_cons, ← hrest]
    constructor
    · rintro ⟨elem, hv, h⟩
      obtain ⟨⟨⟩, hall, h⟩ := bind_eq_ok.1 h
      cases h
      exact ⟨elem, rfl, List.cons_ne_nil _ _, hv, hall⟩
    · rintro ⟨elem, rfl, -, hv, hall⟩
      exact ⟨elem, hv, bind_eq_ok.2 ⟨(), hall, rfl⟩⟩

theorem inferWithin_dict {n : Nat} {entries : List (Value × Value)} {t : Tag} :
    inferWithin (n + 1) (.dict entries) = .ok t ↔
      ∃ key value, t = .dict key value ∧ entries ≠ [] ∧ key.isBasic = true ∧
        ∀ e ∈ entries, inferWithin n e.1 = .ok key ∧ inferWithin n e.2 = .ok value := by
  cases entries with
  | nil => simp [inferWithin]
  | cons e rest =>
    have hrest (key value : Tag) : (rest.forM fun e => inferWithin n e.1 >>= fun s =>
        if s ≠ key then .error (cannotInfer .dict) else inferWithin n e.2 >>= fun s =>
          if s ≠ value then .error (cannotInfer .dict) else .ok ()) = .ok () ↔
            ∀ e ∈ rest, inferWithin n e.1 = .ok key ∧ inferWithin n e.2 = .ok value :=
      forM_eq_ok.trans (forall₂_congr fun _ _ => bind_expect_eq_ok.trans
        (and_congr_right' (bind_expect_eq_ok.trans (and_iff_left rfl))))
    rw [inferWithin, bind_eq_ok]
    simp only [List.forall_mem_cons, ← hrest]
    constructor
    · rintro ⟨key, hk, h⟩
      obtain ⟨value, hv, h⟩ := bind_eq_ok.1 h
      cases hb : key.isBasic with
      | false =>
        rw [hb] at h
        cases h
      | true =>
        rw [hb] at h
        obtain ⟨⟨⟩, hall, h⟩ := bind_eq_ok.1 h
        cases h
        exact ⟨key, value, rfl, List.cons_ne_nil _ _, hb, ⟨hk, hv⟩, hall⟩
    · rintro ⟨key, value, rfl, -, hb, ⟨hk, hv⟩, hall⟩
      refine ⟨key, hk, bind_eq_ok.2 ⟨value, hv, ?_⟩⟩
      rw [hb]
      exact bind_eq_ok.2 ⟨(), hall, rfl⟩

theorem inferWithin_struct {n : Nat} {items : List Value} {t : Tag} :
    inferWithin (n + 1) (.struct items) = .ok t ↔
      ∃ fields, t = .struct fields ∧
        List.Forall₂ (fun s v => inferWithin n v = .ok s) fields items := by
  rw [inferWithin, bind_eq_ok]
  simp only [mapM_eq_ok]
  constructor
  · rintro ⟨fields, h, ⟨⟩⟩
    exact ⟨fields, rfl, h.flip⟩
  · rintro ⟨fields, rfl, h⟩
    exact ⟨fields, h.flip, rfl⟩

/-- **Inference finds the tag that the value takes**, if there are more levels left than the tag is
deep, and nothing else. -/
theorem inferWithin_iff {n : Nat} {v : Value} {t : Tag} :
    inferWithin n v = .ok t ↔ Takes t v ∧ t.depth < n := by
  induction n generalizing v t with
  | zero => simp [inferWithin]
  | succ n ih =>
    -- What holds no other value takes one tag, and that is not deep.
    have hleaf {s : Tag} (hs : Takes s v) (hd : s.depth = 0) (hu : ∀ u, Takes u v → u = s) :
        (.ok s : Except PackError Tag) = .ok t ↔ Takes t v ∧ t.depth < n + 1 := by
      constructor
      · rintro ⟨⟩
        exact ⟨hs, by omega⟩
      · rintro ⟨ht, -⟩
        rw [hu t ht]
    cases v with
    | int k m => exact hleaf (.int k m) rfl (by rintro _ ⟨⟩; rfl)
    | bool b => exact hleaf (.bool b) rfl (by rintro _ ⟨⟩; rfl)
    | double d => exact hleaf (.double d) rfl (by rintro _ ⟨⟩; rfl)
    | string s => exact hleaf (.string s) rfl (by rintro _ ⟨⟩; rfl)
    | objectPath s => exact hleaf (.objectPath s) rfl (by rintro _ ⟨⟩; rfl)
    | signature s => exact hleaf (.signature s) rfl (by rintro _ ⟨⟩; rfl)
    | variant s w => exact hleaf (.variant s w) rfl (by rintro _ ⟨⟩; rfl)
    | array items =>
      simp only [inferWithin_array, ih]
      constructor
      · rintro ⟨elem, rfl, hne, h⟩
        obtain ⟨v, hv⟩ := List.exists_mem_of_ne_nil _ hne
        exact ⟨.array hne fun u hu => (h u hu).1, Nat.succ_lt_succ (h v hv).2⟩
      · rintro ⟨ht, hd⟩
        cases ht with
        | array hne h => exact ⟨_, rfl, hne, fun u hu => ⟨h u hu, Nat.lt_of_succ_lt_succ hd⟩⟩
    | dict entries =>
      simp only [inferWithin_dict, ih]
      constructor
      · rintro ⟨key, value, rfl, hne, hb, h⟩
        obtain ⟨e, he⟩ := List.exists_mem_of_ne_nil _ hne
        have hd : max key.depth value.depth < n := Nat.max_lt.2 ⟨(h e he).1.2, (h e he).2.2⟩
        have hk : ∀ e ∈ entries, Takes key e.1 := fun e he => (h e he).1.1
        have hv : ∀ e ∈ entries, Takes value e.2 := fun e he => (h e he).2.1
        exact ⟨.dict hne hb hk hv, Nat.succ_lt_succ hd⟩
      · rintro ⟨ht, hd⟩
        cases ht with
        | dict hne hb hk hv =>
          obtain ⟨hkd, hvd⟩ := Nat.max_lt.1 (Nat.lt_of_succ_lt_succ hd)
          exact ⟨_, _, rfl, hne, hb, fun e he => ⟨⟨hk e he, hkd⟩, hv e he, hvd⟩⟩
    | struct items =>
      have hfields (fields : List Tag) :
          List.Forall₂ (fun s v => inferWithin n v = .ok s) fields items ↔
            List.Forall₂ Takes fields items ∧ Tag.height fields < n + 1 := by
        simp only [ih, and_comm (b := _ < n), List.forall₂_and_left]
        rw [Nat.lt_succ_iff, Tag.height_le_iff, and_comm]
      simp only [inferWithin_struct, takes_struct_iff, hfields]
      constructor
      · rintro ⟨fields, rfl, h, hd⟩
        exact ⟨⟨fields, rfl, h⟩, hd⟩
      · rintro ⟨⟨fields, rfl, h⟩, hd⟩
        exact ⟨fields, rfl, h, hd⟩

theorem infer?_eq_some {v : Value} {t : Tag} :
    infer? v = some t ↔ Takes t v ∧ t.depth < levels := by
  rw [← inferWithin_iff, infer?]
  cases inferWithin levels v <;> simp [Except.toOption]

/-! ## 3. No other tag has the value -/

/-- Lists are equal if, side by side with a third, each element of one can only be that of the
other. -/
theorem eq_of_forall₂ {α β : Type} {R : α → β → Prop} {xs ys : List α} {zs : List β}
    (h : List.Forall₂ R xs zs) (hl : ys.length = zs.length)
    (hR : ∀ p ∈ ys.zip zs, ∀ x, R x p.2 → x = p.1) : xs = ys := by
  induction h generalizing ys with
  | nil => exact (List.eq_nil_of_length_eq_zero hl).symm
  | cons hx _ ih =>
    cases ys with
    | nil => cases hl
    | cons y ys =>
      rw [List.zip_cons_cons, List.forall_mem_cons] at hR
      rw [hR.1 _ hx, ih (Nat.succ.inj hl) hR.2]

/-- **A value is canonical for no other tag** than the one it takes. -/
theorem Takes.unique {t u : Tag} {v : Value} (h : Takes t v) (hc : Canonical u v) : u = t := by
  induction h generalizing u with
  | array hne _ ih =>
    cases hc with
    | array elem _ hc =>
      obtain ⟨v, hv⟩ := List.exists_mem_of_ne_nil _ hne
      rw [ih v hv (hc v hv)]
  | dict hne _ _ _ ihk ihv =>
    cases hc with
    | dict key value _ hck hcv =>
      obtain ⟨e, he⟩ := List.exists_mem_of_ne_nil _ hne
      rw [ihk e he (hck e he), ihv e he (hcv e he)]
  | struct hl _ ih =>
    cases hc with
    | struct us _ hc =>
      rw [eq_of_forall₂ (canonicalAll_iff.1 hc) hl fun p hp u hu => ih p hp hu]
  | _ => cases hc; rfl

/-! ## 4. Packing against it -/

/-- A part of a value that lies in no box. -/
inductive Exposed (u : Value) : Value → Prop where
  | here : Exposed u u
  | item {items : List Value} {v : Value} (hv : v ∈ items) (h : Exposed u v) :
      Exposed u (.array items)
  | key {entries : List (Value × Value)} {e : Value × Value} (he : e ∈ entries)
      (h : Exposed u e.1) : Exposed u (.dict entries)
  | value {entries : List (Value × Value)} {e : Value × Value} (he : e ∈ entries)
      (h : Exposed u e.2) : Exposed u (.dict entries)
  | field {fields : List Value} {v : Value} (hv : v ∈ fields) (h : Exposed u v) :
      Exposed u (.struct fields)

/-- The complaints about the text of the value's object paths and signatures. -/
inductive Misspelt (v : Value) : PackError → Prop where
  | path {s : String} (h : Exposed (.objectPath s) v) (hs : ObjectPath.isValid s = false) :
      Misspelt v (invalidObjectPath s)
  | signature {s : String} (h : Exposed (.signature s) v) (hs : Tag.isSignature s = false) :
      Misspelt v (invalidSignature s)

/-- What is misspelt in a part is misspelt in the whole. -/
theorem Misspelt.mono {u v : Value} (h : ∀ w, Exposed w u → Exposed w v) {e : PackError}
    (he : Misspelt u e) : Misspelt v e := by
  cases he with
  | path hu hs => exact .path (h _ hu) hs
  | signature hu hs => exact .signature (h _ hu) hs

/-- **Packing a value against the tag it takes** leaves it alone or complains about its text. -/
theorem fitWithin_of_takes {n : Nat} {t : Tag} {v : Value} (h : Takes t v) (hd : t.depth < n) :
    OkOr v (Misspelt v) (fitWithin n t v) := by
  induction n generalizing t v with
  | zero => exact absurd hd (Nat.not_lt_zero _)
  | succ n ih =>
    cases h with
    | int k m => exact .inl (fitInt_self k m)
    | bool b => exact .inl rfl
    | double d => exact .inl rfl
    | string s => exact .inl rfl
    | objectPath s =>
      cases hs : ObjectPath.isValid s with
      | true => exact .inl (if_pos hs)
      | false => exact .inr ⟨_, .path .here hs, if_neg (by simp [hs])⟩
    | signature s =>
      cases hs : Tag.isSignature s with
      | true => exact .inl (if_pos hs)
      | false => exact .inr ⟨_, .signature .here hs, if_neg (by simp [hs])⟩
    | variant s w => exact .inl rfl
    | @array elem items _ h =>
      have hitem : ∀ v ∈ items, OkOr v (Misspelt (.array items)) (fitWithin n elem v) :=
        fun v hv => (ih (h v hv) (Nat.lt_of_succ_lt_succ hd)).mono fun _ =>
          Misspelt.mono fun _ => .item hv
      have hall := OkOr.mapM hitem
      rw [List.map_id'] at hall
      exact hall.map
    | @dict key value entries _ _ hk hv =>
      obtain ⟨hkd, hvd⟩ := Nat.max_lt.1 (Nat.lt_of_succ_lt_succ hd)
      have hentry : ∀ e ∈ entries, OkOr e (Misspelt (.dict entries))
          (fitWithin n key e.1 >>= fun k => fitWithin n value e.2 >>= fun v => .ok (k, v)) := by
        intro e he
        have hkey := (ih (hk e he) hkd).mono fun _ => Misspelt.mono fun _ => .key he
        have hvalue := (ih (hv e he) hvd).mono fun _ => Misspelt.mono fun _ => .value he
        exact hkey.bind hvalue.map
      have hall := OkOr.mapM hentry
      rw [List.map_id'] at hall
      exact hall.map
    | @struct fields items hl h =>
      -- What is mapped are pairs, and what comes out of it are their second halves.
      have hfield : ∀ p ∈ fields.zip items,
          OkOr p.2 (Misspelt (.struct items)) (fitWithin n p.1 p.2) := by
        intro p hp
        obtain ⟨ht, hv⟩ := List.of_mem_zip hp
        have hpd : p.1.depth < n := Tag.height_le_iff.1 (Nat.le_of_lt_succ hd) _ ht
        exact (ih (h p hp) hpd).mono fun _ => Misspelt.mono fun _ => .field hv
      have hall := OkOr.mapM hfield
      rw [List.map_snd_zip (Nat.le_of_eq hl.symm)] at hall
      have hfit : fitAll (fitWithin n) fields items =
          (fields.zip items).mapM fun p => fitWithin n p.1 p.2 := if_pos hl
      rw [← hfit] at hall
      exact hall.map

/-- A value is what it was once it has been packed against the tag that is inferred for it. -/
theorem eq_of_inferWithin {n : Nat} {t : Tag} {v w : Value} (ht : inferWithin n v = .ok t)
    (h : fitWithin n t v = .ok w) : w = v := by
  obtain ⟨htakes, hdepth⟩ := inferWithin_iff.1 ht
  rcases fitWithin_of_takes htakes hdepth with hv | ⟨e, -, he⟩
  · exact Except.ok.inj (h.symm.trans hv)
  · cases h.symm.trans he

/-- A part that lies in no box is canonical for some tag, if the whole is. -/
theorem Exposed.canonical {u v : Value} (h : Exposed u v) {t : Tag} (hc : Canonical t v) :
    ∃ s, Canonical s u := by
  induction h generalizing t with
  | here => exact ⟨t, hc⟩
  | item hv _ ih => cases hc with | array _ _ hc => exact ih (hc _ hv)
  | key he _ ih => cases hc with | dict _ _ _ hk _ => exact ih (hk _ he)
  | value he _ ih => cases hc with | dict _ _ _ _ hv => exact ih (hv _ he)
  | field hv _ ih =>
    cases hc with
    | struct ts _ hc =>
      obtain ⟨s, hs⟩ := hc.exists_of_mem hv
      exact ih hs

/-- The text of a canonical value is well spelt. -/
theorem not_misspelt_of_canonical {t : Tag} {v : Value} (hc : Canonical t v) (e : PackError) :
    ¬ Misspelt v e := by
  intro he
  cases he with
  | path h hs =>
    obtain ⟨s, hc⟩ := h.canonical hc
    cases hc with
    | objectPath _ hs' => exact absurd hs' (by simp [hs])
  | signature h hs =>
    obtain ⟨s, hc⟩ := h.canonical hc
    cases hc with
    | signature _ hs' => exact absurd hs' (by simp [hs])

/-! ## 5. Canonical values without empty containers -/

/-- No array and no dictionary outside the boxes is empty. -/
def Filled (v : Value) : Prop := ∀ u, Exposed u v → u ≠ .array [] ∧ u ≠ .dict []

theorem Filled.part {u v : Value} (hv : Filled v) (h : ∀ w, Exposed w u → Exposed w v) : Filled u :=
  fun w hw => hv w (h w hw)

/-- **A canonical value takes its tag**, if nothing in it is empty and the tag is well formed. -/
theorem takes_of_canonical {t : Tag} {v : Value} (hc : Canonical t v) (ht : t.WellFormed)
    (hv : Filled v) : Takes t v := by
  -- The induction is on a bound of the depth: `Canonical` and its form for lists are mutual.
  obtain ⟨n, hd⟩ : ∃ n, t.depth < n := ⟨_, Nat.lt_succ_self _⟩
  induction n generalizing t v with
  | zero => exact absurd hd (Nat.not_lt_zero _)
  | succ n ih =>
    cases hc with
    | int k m => exact .int k m
    | bool b => exact .bool b
    | double d => exact .double d
    | string s => exact .string s
    | objectPath s _ => exact .objectPath s
    | signature s _ => exact .signature s
    | variant s w => exact .variant s w
    | array elem items h =>
      have hne : items ≠ [] := by
        rintro rfl
        exact (hv _ .here).1 rfl
      refine .array hne fun u hu => ?_
      exact ih (h u hu) ht (hv.part fun _ => .item hu) (Nat.lt_of_succ_lt_succ hd)
    | dict key value entries hk hv' =>
      have hne : entries ≠ [] := by
        rintro rfl
        exact (hv _ .here).2 rfl
      obtain ⟨hb, hkw, hvw⟩ := ht
      obtain ⟨hkd, hvd⟩ := Nat.max_lt.1 (Nat.lt_of_succ_lt_succ hd)
      refine .dict hne hb (fun e he => ?_) fun e he => ?_
      · exact ih (hk e he) hkw (hv.part fun _ => .key he) hkd
      · exact ih (hv' e he) hvw (hv.part fun _ => .value he) hvd
    | struct fields items h =>
      obtain ⟨hl, h⟩ := List.forall₂_iff_zip.1 (canonicalAll_iff.1 h)
      refine .struct hl fun p hp => ?_
      obtain ⟨hmem, hmem'⟩ := List.of_mem_zip hp
      exact ih (h hp) (Tag.wellFormedAll_iff.1 ht _ hmem) (hv.part fun _ => .field hmem')
        (Tag.height_le_iff.1 (Nat.le_of_lt_succ hd) _ hmem)

/-! ## 6. Principal tags -/

/-- The tag `t` is the one for the value `v`. -/
structure Principal (v : Value) (t : Tag) : Prop where
  /-- The tag is read back from its written form. -/
  read : Tag.parse t.render = .ok t
  /-- Packing against it gives the value as it is, or complains about an object path or a signature
  that lies in no box. -/
  packed : OkOr v (Misspelt v) (fit t v)
  /-- It gives the value if there is nothing of the kind to complain about, and only then. -/
  spelt : fit t v = .ok v ↔ ∀ e, ¬ Misspelt v e
  /-- Packing against no other tag gives the value, whether the tag can be read or not. -/
  only (s : Tag) (h : fit s v = .ok v) : s = t

/-- **An inferred tag is principal**, and is inferred wherever there is something to infer it from:
a value that packs unchanged against a tag that has been read, and holds no empty array and no empty
dictionary outside its boxes, has that tag inferred. -/
theorem infer_principal (v : Value) :
    (∀ t, infer? v = some t → Principal v t) ∧
      ∀ t, (∃ s, Tag.parse s = .ok t) → fit t v = .ok v → Filled v → infer? v = some t := by
  constructor
  · intro t h
    obtain ⟨ht, hd⟩ := infer?_eq_some.1 h
    have hfit : OkOr v (Misspelt v) (fit t v) := fitWithin_of_takes ht hd
    refine ⟨Tag.parse_render ht.wellFormed (Nat.le_of_lt_succ hd), hfit, ⟨?_, ?_⟩, ?_⟩
    · intro h
      exact not_misspelt_of_canonical (canonical_of_fit h)
    · intro h
      rcases hfit with hfit | ⟨e, he, -⟩
      · exact hfit
      · exact absurd he (h e)
    · intro s hs
      exact ht.unique (canonical_of_fit hs)
  · rintro t ⟨s, hs⟩ hfit hv
    obtain ⟨hw, hd, -⟩ := Tag.sound_parse hs
    have ht : Takes t v := takes_of_canonical (canonical_of_fit hfit) hw hv
    exact infer?_eq_some.2 ⟨ht, Nat.lt_succ_of_le hd⟩

/-- A struct with an object path and a box; that the array in the box is empty does not matter. -/
theorem infer_principal_struct :
    let v : Value := .struct [.array [.objectPath "/a"], .variant (.array .string) (.array [])]
    let t : Tag := .struct [.array .objectPath, .variant]
    Tag.parse "(aov)" = .ok t ∧ fit t v = .ok v ∧ Filled v ∧ infer? v = some t ∧
      Principal v t := by
  intro v t
  have hread : Tag.parse "(aov)" = .ok t := rfl
  have hfit : fit t v = .ok v := rfl
  have hv : Filled v := by
    intro u hu
    change Exposed u (.struct [_, _]) at hu
    cases hu with
    | here => simp
    | field hmem hu =>
      simp only [List.mem_cons, List.not_mem_nil, or_false] at hmem
      rcases hmem with rfl | rfl
      · cases hu with
        | here => simp
        | item hmem hu =>
          cases List.mem_singleton.1 hmem
          cases hu
          simp
      · cases hu
        simp
  have hinfer : infer? v = some t := (infer_principal v).2 t ⟨_, hread⟩ hfit hv
  exact ⟨hread, hfit, hv, hinfer, (infer_principal v).1 t hinfer⟩

/-- An empty array packs unchanged against every array tag, and none is inferred for it. -/
example : fit (.array .bool) (.array []) = .ok (.array []) ∧
    fit (.array .string) (.array []) = .ok (.array []) ∧ infer? (.array []) = none :=
  ⟨rfl, rfl, rfl⟩

end Value

end MessageBus
