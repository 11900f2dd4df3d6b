/-
# Every box is valid, however deep it lies

A value that stands under `v` already is passed on as it is, and what is in its box is not looked
at.  So that the boxes in a value are valid (`Variant.Valid`) is not checked when the value is
packed; it is handed on from the values that it was made of, and holds at every level if it held
when each box was made (`Value.BoxesValid`).

There are three ways to make a box, and they differ in how deep they let its tag be.  A box made for
a tag that has been read is as deep as what can be read.  A box with an inferred tag is at most as
deep as there are levels left at the place where it is made (`Value.inferWithin_iff`), which may be
few; later it is read again from its own root, where there are more.  What has come out of a fit
is canonical for its tag, and that does not depend on the levels that were left, so the second
reading finds nothing to change.

`Value.boxes_valid` says so for every value that can be made (`Value.Made`).
-/
import MessageBus.Proofs.Inferring

namespace MessageBus

/-! ## 1. Valid boxes -/

/-- The tag of a box is read back from its written form, and packing what is in the box against the
tag, with all levels left, changes nothing. -/
structure Variant.Valid (x : Variant) : Prop where
  read : Tag.parse x.tag.render = .ok x.tag
  packed : Value.fit x.tag x.value = .ok x.value

/-- A box is valid if its tag can be read and what is in it is canonical. -/
theorem Variant.valid_of_canonical {x : Variant} (hw : x.tag.WellFormed)
    (hdepth : x.tag.depth ≤ maxDepth) (hc : Canonical x.tag x.value) : x.Valid where
  read := Tag.parse_render hw hdepth
  packed := Value.fitWithin_of_canonical levels x.tag x.value hc (Nat.lt_succ_of_le hdepth)

namespace Value

/-- The value `u` is a part of `v`, at any depth and through any number of boxes, or `v` itself. -/
inductive Inside (u : Value) : Value → Prop where
  | here : Inside u u
  | item {items : List Value} {v : Value} (hv : v ∈ items) (h : Inside u v) :
      Inside u (.array items)
  | key {entries : List (Value × Value)} {e : Value × Value} (he : e ∈ entries)
      (h : Inside u e.1) : Inside u (.dict entries)
  | value {entries : List (Value × Value)} {e : Value × Value} (he : e ∈ entries)
      (h : Inside u e.2) : Inside u (.dict entries)
  | field {fields : List Value} {v : Value} (hv : v ∈ fields) (h : Inside u v) :
      Inside u (.struct fields)
  | boxed {t : Tag} {v : Value} (h : Inside u v) : Inside u (.variant t v)

/-- The items of an array and the fields of a struct are parts of it. -/
theorem inside_of_asItems {u v : Value} {items : List Value} (hv : v.asItems = some items)
    (hu : u ∈ items) : Inside u v := by
  cases v with
  | array us => cases hv; exact .item hu .here
  | struct us => cases hv; exact .field hu .here
  | _ => cases hv

/-- Parts of parts are parts. -/
theorem Inside.trans {u v w : Value} (h : Inside u v) (h' : Inside v w) : Inside u w := by
  induction h' with
  | here => exact h
  | item hv _ ih => exact .item hv ih
  | key he _ ih => exact .key he ih
  | value he _ ih => exact .value he ih
  | field hv _ ih => exact .field hv ih
  | boxed _ ih => exact .boxed ih

/-- Every box inside the value is valid. -/
def BoxesValid (v : Value) : Prop := ∀ x : Variant, Inside x.toValue v → x.Valid

/-- What holds of the boxes in a value holds of those in its parts. -/
theorem BoxesValid.inside {u v : Value} (hv : BoxesValid v) (h : Inside u v) : BoxesValid u :=
  fun x hx => hv x (hx.trans h)

theorem boxesValid_int (k : IntKind) (n : k.Number) : BoxesValid (.int k n) := by rintro x ⟨⟩

theorem boxesValid_bool (b : Bool) : BoxesValid (.bool b) := by rintro x ⟨⟩

theorem boxesValid_double (d : Double) : BoxesValid (.double d) := by rintro x ⟨⟩

theorem boxesValid_string (s : String) : BoxesValid (.string s) := by rintro x ⟨⟩

theorem boxesValid_objectPath (s : String) : BoxesValid (.objectPath s) := by rintro x ⟨⟩

theorem boxesValid_signature (s : String) : BoxesValid (.signature s) := by rintro x ⟨⟩

theorem boxesValid_array {items : List Value} (h : ∀ v ∈ items, BoxesValid v) :
    BoxesValid (.array items) := by
  intro x hx
  cases hx with
  | item hv hx => exact h _ hv x hx

theorem boxesValid_dict {entries : List (Value × Value)} (hk : ∀ e ∈ entries, BoxesValid e.1)
    (hv : ∀ e ∈ entries, BoxesValid e.2) : BoxesValid (.dict entries) := by
  intro x hx
  cases hx with
  | key he hx => exact hk _ he x hx
  | value he hx => exact hv _ he x hx

theorem boxesValid_struct {fields : List Value} (h : ∀ v ∈ fields, BoxesValid v) :
    BoxesValid (.struct fields) := by
  intro x hx
  cases hx with
  | field hv hx => exact h _ hv x hx

/-- A valid box with valid boxes in it. -/
theorem boxesValid_variant {t : Tag} {v : Value} (hx : Variant.Valid ⟨t, v⟩) (h : BoxesValid v) :
    BoxesValid (.variant t v) := by
  rintro ⟨s, u⟩ hy
  change Inside (.variant s u) (.variant t v) at hy
  cases hy with
  | here => exact hx
  | boxed hy => exact h ⟨s, u⟩ hy

/-! ## 2. Inferred tags -/

/-- A box with an inferred tag is valid, however few levels were left when it was made. -/
theorem valid_of_inferWithin {n : Nat} (hn : n ≤ levels) {t : Tag} {v w : Value}
    (ht : inferWithin n v = .ok t) (hw : fitWithin n t v = .ok w) : Variant.Valid ⟨t, w⟩ := by
  obtain ⟨htakes, hdepth⟩ := inferWithin_iff.1 ht
  have hlevels : t.depth < levels := Nat.lt_of_lt_of_le hdepth hn
  exact Variant.valid_of_canonical htakes.wellFormed (Nat.le_of_lt_succ hlevels)
    (canonical_of_fitWithin n t v w hw)

/-! ## 3. Packing -/

/-- What comes out of the fits of a list has valid boxes, if fitting keeps them. -/
theorem boxesValid_of_fitAll {f : Tag → Value → Except PackError Value} {ts : List Tag}
    {vs ws : List Value}
    (hf : ∀ t v w, f t v = .ok w → BoxesValid v → BoxesValid w)
    (h : fitAll f ts vs = .ok ws) (hvs : ∀ v ∈ vs, BoxesValid v) : ∀ w ∈ ws, BoxesValid w := by
  intro w hw
  obtain ⟨⟨t, v⟩, hmem, hfit⟩ := exists_of_mem_mapM (fitAll_eq_ok.1 h).2 w hw
  exact hf t v w hfit (hvs v (List.of_mem_zip hmem).2)

/-- **Fitting keeps boxes valid**, and those that it makes are valid, too. -/
theorem boxesValid_fitWithin :
    ∀ (n : Nat), n ≤ levels → ∀ (t : Tag) (v w : Value), fitWithin n t v = .ok w → BoxesValid v →
      BoxesValid w := by
  intro n
  induction n with
  | zero => intro _ t v w h; cases h
  | succ n ih =>
    intro hn t v w h hv
    have hn : n ≤ levels := Nat.le_of_succ_le hn
    have ih := ih hn
    cases fits_of_fitWithin h with
    | int hfit => cases canonical_of_fitInt hfit; exact boxesValid_int _ _
    | bool b => exact boxesValid_bool b
    | double hfit => cases canonical_of_fitDouble hfit; exact boxesValid_double _
    | string s => exact boxesValid_string s
    | path _ hfit => cases canonical_of_fitPath hfit; exact boxesValid_objectPath _
    | signature _ hfit => cases canonical_of_fitSignature hfit; exact boxesValid_signature _
    | boxed t u => exact hv
    | @box _ u s _ hs hu =>
      exact boxesValid_variant (valid_of_inferWithin hn hs hu) (ih s v u hu hv)
    | @array elem _ us hfit =>
      refine boxesValid_array fun u hu => ?_
      obtain ⟨x, hx, hu⟩ := exists_mem_of_forall₂ hfit.flip u hu
      exact ih elem x u hu (hv.inside (.item hx .here))
    | @dict key value _ us hfit =>
      have hus : ∀ e ∈ us, BoxesValid e.1 ∧ BoxesValid e.2 := by
        intro e he
        obtain ⟨x, hx, hk, hvalue⟩ := exists_mem_of_forall₂ hfit.flip e he
        exact ⟨ih key x.1 e.1 hk (hv.inside (.key hx .here)),
          ih value x.2 e.2 hvalue (hv.inside (.value hx .here))⟩
      exact boxesValid_dict (fun e he => (hus e he).1) fun e he => (hus e he).2
    | @struct fields _ items us hitems hl hfit =>
      have hall : fitAll (fitWithin n) fields items = .ok us :=
        fitAll_eq_ok.2 ⟨hl, mapM_eq_ok.2 hfit⟩
      exact boxesValid_struct (boxesValid_of_fitAll ih hall fun u hu =>
        hv.inside (inside_of_asItems hitems hu))

end Value

/-- Packing keeps boxes valid, whatever the tags. -/
theorem Container.boxesValid_pack {ts : List Tag} {vs : List Value} {c : Container}
    (h : pack ts vs = .ok c) (hvs : ∀ v ∈ vs, v.BoxesValid) : ∀ w ∈ c.values, w.BoxesValid :=
  Value.boxesValid_of_fitAll (Value.boxesValid_fitWithin levels (Nat.le_refl _))
    (pack_eq_ok.1 h).2 hvs

/-! ## 4. Values that can be made -/

namespace Value

/-- A value all of whose boxes were made in one of three ways: for a tag that has been read, for an
inferred tag, or by packing against tags that have been read.  Values may be put together, taken
apart, and packed any number of times in between. -/
inductive Made : Value → Prop where
  | int (k : IntKind) (n : k.Number) : Made (.int k n)
  | bool (b : Bool) : Made (.bool b)
  | double (d : Double) : Made (.double d)
  | string (s : String) : Made (.string s)
  | objectPath (s : String) : Made (.objectPath s)
  | signature (s : String) : Made (.signature s)
  | array {items : List Value} (h : ∀ v ∈ items, Made v) : Made (.array items)
  | dict {entries : List (Value × Value)} (hk : ∀ e ∈ entries, Made e.1)
      (hv : ∀ e ∈ entries, Made e.2) : Made (.dict entries)
  | struct {fields : List Value} (h : ∀ v ∈ fields, Made v) : Made (.struct fields)
  | part {u v : Value} (hv : Made v) (h : Inside u v) : Made u
  | boxed {s : String} {t : Tag} {v : Value} {x : Variant} (ht : Tag.parse s = .ok t) (hv : Made v)
      (h : Variant.make t v = .ok x) : Made x.toValue
  | inferred {v : Value} {x : Variant} (hv : Made v) (h : Variant.infer v = .ok x) :
      Made x.toValue
  | packed {ts : List Tag} {vs : List Value} {c : Container} {w : Value}
      (ht : ∀ t ∈ ts, ∃ s, Tag.parse s = .ok t) (hvs : ∀ v ∈ vs, Made v)
      (h : Container.pack ts vs = .ok c) (hw : w ∈ c.values) : Made w

/-- All boxes in a value that can be made are valid. -/
theorem Made.boxesValid {v : Value} (h : Made v) : BoxesValid v := by
  induction h with
  | int k n => exact boxesValid_int k n
  | bool b => exact boxesValid_bool b
  | double d => exact boxesValid_double d
  | string s => exact boxesValid_string s
  | objectPath s => exact boxesValid_objectPath s
  | signature s => exact boxesValid_signature s
  | array _ ih => exact boxesValid_array ih
  | dict _ _ ihk ihv => exact boxesValid_dict ihk ihv
  | struct _ ih => exact boxesValid_struct ih
  | part _ h ih => exact ih.inside h
  | @boxed s t v x ht _ h ih =>
    obtain ⟨u, hu, h⟩ := bind_eq_ok.1 h
    cases h
    obtain ⟨hwell, hdepth, -⟩ := Tag.sound_parse ht
    exact boxesValid_variant (Variant.valid_of_canonical hwell hdepth (canonical_of_fit hu))
      (boxesValid_fitWithin levels (Nat.le_refl _) t v u hu ih)
  | @inferred v x _ h ih =>
    obtain ⟨t, ht, h⟩ := bind_eq_ok.1 h
    obtain ⟨u, hu, h⟩ := bind_eq_ok.1 h
    cases h
    exact boxesValid_variant (valid_of_inferWithin (Nat.le_refl _) ht hu)
      (boxesValid_fitWithin levels (Nat.le_refl _) t v u hu ih)
  | packed _ _ h hw ih => exact Container.boxesValid_pack h ih _ hw

/-- **Every box is valid, however deep it lies** in a value that can be made; and packing any values
whose boxes are valid gives values whose boxes are valid, though it does not look into them. -/
theorem boxes_valid :
    (∀ v, Made v → ∀ t w, Inside (.variant t w) v →
      Tag.parse t.render = .ok t ∧ fit t w = .ok w) ∧
    ∀ ts vs c, (∀ v ∈ vs, BoxesValid v) → Container.pack ts vs = .ok c →
      ∀ w ∈ c.values, BoxesValid w := by
  constructor
  · intro v hv t w hin
    have hvalid : Variant.Valid ⟨t, w⟩ := hv.boxesValid ⟨t, w⟩ hin
    exact ⟨hvalid.read, hvalid.packed⟩
  · intro ts vs c hvs h
    exact Container.boxesValid_pack h hvs

/-- Two boxes in one packed pair: the first was a box before, the second got its box one level below
the root. -/
theorem boxes_valid_pair :
    let bytes : Value := .array [.int .byte ⟨7, by decide⟩]
    let boxed : Value := .variant (.array (.int .byte)) bytes
    let pair : Value := .struct [boxed, .variant .bool (.bool true)]
    fitAll fit [.struct [.variant, .variant]] [.array [boxed, .bool true]] = .ok [pair] ∧
      (Tag.parse (Tag.array (.int .byte)).render = .ok (.array (.int .byte)) ∧
        fit (.array (.int .byte)) bytes = .ok bytes) ∧
      Tag.parse Tag.bool.render = .ok .bool ∧ fit .bool (.bool true) = .ok (.bool true) := by
  intro bytes boxed pair
  have hbytes : Made bytes := .array fun v hv => by
    cases List.mem_singleton.1 hv
    exact .int _ _
  have hboxed : Made boxed := .inferred (x := ⟨_, bytes⟩) hbytes rfl
  have harray : Made (.array [boxed, .bool true]) := .array fun v hv => by
    simp only [List.mem_cons, List.not_mem_nil, or_false] at hv
    obtain rfl | rfl := hv
    · exact hboxed
    · exact .bool true
  have hread : ∀ t ∈ [Tag.struct [.variant, .variant]], ∃ s, Tag.parse s = .ok t := by
    intro t ht
    cases List.mem_singleton.1 ht
    exact ⟨_, Tag.parse_render ⟨trivial, trivial, trivial⟩ (by decide)⟩
  have hpack : fitAll fit [.struct [.variant, .variant]] [.array [boxed, .bool true]] =
      .ok [pair] := rfl
  have hpair : Made pair := .packed (c := ⟨_, [pair], canonicalAll_of_fitAll
      (fun _ _ _ => canonical_of_fit) hpack⟩) hread (fun v hv => List.mem_singleton.1 hv ▸ harray)
    (Container.pack_eq_ok.2 ⟨rfl, hpack⟩) (List.mem_singleton.2 rfl)
  exact ⟨hpack, boxes_valid.1 pair hpair _ _ (.field (List.mem_cons_self ..) .here),
    boxes_valid.1 pair hpair _ _ (.field (by simp) .here)⟩

end Value

end MessageBus
