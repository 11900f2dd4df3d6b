/-
# What a notification does to a cache

A notification of changed properties may have values of any shape, for it need not have been packed
against the tags that such notifications have.  `Cache.applyChange` takes of them what it can read,
in two passes: the entries of the second value, each overwriting those before it, and then the items
of the third, which drop what was known.

Name by name both passes come to little.  What a name is told is the value of the last readable
entry under it, unless the name is dropped (`Says`), and what is not told stays as it is
(`Cache.follows_applyChange`).  That is also why a notification may be repeated, and why two of
them that tell of different names may change places (`Cache.applyChange_exact`): the caches are the
same at each name, although the tables may list the names in different orders.
-/
import MessageBus.World.Client

namespace MessageBus

/-! ## 1. The two passes -/

/-- The last entry that has the key `n` and a box has the value `u` in it. -/
def LastBox (entries : List (Value × Value)) (n : String) (u : Value) : Prop :=
  ∃ before t after, entries = before ++ (.string n, .variant t u) :: after ∧
    ∀ s w, (.string n, .variant s w) ∉ after

theorem LastBox.mem {entries : List (Value × Value)} {n : String} {u : Value}
    (h : LastBox entries n u) : ∃ t, (.string n, .variant t u) ∈ entries := by
  obtain ⟨before, t, after, rfl, -⟩ := h
  exact ⟨t, List.mem_append_right _ List.mem_cons_self⟩

/-- If there are such entries, there is a last one. -/
theorem exists_lastBox {entries : List (Value × Value)} {n : String} :
    (∃ u, LastBox entries n u) ↔ ∃ t u, (.string n, .variant t u) ∈ entries := by
  constructor
  · rintro ⟨u, hlast⟩
    obtain ⟨t, hmem⟩ := hlast.mem
    exact ⟨t, u, hmem⟩
  induction entries with
  | nil => rintro ⟨t, u, hmem⟩; cases hmem
  | cons e entries ih =>
    rintro ⟨t, u, hmem⟩
    by_cases hlater : ∃ s w, (.string n, .variant s w) ∈ entries
    · obtain ⟨u, before, t, after, rfl, hafter⟩ := ih hlater
      exact ⟨u, e :: before, t, after, rfl, hafter⟩
    · rcases List.mem_cons.mp hmem with rfl | hmem
      · exact ⟨u, [], t, entries, rfl, fun s w h => hlater ⟨s, w, h⟩⟩
      · exact absurd ⟨t, u, hmem⟩ hlater

namespace Cache

variable {n : String}

theorem learn_cons (c : Cache) (e : Value × Value) (entries : List (Value × Value)) :
    c.learn (e :: entries) = (c.learn [e]).learn entries := rfl

theorem learn_append (c : Cache) (xs ys : List (Value × Value)) :
    c.learn (xs ++ ys) = (c.learn xs).learn ys := List.foldl_append

theorem forget_cons (c : Cache) (v : Value) (names : List Value) :
    c.forget (v :: names) = (c.forget [v]).forget names := rfl

/-- A name that has no box among the entries keeps its value, -/
theorem get?_learn_of_absent {entries : List (Value × Value)}
    (h : ∀ t u, (.string n, .variant t u) ∉ entries) (c : Cache) :
    (c.learn entries).get? n = c.get? n := by
  induction entries generalizing c with
  | nil => rfl
  | cons e entries ih =>
    rw [learn_cons, ih fun t u hmem => h t u (List.mem_cons_of_mem _ hmem), learn,
      List.foldl_cons, List.foldl_nil]
    split
    · rename_i name t u
      rw [Table.get?_insert, if_neg]
      rintro rfl
      exact h t u List.mem_cons_self
    · rfl

/-- and one that has gets the value in its last box. -/
theorem get?_learn_of_lastBox {entries : List (Value × Value)} {u : Value}
    (h : LastBox entries n u) (c : Cache) : (c.learn entries).get? n = some u := by
  obtain ⟨before, t, after, rfl, hafter⟩ := h
  rw [learn_append, learn_cons, get?_learn_of_absent hafter]
  exact Table.get?_insert_self _ _ _

theorem get?_forget_of_not_mem {names : List Value} (h : .string n ∉ names) (c : Cache) :
    (c.forget names).get? n = c.get? n := by
  induction names generalizing c with
  | nil => rfl
  | cons v names ih =>
    rw [forget_cons, ih (fun hmem => h (List.mem_cons_of_mem _ hmem)), forget, List.foldl_cons,
      List.foldl_nil]
    split
    · rename_i name
      rw [Table.get?_erase, if_neg]
      rintro rfl
      exact h List.mem_cons_self
    · rfl

theorem get?_forget_of_mem {names : List Value} (h : .string n ∈ names) (c : Cache) :
    (c.forget names).get? n = none := by
  induction names generalizing c with
  | nil => cases h
  | cons v names ih =>
    rw [forget_cons]
    by_cases hlater : .string n ∈ names
    · exact ih hlater _
    · obtain rfl := (List.mem_cons.mp h).resolve_right hlater
      rw [get?_forget_of_not_mem hlater]
      exact (Table.get?_erase _ _ _).trans (if_pos rfl)

end Cache

/-! ## 2. What a notification says -/

namespace Value

/-- The value is an array that has the string `n` in it. -/
def Lists (v : Value) (n : String) : Prop := ∃ items, v = .array items ∧ .string n ∈ items

/-- The value is a dictionary that has `u` in its last box under `n`. -/
def Assigns (v : Value) (n : String) (u : Value) : Prop :=
  ∃ entries, v = .dict entries ∧ LastBox entries n u

end Value

/-- What a notification with these values says of the name `n` to a proxy for the interface: that
its value is not known any more, or its new value. -/
inductive Says (interface : String) : List Value → String → Option Value → Prop where
  | dropped {changed invalidated : Value} {rest : List Value} {n : String}
      (h : invalidated.Lists n) :
      Says interface (.string interface :: changed :: invalidated :: rest) n none
  | assigned {changed invalidated u : Value} {rest : List Value} {n : String}
      (hkeeps : ¬ invalidated.Lists n) (h : changed.Assigns n u) :
      Says interface (.string interface :: changed :: invalidated :: rest) n (some u)

/-- A cache after a notification knows what it has been told, and otherwise what it knew before. -/
structure Cache.Follows (interface : String) (values : List Value) (before after : Cache) :
    Prop where
  told : ∀ n x, Says interface values n x → after.get? n = x
  untold : ∀ n, (∀ x, ¬ Says interface values n x) → after.get? n = before.get? n
  /-- One with fewer than three values, or not for the interface, leaves the whole cache alone. -/
  ignored : (∀ changed invalidated rest,
    values ≠ .string interface :: changed :: invalidated :: rest) → after = before

namespace Cache

variable {c : Cache} {interface n : String} {changed invalidated u : Value}

theorem get?_update_of_lists (h : invalidated.Lists n) :
    (c.update changed invalidated).get? n = none := by
  obtain ⟨items, rfl, hmem⟩ := h
  exact get?_forget_of_mem hmem _

/-- The second pass does nothing to names that it does not drop. -/
theorem get?_update_of_not_lists (h : ¬ invalidated.Lists n) :
    (c.update changed invalidated).get? n = (c.update changed (.array [])).get? n := by
  cases invalidated with
  | array items => exact get?_forget_of_not_mem (fun hmem => h ⟨items, rfl, hmem⟩) _
  | _ => rfl

theorem get?_update_of_assigns (hkeeps : ¬ invalidated.Lists n) (h : changed.Assigns n u) :
    (c.update changed invalidated).get? n = some u := by
  obtain ⟨entries, rfl, hlast⟩ := h
  rw [get?_update_of_not_lists hkeeps]
  exact get?_learn_of_lastBox hlast c

theorem get?_update_of_silent (hkeeps : ¬ invalidated.Lists n)
    (h : ∀ u, ¬ changed.Assigns n u) : (c.update changed invalidated).get? n = c.get? n := by
  rw [get?_update_of_not_lists hkeeps]
  cases changed with
  | dict entries =>
    refine get?_learn_of_absent (fun t u hmem => ?_) c
    obtain ⟨w, hlast⟩ := exists_lastBox.mpr ⟨t, u, hmem⟩
    exact h w ⟨entries, rfl, hlast⟩
  | _ => rfl

theorem applyChange_of_interface (c : Cache) (interface : String) (changed invalidated : Value)
    (rest : List Value) :
    (c.applyChange interface (.string interface :: changed :: invalidated :: rest)).result
      = c.update changed invalidated := by
  simp [applyChange, Logged.quiet]

theorem applyChange_of_other {values : List Value} (h : ∀ changed invalidated rest,
    values ≠ .string interface :: changed :: invalidated :: rest) :
    (c.applyChange interface values).result = c := by
  unfold applyChange
  split
  · rename_i name changed invalidated rest
    rw [if_neg]
    · rfl
    · rintro rfl
      exact h _ _ _ rfl
  · rfl

/-! ## 3. What a cache makes of it -/

/-- **A cache follows every notification**, whatever its values. -/
theorem follows_applyChange (interface : String) (values : List Value) (c : Cache) :
    Follows interface values c (c.applyChange interface values).result where
  told := by
    intro n x h
    cases h with
    | dropped h =>
      rw [applyChange_of_interface]
      exact get?_update_of_lists h
    | assigned hkeeps h =>
      rw [applyChange_of_interface]
      exact get?_update_of_assigns hkeeps h
  untold := by
    intro n h
    by_cases hvalues : ∃ changed invalidated rest,
        values = .string interface :: changed :: invalidated :: rest
    · obtain ⟨changed, invalidated, rest, rfl⟩ := hvalues
      have hkeeps : ¬ invalidated.Lists n := fun hlists => h none (.dropped hlists)
      rw [applyChange_of_interface]
      exact get?_update_of_silent hkeeps fun u hu => h (some u) (.assigned hkeeps hu)
    · rw [applyChange_of_other fun changed invalidated rest heq =>
        hvalues ⟨changed, invalidated, rest, heq⟩]
  ignored := applyChange_of_other

/-- What follows a notification twice follows it once. -/
theorem Follows.again {values : List Value} {c c' c'' : Cache}
    (h : Follows interface values c c') (h' : Follows interface values c' c'') (n : String) :
    c''.get? n = c'.get? n := by
  by_cases hsays : ∃ x, Says interface values n x
  · obtain ⟨x, hx⟩ := hsays
    rw [h'.told n x hx, h.told n x hx]
  · exact h'.untold n fun x hx => hsays ⟨x, hx⟩

/-- Two notifications that tell of different names come to the same in either order. -/
theorem Follows.swap {values others : List Value} {c c₁ c₂ d₁ d₂ : Cache}
    (hdisjoint : ∀ n x y, Says interface values n x → ¬ Says interface others n y)
    (hc₁ : Follows interface values c c₁) (hc₂ : Follows interface others c₁ c₂)
    (hd₁ : Follows interface others c d₁) (hd₂ : Follows interface values d₁ d₂) (n : String) :
    c₂.get? n = d₂.get? n := by
  by_cases hvalues : ∃ x, Says interface values n x
  · obtain ⟨x, hx⟩ := hvalues
    rw [hc₂.untold n fun y => hdisjoint n x y hx, hc₁.told n x hx, hd₂.told n x hx]
  have hvalues : ∀ x, ¬ Says interface values n x := fun x hx => hvalues ⟨x, hx⟩
  rw [hd₂.untold n hvalues]
  by_cases hothers : ∃ y, Says interface others n y
  · obtain ⟨y, hy⟩ := hothers
    rw [hc₂.told n y hy, hd₁.told n y hy]
  · have hothers : ∀ y, ¬ Says interface others n y := fun y hy => hothers ⟨y, hy⟩
    rw [hc₂.untold n hothers, hc₁.untold n hvalues, hd₁.untold n hothers]

/-- **Notifications are exact.**  A cache knows afterwards what it has been told, and otherwise what
it knew; to be told twice is to be told once; notifications of different names may change places;
and it is the cache of a proxy that is told, of the interface of the proxy's target. -/
theorem applyChange_exact :
    (∀ interface values c, Follows interface values c (c.applyChange interface values).result) ∧
    (∀ interface values (c : Cache) n,
      ((c.applyChange interface values).result.applyChange interface values).result.get? n
        = (c.applyChange interface values).result.get? n) ∧
    (∀ interface values others (c : Cache),
      (∀ n x y, Says interface values n x → ¬ Says interface others n y) → ∀ n,
      ((c.applyChange interface values).result.applyChange interface others).result.get? n
        = ((c.applyChange interface others).result.applyChange interface values).result.get? n) ∧
    ∀ (w : World) id p m, w.proxies.get? id = some p → m.interface = propertiesInterface →
      m.member = propertiesChanged → ∃ c, Follows p.target.interface m.args p.cache c ∧
        (w.proxyReceive id m).proxies.get? id = some { p with cache := c } := by
  have hfollows := follows_applyChange
  refine ⟨hfollows, ?_, ?_, ?_⟩
  · intro interface values c
    exact (hfollows _ _ _).again (hfollows _ _ _)
  · intro interface values others c hdisjoint
    exact Follows.swap hdisjoint (hfollows _ _ _) (hfollows _ _ _) (hfollows _ _ _)
      (hfollows _ _ _)
  · intro w id p m hp hinterface hmember
    refine ⟨_, hfollows p.target.interface m.args p.cache, ?_⟩
    simp only [World.proxyReceive, hp, hinterface, hmember, and_self, if_true]
    exact Table.get?_insert_self _ _ _

/-! ## 4. Names that come more than once -/

/-- The name of an interface. -/
def dial : String := "org.example.Dial"

/-- A notification that has the hand boxed twice and then unboxed, and the face both with a value
and among the names that are dropped. -/
def dialChange : List Value :=
  [.string dial,
    .dict [(.string "hand", .variant .bool (.bool true)),
      (.string "face", .variant .bool (.bool true)),
      (.string "hand", .variant .string (.string "long")), (.string "hand", .bool false)],
    .array [.bool true, .string "face"]]

/-- One that drops the bell, -/
def bellChange : List Value := [.string dial, .dict [], .array [.string "bell"]]

/-- and a signal that brings it. -/
def bellSignal : SignalMessage where
  sender := ":1.1"
  path := "/dial"
  interface := propertiesInterface
  member := propertiesChanged
  body := some
    { tags := [.string, .dict .string .variant, .array .string]
      values := bellChange
      canonical := .cons (.string _) (.cons (.dict _ _ _ (by simp) (by simp))
        (.cons (.array _ _ fun v hv => List.mem_singleton.mp hv ▸ .string _) .nil)) }

/-- A world with a proxy for the interface. -/
def dialWorld : World :=
  (((World.empty.addBus 100).1.connect 0).1.addProxy "dial" (.bus 0 ":1.1")
    ⟨dial, [], [], [], []⟩ ":1.1" "/dial" none .none .full).1

/-- Of the boxes the last counts, what is dropped is dropped, and the bell may be dropped before or
after; and the proxy gets to know of it. -/
theorem applyChange_exact_dial :
    (∀ c : Cache, (c.applyChange dial dialChange).result.get? "hand" = some (.string "long") ∧
      (c.applyChange dial dialChange).result.get? "face" = none ∧
      ∀ n, ((c.applyChange dial dialChange).result.applyChange dial bellChange).result.get? n
        = ((c.applyChange dial bellChange).result.applyChange dial dialChange).result.get? n) ∧
    ∃ p c, dialWorld.proxies.get? 0 = some p ∧ c.get? "bell" = none ∧
      (dialWorld.proxyReceive 0 bellSignal).proxies.get? 0 = some { p with cache := c } := by
  obtain ⟨hfollows, -, hswap, hreceive⟩ := applyChange_exact
  have hhand : Says dial dialChange "hand" (some (.string "long")) := by
    refine .assigned ?_ ⟨_, rfl, [_, _], _, [_], rfl, by simp⟩
    rintro ⟨items, h, hmem⟩
    cases h
    simp at hmem
  have hface : Says dial dialChange "face" none := .dropped ⟨_, rfl, by simp⟩
  have hbell : Says dial bellChange "bell" none := .dropped ⟨_, rfl, by simp⟩
  have hdisjoint : ∀ n x y, Says dial dialChange n x → ¬ Says dial bellChange n y := by
    rintro n x y h (⟨items, heq, hmem⟩ | ⟨-, entries, heq, hlast⟩)
    · cases heq
      obtain rfl : n = "bell" := by simpa using hmem
      rcases h with ⟨items, heq, hmem⟩ | ⟨-, entries, heq, hlast⟩
      · cases heq
        simp at hmem
      · cases heq
        obtain ⟨t, hmem⟩ := hlast.mem
        simp at hmem
    · cases heq
      obtain ⟨t, hmem⟩ := hlast.mem
      cases hmem
  refine ⟨fun c => ⟨?_, ?_, hswap dial _ _ c hdisjoint⟩, ?_⟩
  · exact (hfollows dial dialChange c).told _ _ hhand
  · exact (hfollows dial dialChange c).told _ _ hface
  · obtain ⟨c, hc, hproxy⟩ := hreceive dialWorld 0 _ bellSignal rfl rfl rfl
    exact ⟨_, c, rfl, hc.told _ _ hbell, hproxy⟩

end Cache

end MessageBus
