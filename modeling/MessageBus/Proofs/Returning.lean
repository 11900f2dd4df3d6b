/-
# In which form a handler returns does not matter

A synchronous handler may return one value, or one value for each result.  Which values are packed
depends on the form and on the number of results: with one result a value stands for itself, and a
tuple that is not of length one is taken for the array of its values; with any other number an array
or a struct is spread over the results, just as a tuple is.

All that packing sees of a return is the list of values that it spreads to
(`Return.pack_of_bare`), so two forms give the same reply if they spread to the same list
(`packReturn_congr`).  The laws of `Interchangeable` are equations between such lists.  The one pair
of forms that they leave apart is a tuple of length one and an array of length one where there is
one result: the tuple is its element, and the array is itself.

A return that does not fit is the handler's fault.  The caller is told nothing of it but that there
was one (`packReturn_of_bare`).
-/
import MessageBus.Service.Dispatch
import MessageBus.Proofs.Fitting

namespace MessageBus

namespace Return

/-! ## 1. The values of a return -/

/-- The handler leaves the packing to the dispatcher. -/
def Bare : Return → Prop
  | .value _ | .tuple _ => True
  | .empty | .packed _ => False

/-- All that packing sees of a bare return is the values that it spreads to. -/
theorem pack_of_bare {m : Method} {r : Return} (h : r.Bare) :
    r.pack m = Container.pack m.output (r.spread m.output.length) := by
  cases r with
  | empty => cases h
  | value v => rfl
  | tuple vs => rfl
  | packed c => cases h

/-- For one result a value stands for itself, whatever it is. -/
theorem spread_value_one (v : Value) : spread 1 (.value v) = [v] := by
  simp [spread]

/-- A tuple that has the length asked for is spread as it is. -/
theorem spread_tuple_of_length {n : Nat} {vs : List Value} (h : vs.length = n) :
    spread n (.tuple vs) = vs := by
  refine if_neg ?_
  rintro ⟨rfl, hvs⟩
  exact hvs h

/-- For one result a tuple of any other length stands for an array. -/
theorem spread_tuple_one {vs : List Value} (h : vs.length ≠ 1) :
    spread 1 (.tuple vs) = [.array vs] := if_pos ⟨rfl, h⟩

theorem spread_tuple_of_ne {n : Nat} (h : n ≠ 1) (vs : List Value) : spread n (.tuple vs) = vs :=
  if_neg fun hn => h hn.1

theorem spread_array_of_ne {n : Nat} (h : n ≠ 1) (vs : List Value) :
    spread n (.value (.array vs)) = vs := if_neg h

theorem spread_struct_of_ne {n : Nat} (h : n ≠ 1) (vs : List Value) :
    spread n (.value (.struct vs)) = vs := if_neg h

end Return

/-! ## 2. The reply -/

variable {m : Method} {r s : Return}

theorem packReturn_of_pack {c : Container} (h : r.pack m = .ok c) :
    packReturn m r = .quiet (.ok c) := by
  rw [packReturn, h]

/-- **A bare return is packed or is an error that tells nothing**: what did not fit is said in a
warning at the handler's side. -/
theorem packReturn_of_bare (h : r.Bare) :
    (∃ c, c.tags = m.output ∧ packReturn m r = .quiet (.ok c)) ∨
      ∃ e, packReturn m r = ⟨.error .valueError, [.unfitReturn m.name e]⟩ := by
  have hpack := Return.pack_of_bare (m := m) h
  cases hr : r.pack m with
  | ok c =>
    have htags : c.tags = m.output := (Container.pack_eq_ok.1 (hpack ▸ hr)).1
    exact .inl ⟨c, htags, packReturn_of_pack hr⟩
  | error e => exact .inr ⟨e, by rw [packReturn, hr]⟩

/-- **Bare returns that spread to the same values** give the same reply, and the same warning. -/
theorem packReturn_congr (hr : r.Bare) (hs : s.Bare)
    (h : r.spread m.output.length = s.spread m.output.length) :
    packReturn m r = packReturn m s := by
  rw [packReturn, packReturn, Return.pack_of_bare hr, Return.pack_of_bare hs, h]

/-! ## 3. Forms that are interchangeable -/

/-- What the method `m` replies for returns of each form. -/
structure Interchangeable (m : Method) : Prop where
  /-- A container is sent as it is. -/
  verbatim (c : Container) : packReturn m (.packed c) = .quiet (.ok c)
  /-- Nothing is the empty tuple. -/
  nothing : packReturn m .empty = .quiet (.ok .empty)
  /-- Values are sent with the tags of the output, or the reply is the one fixed error. -/
  typed (r : Return) (h : r.Bare) :
    (∃ c, c.tags = m.output ∧ packReturn m r = .quiet (.ok c)) ∨
      ∃ e, packReturn m r = ⟨.error .valueError, [.unfitReturn m.name e]⟩
  /-- A tuple is sent if it can be packed, as what packing makes of it. -/
  fits (vs : List Value) (c : Container) (h : Container.pack m.output vs = .ok c) :
    packReturn m (.tuple vs) = .quiet (.ok c)
  /-- For one result, a value is a tuple of one. -/
  one (h : m.output.length = 1) (v : Value) : packReturn m (.value v) = packReturn m (.tuple [v])
  /-- For one result, a tuple of any other length is an array. -/
  array (h : m.output.length = 1) (vs : List Value) (hvs : vs.length ≠ 1) :
    packReturn m (.tuple vs) = packReturn m (.value (.array vs))
  /-- For any other number of results, tuples, arrays and structs are the same. -/
  spread (h : m.output.length ≠ 1) (vs : List Value) :
    packReturn m (.tuple vs) = packReturn m (.value (.array vs)) ∧
      packReturn m (.value (.array vs)) = packReturn m (.value (.struct vs))

/-- **The forms of a return are interchangeable**, whatever the method, and none leaks a fault. -/
theorem returns_interchangeable (m : Method) : Interchangeable m where
  verbatim _ := rfl
  nothing := rfl
  typed _ h := packReturn_of_bare h
  fits vs c h := by
    have hlen : vs.length = m.output.length :=
      (Value.fitAll_eq_ok.1 (Container.pack_eq_ok.1 h).2).1.symm
    have hbare : (Return.tuple vs).Bare := trivial
    refine packReturn_of_pack ?_
    rw [Return.pack_of_bare hbare, Return.spread_tuple_of_length hlen, h]
  one h v := by
    refine packReturn_congr trivial trivial ?_
    rw [h, Return.spread_value_one, @Return.spread_tuple_of_length 1 [v] rfl]
  array h vs hvs := by
    refine packReturn_congr trivial trivial ?_
    rw [h, Return.spread_value_one, Return.spread_tuple_one hvs]
  spread h vs := by
    have htuple := Return.spread_tuple_of_ne h vs
    have harray := Return.spread_array_of_ne h vs
    have hstruct := Return.spread_struct_of_ne h vs
    exact ⟨packReturn_congr trivial trivial (htuple.trans harray.symm),
      packReturn_congr trivial trivial (harray.trans hstruct.symm)⟩

/-- Where the result is one array of strings, a tuple of one string is not that array. -/
example : let m : Method := ⟨"Names", [], [.array .string]⟩
    (packReturn m (.tuple [.string "a"])).result = .error .valueError ∧
      ∃ c, (packReturn m (.value (.array [.string "a"]))).result = .ok c :=
  ⟨rfl, _, rfl⟩

end MessageBus
