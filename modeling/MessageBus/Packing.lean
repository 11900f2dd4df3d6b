/-
# Packing one value against a tag

`fit` turns a value into the form that a tag asks for, or says why it has none: integers change
their kind when the number is in range, a string becomes an object path or a signature when its text
is one, an array becomes a struct of the same length, and a value under `v` is boxed with the tag
that `infer` finds for it.  What comes out is canonical (`Canonical`): it has the constructor that
its tag names, at every level.

Both recursions go down one level at a time and stop at the limit on nesting, so both take the
number of levels that are left.  At the root that is `levels`; with none left the answer is always
`recursionLimit`.
-/
import MessageBus.ObjectPath
import MessageBus.Tag.Reader

namespace MessageBus

open PackError

namespace Value

/-! ## 1. Inference -/

/-- The tag that the value takes as it stands, with `n` levels left.  An array or a dictionary tells
its tag only if it has an element and all elements agree. -/
def inferWithin : Nat → Value → Except PackError Tag
  | 0, _ => .error recursionLimit
  | n + 1, v =>
    match v with
    | .int k _ => .ok (.int k)
    | .bool _ => .ok .bool
    | .double _ => .ok .double
    | .string _ => .ok .string
    | .objectPath _ => .ok .objectPath
    | .signature _ => .ok .signature
    | .variant _ _ => .ok .variant
    | .array [] => .error (cannotInfer .array)
    | .array (first :: rest) => do
      let elem ← inferWithin n first
      rest.forM fun item => do
        if (← inferWithin n item) ≠ elem then .error (cannotInfer .array)
      return .array elem
    | .dict [] => .error (cannotInfer .dict)
    | .dict ((k, v) :: rest) => do
      let key ← inferWithin n k
      let value ← inferWithin n v
      if !key.isBasic then .error (cannotInfer .dict)
      rest.forM fun (k, v) => do
        if (← inferWithin n k) ≠ key then .error (cannotInfer .dict)
        if (← inferWithin n v) ≠ value then .error (cannotInfer .dict)
      return .dict key value
    | .struct fields => return .struct (← fields.mapM (inferWithin n))

/-- The tag that the value takes as it stands, if it can be told. -/
def infer? (v : Value) : Option Tag := (inferWithin levels v).toOption

/-! ## 2. Fitting -/

/-- The complaint that `v` stands where `t` was asked for. -/
def mismatch (t : Tag) (v : Value) : PackError := typeMismatch t v.kind

/-- An integer as one of kind `k`. -/
def fitInt (k : IntKind) (v : Value) : Except PackError Value :=
  match v.asIntOf k with
  | some n => .ok (.int k n)
  | none => .error (mismatch (.int k) v)

/-- A double, or the double nearest to an integer. -/
def fitDouble : Value → Except PackError Value
  | .double d => .ok (.double d)
  | v => match v.asInt with
    | some i => .ok (.double (.ofInt i))
    | none => .error (mismatch .double v)

/-- Text as an object path. -/
def fitPath (s : String) : Except PackError Value :=
  if ObjectPath.isValid s then .ok (.objectPath s) else .error (invalidObjectPath s)

/-- Text as a signature. -/
def fitSignature (s : String) : Except PackError Value :=
  if Tag.isSignature s then .ok (.signature s) else .error (invalidSignature s)

/-- The values in the form that the tags ask for, each by `f`, if there are as many of them. -/
def fitAll (f : Tag → Value → Except PackError Value) (ts : List Tag) (vs : List Value) :
    Except PackError (List Value) :=
  if ts.length = vs.length then (ts.zip vs).mapM fun (t, v) => f t v
  else .error (arityMismatch ts.length vs.length)

/-- The value in the form that the tag asks for, with `n` levels left. -/
def fitWithin : Nat → Tag → Value → Except PackError Value
  | 0, _, _ => .error recursionLimit
  | n + 1, t, v =>
    match t, v with
    | .int k, v => fitInt k v
    | .bool, .bool b => .ok (.bool b)
    | .double, v => fitDouble v
    | .string, .string s => .ok (.string s)
    | .objectPath, .objectPath s => fitPath s
    | .objectPath, .string s => fitPath s
    | .signature, .signature s => fitSignature s
    | .signature, .string s => fitSignature s
    | .variant, .variant s w => .ok (.variant s w)
    | .variant, v => do
      let s ← inferWithin n v
      return .variant s (← fitWithin n s v)
    | .array elem, .array items => return .array (← items.mapM (fitWithin n elem))
    | .dict key value, .dict entries =>
      return .dict (← entries.mapM fun (k, v) => do
        let k ← fitWithin n key k
        let v ← fitWithin n value v
        return (k, v))
    | .struct fields, .struct items => return .struct (← fitAll (fitWithin n) fields items)
    | .struct fields, .array items => return .struct (← fitAll (fitWithin n) fields items)
    | t, v => .error (mismatch t v)

/-- The value in the form that the tag asks for. -/
def fit (t : Tag) (v : Value) : Except PackError Value := fitWithin levels t v

end Value

namespace Variant

/-- Boxes a value with the tag that is inferred for it, with `n` levels left. -/
def inferWithin (n : Nat) (v : Value) : Except PackError Variant := do
  let t ← Value.inferWithin n v
  return ⟨t, ← Value.fitWithin n t v⟩

/-- Boxes a value with the tag that is inferred for it. -/
def infer (v : Value) : Except PackError Variant := inferWithin levels v

/-- Boxes a value with a given tag. -/
def make (t : Tag) (v : Value) : Except PackError Variant := return ⟨t, ← Value.fit t v⟩

end Variant

/-! ## 3. Canonical values -/

mutual
/-- A value has the form that its tag asks for: the tag's own constructor at every level, with valid
text in object paths and signatures, and anything boxed under `v`. -/
inductive Canonical : Tag → Value → Prop where
  | int (k : IntKind) (n : k.Number) : Canonical (.int k) (.int k n)
  | bool (b : Bool) : Canonical .bool (.bool b)
  | double (d : Double) : Canonical .double (.double d)
  | string (s : String) : Canonical .string (.string s)
  | objectPath (s : String) (h : ObjectPath.isValid s = true) :
      Canonical .objectPath (.objectPath s)
  | signature (s : String) (h : Tag.isSignature s = true) : Canonical .signature (.signature s)
  | variant (t : Tag) (v : Value) : Canonical .variant (.variant t v)
  | array (elem : Tag) (items : List Value) (h : ∀ v ∈ items, Canonical elem v) :
      Canonical (.array elem) (.array items)
  | dict (key value : Tag) (entries : List (Value × Value))
      (hk : ∀ e ∈ entries, Canonical key e.1) (hv : ∀ e ∈ entries, Canonical value e.2) :
      Canonical (.dict key value) (.dict entries)
  | struct (fields : List Tag) (items : List Value) (h : CanonicalAll fields items) :
      Canonical (.struct fields) (.struct items)
/-- As many values as tags, each canonical for its tag. -/
inductive CanonicalAll : List Tag → List Value → Prop where
  | nil : CanonicalAll [] []
  | cons {t : Tag} {v : Value} {ts : List Tag} {vs : List Value} (h : Canonical t v)
      (hs : CanonicalAll ts vs) : CanonicalAll (t :: ts) (v :: vs)
end

end MessageBus
