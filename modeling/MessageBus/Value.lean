/-
# Values

A value is what a call carries: an integer of one of seven kinds, a bool, a double, text in one of
three roles, an array, a dictionary, a struct, or a value boxed together with its tag.  A value on
its own promises nothing about its text or about the agreement of its elements; that is known once
it has been packed (`MessageBus.Packing`).
-/
import MessageBus.Double
import MessageBus.Tag

namespace MessageBus

/-- A value.  Entries of a dictionary keep their order and may repeat a key. -/
inductive Value where
  | int (kind : IntKind) (number : kind.Number)
  | bool (b : Bool)
  | double (d : Double)
  | string (text : String)
  | objectPath (text : String)
  | signature (text : String)
  | array (items : List Value)
  | dict (entries : List (Value × Value))
  | struct (fields : List Value)
  | variant (tag : Tag) (value : Value)
  deriving Inhabited

/-- A value boxed together with its tag. -/
structure Variant where
  tag : Tag
  value : Value

/-- The boxed value as a value. -/
def Variant.toValue (x : Variant) : Value := .variant x.tag x.value

/-! ## 1. Kinds -/

/-- The outermost form of a value. -/
inductive Kind where
  | int (kind : IntKind)
  | bool
  | double
  | string
  | objectPath
  | signature
  | array
  | dict
  | struct
  | variant
  deriving DecidableEq, Repr

namespace Kind

/-- The name of the kind, as messages give it. -/
def name : Kind → String
  | .int .byte => "byte"
  | .int .int16 => "int16"
  | .int .uint16 => "uint16"
  | .int .int32 => "int32"
  | .int .uint32 => "uint32"
  | .int .int64 => "int64"
  | .int .uint64 => "uint64"
  | .bool => "bool"
  | .double => "double"
  | .string => "string"
  | .objectPath => "object-path"
  | .signature => "signature"
  | .array => "array"
  | .dict => "dict"
  | .struct => "struct"
  | .variant => "variant"

end Kind

namespace Value

/-- The outermost form. -/
def kind : Value → Kind
  | .int k _ => .int k
  | .bool _ => .bool
  | .double _ => .double
  | .string _ => .string
  | .objectPath _ => .objectPath
  | .signature _ => .signature
  | .array _ => .array
  | .dict _ => .dict
  | .struct _ => .struct
  | .variant _ _ => .variant

/-- The integer `n` as a value of kind `k`, if the kind holds it. -/
def ofInt? (k : IntKind) (n : Int) : Option Value :=
  if h : k.Holds n then some (.int k ⟨n, h⟩) else none

/-! ## 2. Reading a value -/

/-- The number of an integer of any kind. -/
def asInt : Value → Option Int
  | .int _ n => some n.val
  | _ => none

/-- The number of an integer that fits the kind `k`. -/
def asIntOf (k : IntKind) (v : Value) : Option k.Number :=
  v.asInt.bind fun n => if h : k.Holds n then some ⟨n, h⟩ else none

/-- Whether the value is an integer. -/
def isInteger (v : Value) : Bool := v.asInt.isSome

/-- The number of a double. -/
def asDouble : Value → Option Double
  | .double d => some d
  | _ => none

/-- The truth value of a bool. -/
def asBool : Value → Option Bool
  | .bool b => some b
  | _ => none

/-- The text of a string, an object path or a signature. -/
def asText : Value → Option String
  | .string s | .objectPath s | .signature s => some s
  | _ => none

/-- The items of an array or the fields of a struct. -/
def asItems : Value → Option (List Value)
  | .array vs | .struct vs => some vs
  | _ => none

/-- The boxed value of a variant, with its tag. -/
def asVariant : Value → Option Variant
  | .variant t v => some ⟨t, v⟩
  | _ => none

/-- The first entry of a dictionary whose key has the text `key`. -/
def lookup (key : String) : Value → Option Value
  | .dict entries => (entries.find? fun e => e.1.asText = some key).map Prod.snd
  | _ => none

/-! ## 3. Equality -/

mutual
/-- Structural equality, with doubles compared as numbers. -/
def same : Value → Value → Bool
  | .int j m, .int k n => j = k && m.val = n.val
  | .bool a, .bool b => a = b
  | .double x, .double y => x.same y
  | .string s, .string t => s = t
  | .objectPath s, .objectPath t => s = t
  | .signature s, .signature t => s = t
  | .array vs, .array ws => sameAll vs ws
  | .dict es, .dict fs => sameEntries es fs
  | .struct vs, .struct ws => sameAll vs ws
  | .variant s v, .variant t w => s = t && same v w
  | _, _ => false
/-- Equality of two lists of values. -/
def sameAll : List Value → List Value → Bool
  | [], [] => true
  | v :: vs, w :: ws => same v w && sameAll vs ws
  | _, _ => false
/-- Equality of two lists of entries. -/
def sameEntries : List (Value × Value) → List (Value × Value) → Bool
  | [], [] => true
  | (j, v) :: es, (k, w) :: fs => same j k && same v w && sameEntries es fs
  | _, _ => false
end

end Value

end MessageBus
