/-
# Type tags

A tag is the wire type of a value.  Basic tags have a one-letter code; arrays, dictionaries and
structs are built from other tags.  A tag is written as a string, and `Tag.Reader` reads it back.

The written form of a dictionary is `a\x7b` key value `\x7d`, of a struct its fields between
parentheses.  Tags may nest `maxDepth` levels below their root.
-/

namespace MessageBus

/-- How many levels a tag or a value may nest below its root. -/
def maxDepth : Nat := 64

/-- The number of levels there are in all, the root's among them. -/
def levels : Nat := maxDepth + 1

/-! ## 1. Integer kinds -/

/-- The fixed-width integers. -/
inductive IntKind where
  | byte
  | int16
  | uint16
  | int32
  | uint32
  | int64
  | uint64
  deriving DecidableEq, Repr, Inhabited

namespace IntKind

/-- The least number of the kind. -/
def least : IntKind → Int
  | .byte | .uint16 | .uint32 | .uint64 => 0
  | .int16 => -0x8000
  | .int32 => -0x80000000
  | .int64 => -0x8000000000000000

/-- The greatest number of the kind. -/
def greatest : IntKind → Int
  | .byte => 0xff
  | .int16 => 0x7fff
  | .uint16 => 0xffff
  | .int32 => 0x7fffffff
  | .uint32 => 0xffffffff
  | .int64 => 0x7fffffffffffffff
  | .uint64 => 0xffffffffffffffff

/-- Whether `n` is a number of the kind. -/
abbrev Holds (k : IntKind) (n : Int) : Prop := k.least ≤ n ∧ n ≤ k.greatest

/-- The numbers of the kind. -/
abbrev Number (k : IntKind) : Type := { n : Int // k.Holds n }

/-- The code letter. -/
def letter : IntKind → Char
  | .byte => 'y'
  | .int16 => 'n'
  | .uint16 => 'q'
  | .int32 => 'i'
  | .uint32 => 'u'
  | .int64 => 'x'
  | .uint64 => 't'

end IntKind

/-! ## 2. Tags -/

/-- One complete wire type. -/
inductive Tag where
  | int (kind : IntKind)
  | bool
  | double
  | string
  | objectPath
  | signature
  /-- A value of unknown type that carries its own tag. -/
  | variant
  | array (elem : Tag)
  | dict (key value : Tag)
  | struct (fields : List Tag)
  deriving Repr, Inhabited

namespace Tag

mutual
/-- Whether two tags are equal. -/
def beq : Tag → Tag → Bool
  | .int j, .int k => j = k
  | .bool, .bool | .double, .double | .string, .string | .objectPath, .objectPath
  | .signature, .signature | .variant, .variant => true
  | .array s, .array t => beq s t
  | .dict j s, .dict k t => beq j k && beq s t
  | .struct ss, .struct ts => beqAll ss ts
  | _, _ => false
/-- Whether two lists of tags are equal. -/
def beqAll : List Tag → List Tag → Bool
  | [], [] => true
  | s :: ss, t :: ts => beq s t && beqAll ss ts
  | _, _ => false
end

mutual
theorem beq_iff : ∀ s t : Tag, beq s t = true ↔ s = t
  | .int _, t => by cases t <;> simp [beq]
  | .bool, t => by cases t <;> simp [beq]
  | .double, t => by cases t <;> simp [beq]
  | .string, t => by cases t <;> simp [beq]
  | .objectPath, t => by cases t <;> simp [beq]
  | .signature, t => by cases t <;> simp [beq]
  | .variant, t => by cases t <;> simp [beq]
  | .array s, t => by cases t <;> simp [beq, beq_iff s]
  | .dict j s, t => by cases t <;> simp [beq, beq_iff j, beq_iff s]
  | .struct ss, t => by cases t <;> simp [beq, beqAll_iff ss]
theorem beqAll_iff : ∀ ss ts : List Tag, beqAll ss ts = true ↔ ss = ts
  | [], ts => by cases ts <;> simp [beqAll]
  | s :: ss, ts => by cases ts <;> simp [beqAll, beq_iff s, beqAll_iff ss]
end

instance : DecidableEq Tag := fun s t => decidable_of_iff _ (beq_iff s t)

/-- Whether the tag may key a dictionary: it is neither a container nor a variant. -/
def isBasic : Tag → Bool
  | .variant | .array _ | .dict _ _ | .struct _ => false
  | _ => true

/-- Whether the tag is that of a fixed-width integer. -/
def isInteger : Tag → Bool
  | .int _ => true
  | _ => false

/-! ## 3. The written form -/

mutual
/-- The characters of the written form. -/
def chars : Tag → List Char
  | .int k => [k.letter]
  | .bool => ['b']
  | .double => ['d']
  | .string => ['s']
  | .objectPath => ['o']
  | .signature => ['g']
  | .variant => ['v']
  | .array elem => 'a' :: chars elem
  | .dict key value => 'a' :: '{' :: (chars key ++ chars value ++ ['}'])
  | .struct fields => '(' :: (charsAll fields ++ [')'])
/-- The written forms of several tags, one after the other. -/
def charsAll : List Tag → List Char
  | [] => []
  | t :: ts => chars t ++ charsAll ts
end

/-- The written form. -/
def render (t : Tag) : String := String.ofList t.chars

/-- The written form of a tuple of tags, between parentheses. -/
def tuple (ts : List Tag) : String := (Tag.struct ts).render

/-! ## 4. Depth and good form -/

mutual
/-- How deep the deepest node lies below the root. -/
def depth : Tag → Nat
  | .array elem => depth elem + 1
  | .dict key value => max (depth key) (depth value) + 1
  | .struct fields => height fields
  | _ => 0
/-- How deep the deepest node of several tags lies below a node that holds them all; `0` if there
is none. -/
def height : List Tag → Nat
  | [] => 0
  | t :: ts => max (depth t + 1) (height ts)
end

mutual
/-- Whether every dictionary in the tag has a basic key. -/
def WellFormed : Tag → Prop
  | .array elem => WellFormed elem
  | .dict key value => key.isBasic = true ∧ WellFormed key ∧ WellFormed value
  | .struct fields => WellFormedAll fields
  | _ => True
/-- Whether every tag of the list is well formed. -/
def WellFormedAll : List Tag → Prop
  | [] => True
  | t :: ts => WellFormed t ∧ WellFormedAll ts
end

end Tag

end MessageBus
