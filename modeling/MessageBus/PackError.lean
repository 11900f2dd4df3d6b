/-
# Ways in which a value fails to match a tag

The causes are kept as data, the tags and kinds in question among them, and `message` gives the text.
-/
import MessageBus.Value

namespace MessageBus

/-- Why a tag string was refused, or a value did not fit its tag. -/
inductive PackError where
  /-- The text is not a written tag, or not a sequence of them. -/
  | invalidSignature (text : String)
  /-- A value of kind `found` stands where `expected` was asked for. -/
  | typeMismatch (expected : Tag) (found : Kind)
  /-- There are `found` values for `expected` tags. -/
  | arityMismatch (expected found : Nat)
  /-- A container has other tags than its reader asked for. -/
  | signatureMismatch (expected found : List Tag)
  /-- No tag can be told for a value of this kind. -/
  | cannotInfer (found : Kind)
  /-- The text is not an object path. -/
  | invalidObjectPath (text : String)
  /-- Nesting goes below `maxDepth`. -/
  | recursionLimit
  deriving DecidableEq, Repr

namespace PackError

/-- The text of the error. -/
def message : PackError → String
  | .invalidSignature text => s!"invalid type signature '{text}'"
  | .typeMismatch expected found =>
    s!"type mismatch: expected '{expected.render}', found {found.name}"
  | .arityMismatch expected found =>
    s!"arity mismatch: expected {expected} values, found {found}"
  | .signatureMismatch expected found =>
    s!"signature mismatch: expected '{Tag.tuple expected}', found '{Tag.tuple found}'"
  | .cannotInfer found => s!"cannot infer a wire type for {found.name}"
  | .invalidObjectPath text => s!"invalid object path '{text}'"
  | .recursionLimit => "value nesting exceeds the recursion limit"

end PackError

end MessageBus
