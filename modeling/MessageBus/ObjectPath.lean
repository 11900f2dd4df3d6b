/-
# Object paths

An object path is `/`, or one or more elements, each a slash and then one or more ASCII letters,
digits and underscores.
-/

namespace MessageBus.ObjectPath

/-- The characters of an element. -/
def isWord (c : Char) : Bool := c.isAlphanum || c = '_'

mutual
/-- Whether what follows a slash is the rest of a path: an element has to begin here. -/
def opens : List Char → Bool
  | [] => false
  | c :: cs => isWord c && continues cs
/-- Whether what follows a character of an element is the rest of a path. -/
def continues : List Char → Bool
  | [] => true
  | c :: cs => if c = '/' then opens cs else isWord c && continues cs
end

/-- Whether the characters are those of an object path. -/
def accepts : List Char → Bool
  | ['/'] => true
  | '/' :: cs => opens cs
  | _ => false

/-- Whether the text is an object path. -/
def isValid (path : String) : Bool := accepts path.toList

end MessageBus.ObjectPath
