/-
# Reading tags

Tags are read from left to right, one character at a time, with a stack of the containers that are
still open.  The stack's height is the depth of the tag that comes next, so the limit on nesting is
a limit on the stack.  A character either completes a basic tag, opens a container, or closes one,
and a completed tag is handed to the innermost open container (`put`), which may complete in turn.

A reader takes either any number of tags one after the other (`parseMany`) or one tag alone
(`parse`).
-/
import MessageBus.PackError

namespace MessageBus

namespace Tag

/-- A container that has been opened and what has been read of it. -/
inductive Frame where
  /-- An array whose element comes next. -/
  | array
  /-- A dictionary whose key comes next. -/
  | key
  /-- A dictionary whose value comes next. -/
  | value (key : Tag)
  /-- A dictionary whose closing brace comes next. -/
  | entry (key value : Tag)
  /-- A struct with the fields read so far. -/
  | struct (fields : List Tag)
  deriving Repr

/-- What is wrong with a text. -/
inductive Fault where
  | malformed
  | tooDeep
  deriving DecidableEq, Repr

/-- The state of reading: tags completed, containers open (innermost first), and whether one tag is
to stand alone. -/
structure Reader where
  alone : Bool
  done : List Tag
  stack : List Frame

namespace Reader

/-- A reader before the first character. -/
def start (alone : Bool) : Reader := ⟨alone, [], []⟩

/-- The tags and the open containers after a complete tag `t` has come. -/
def put (done : List Tag) (t : Tag) : List Frame → Except Fault (List Tag × List Frame)
  | [] => .ok (done ++ [t], [])
  | .array :: fs => put done (.array t) fs
  | .key :: fs => if t.isBasic then .ok (done, .value t :: fs) else .error .malformed
  | .value k :: fs => .ok (done, .entry k t :: fs)
  | .entry _ _ :: _ => .error .malformed
  | .struct ts :: fs => .ok (done, .struct (ts ++ [t]) :: fs)

/-- The basic tag or variant with the code letter `c`. -/
def ofLetter : Char → Option Tag
  | 'y' => some (.int .byte)
  | 'n' => some (.int .int16)
  | 'q' => some (.int .uint16)
  | 'i' => some (.int .int32)
  | 'u' => some (.int .uint32)
  | 'x' => some (.int .int64)
  | 't' => some (.int .uint64)
  | 'b' => some .bool
  | 'd' => some .double
  | 's' => some .string
  | 'o' => some .objectPath
  | 'g' => some .signature
  | 'v' => some .variant
  | _ => none

/-- Takes a character where a tag is due.  The tag's depth is the height of the stack. -/
def begin (done : List Tag) (fs : List Frame) (c : Char) :
    Except Fault (List Tag × List Frame) :=
  if maxDepth < fs.length then .error .tooDeep
  else if c = 'a' then
    if fs.length = maxDepth then .error .tooDeep else .ok (done, .array :: fs)
  else if c = '(' then .ok (done, .struct [] :: fs)
  else match ofLetter c with
    | some t => put done t fs
    | none => .error .malformed

/-- Takes one character. -/
def step (r : Reader) (c : Char) : Except Fault Reader := do
  let (done, stack) ←
    match r.stack with
    | [] => if r.alone && !r.done.isEmpty then .error .malformed else begin r.done [] c
    | .array :: fs => if c = '{' then .ok (r.done, .key :: fs) else begin r.done r.stack c
    | .entry k v :: fs => if c = '}' then put r.done (.dict k v) fs else .error .malformed
    | .struct ts :: fs => if c = ')' then put r.done (.struct ts) fs else begin r.done r.stack c
    | .key :: _ | .value _ :: _ => begin r.done r.stack c
  return { r with done, stack }

/-- The tags that have been read, once no container is open. -/
def finish (r : Reader) : Except Fault (List Tag) :=
  if r.stack.isEmpty then .ok r.done else .error .malformed

/-- Takes all of `cs`. -/
def run (r : Reader) (cs : List Char) : Except Fault Reader := cs.foldlM step r

end Reader

/-- What a fault means for the text `s`. -/
def Fault.toError (s : String) : Fault → PackError
  | .malformed => .invalidSignature s
  | .tooDeep => .recursionLimit

/-- Reads a concatenation of written tags, such as the inside of a tuple. -/
def parseMany (s : String) : Except PackError (List Tag) :=
  ((Reader.start false).run s.toList >>= Reader.finish).mapError (Fault.toError s)

/-- Reads exactly one written tag. -/
def parse (s : String) : Except PackError Tag :=
  match (Reader.start true).run s.toList >>= Reader.finish with
  | .ok [t] => .ok t
  | .ok _ => .error (.invalidSignature s)
  | .error f => .error (f.toError s)

/-- The number of tags in a text. -/
def count (s : String) : Except PackError Nat := (parseMany s).map List.length

/-- Whether the text is a concatenation of written tags. -/
def isSignature (s : String) : Bool := (parseMany s).isOk

end Tag

end MessageBus
