/-
# Inspection

The text that shows a thing with its parts: a record as its name and named fields between braces, a
constructor as its name and its arguments between parentheses, a list between brackets.
-/
import MessageBus.Double.Text
import MessageBus.World
import MessageBus.Text.Quoted

namespace MessageBus.Inspect

/-! ## 1. Forms -/

/-- Parts with commas between them. -/
def commas (parts : List String) : String := ", ".intercalate parts

/-- A list of parts. -/
def list (parts : List String) : String := "[" ++ commas parts ++ "]"

/-- A constructor with arguments. -/
def application (name : String) (args : List String) : String := name ++ "(" ++ commas args ++ ")"

/-- A record with named fields. -/
def record (name : String) (fields : List (String × String)) : String :=
  name ++ " \x7b " ++ commas (fields.map fun (field, part) => field ++ ": " ++ part) ++ " \x7d"

/-- Something that may be missing. -/
def optional : Option String → String
  | some part => application "Some" [part]
  | none => "None"

/-- A truth value. -/
def bool (b : Bool) : String := if b then "true" else "false"

/-! ## 2. Tags and values -/

/-- The name of a kind of integer. -/
def intKind : IntKind → String
  | .byte => "Byte"
  | .int16 => "Int16"
  | .uint16 => "UInt16"
  | .int32 => "Int32"
  | .uint32 => "UInt32"
  | .int64 => "Int64"
  | .uint64 => "UInt64"

mutual
/-- A tag. -/
def tag : Tag → String
  | .int k => intKind k
  | .bool => "Bool"
  | .double => "Double"
  | .string => "String"
  | .objectPath => "ObjectPath"
  | .signature => "Signature"
  | .variant => "Variant"
  | .array elem => application "Array" [tag elem]
  | .dict key value => application "Dict" [tag key, tag value]
  | .struct fields => application "Struct" [list (tags fields)]
/-- Several tags. -/
def tags : List Tag → List String
  | [] => []
  | t :: ts => tag t :: tags ts
end

mutual
/-- A value. -/
def value : Value → String
  | .int k n => application (intKind k) [toString n.val]
  | .bool b => application "Bool" [bool b]
  | .double d => application "Double" [d.text]
  | .string s => application "String" [Text.quoted s]
  | .objectPath s => application "ObjectPath" [Text.quoted s]
  | .signature s => application "Signature" [Text.quoted s]
  | .array items => application "Array" [list (values items)]
  | .dict es => application "Dict" [list (entries es)]
  | .struct fields => application "Struct" [list (values fields)]
  | .variant t v => application "Variant" [record "Variant" [("ty", tag t), ("value", value v)]]
/-- Several values. -/
def values : List Value → List String
  | [] => []
  | v :: vs => value v :: values vs
/-- The entries of a dictionary. -/
def entries : List (Value × Value) → List String
  | [] => []
  | (k, v) :: es => application "" [value k, value v] :: entries es
end

/-- A container: its tags and its values. -/
def container (c : Container) : String :=
  record "Container" [("types", list (tags c.tags)), ("values", list (values c.values))]

/-! ## 3. Calls -/

/-- An argument: its value, or else only what it is. -/
def argument : Argument → String
  | .value v => application "Value" [value v]
  | a => application "Arg" [a.describe]

/-- Call flags, by their bits. -/
def flags (f : CallFlags) : String := application "CallFlags" [toString f.bits.toNat]

/-- A call that is ready to be sent. -/
def preparedCall (c : PreparedCall) : String :=
  record "PreparedCall"
    [("body", container c.body), ("flags", optional (c.flags.map flags)),
      ("cancel", bool c.cancel.isSome)]

/-- A target. -/
def target (t : Target) : String :=
  record "Target"
    [("name", Text.quoted t.name), ("path", Text.quoted t.path),
      ("interface", Text.quoted t.interface)]

/-! ## 4. What a bus joins -/

/-- A relay, by the number of its listeners. -/
def relay {α : Type} (r : Relay α) : String :=
  record "SignalRelay" [("listeners", toString r.size)]

/-- The name of a convention. -/
def convention : Convention → String
  | .full => "Full"
  | .introspected => "Introspected"

/-- A proxy, by its target, its convention and the size of its cache. -/
def proxy (p : Proxy) : String :=
  record "Proxy"
    [("target", target p.target), ("convention", convention p.convention),
      ("cached", toString p.cache.size)]

/-- Names, quoted and in the order of their characters. -/
def names (ns : List String) : String :=
  list ((ns.mergeSort fun s t => !decide (t < s)).map Text.quoted)

/-- A service, by the names of its handlers and the number of its fields. -/
def service (s : Service) : String :=
  record "Implementation"
    [("sync_handlers", names s.sync.keys),
      ("async_handlers", names (s.async.keys.map (· ++ "Async"))),
      ("fields", toString s.fields.size)]

/-- An object, by its interface and its path. -/
def object (o : Object) : String :=
  record "ExportedObject"
    [("interface", Text.quoted o.interface.name), ("path", optional (o.path?.map Text.quoted))]

/-- A bus, under an identifier of its own. -/
def bus {η σ : Type} (id : String) (b : Bus η σ) : String :=
  record "Bus"
    [("guid", Text.quoted id), ("connections", toString b.openNames.length),
      ("objects", toString b.objects.size)]

/-- A connection of a bus. -/
def connection {η σ : Type} (b : Bus η σ) (name : String) : String :=
  record "LoopbackConnection"
    [("unique_name", Text.quoted name), ("closed", bool (!b.isOpen name))]

/-- An invocation. -/
def invocation (i : Invocation) : String :=
  record "Invocation"
    [("sender", Text.quoted i.sender), ("path", Text.quoted i.path),
      ("interface", Text.quoted i.interface), ("member", Text.quoted i.member),
      ("replied", bool i.reply.isSome)]

end MessageBus.Inspect
