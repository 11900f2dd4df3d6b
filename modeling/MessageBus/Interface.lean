/-
# Interfaces

An interface is the callable surface of an object: methods, properties and signals with their tags.
It is built from declarations in order (`Interface.build`), which reads every tag and checks every
name, so that nothing on the path of a call has to.

What a proxy offers for an interface are its members: for each method `m` the three members
`mRemote`, `mSync` and `mFinish`, and for each property one of its own name.
-/
import MessageBus.Tag.Reader

namespace MessageBus

/-- What a property allows. -/
inductive Access where
  | read
  | write
  | readWrite
  deriving DecidableEq, Repr

/-- Whether reading is allowed. -/
def Access.readable : Access → Bool
  | .read | .readWrite => true
  | .write => false

/-- Whether writing is allowed. -/
def Access.writable : Access → Bool
  | .write | .readWrite => true
  | .read => false

/-- A method: the tags of its arguments and of its results. -/
structure Method where
  name : String
  input : List Tag
  output : List Tag
  deriving DecidableEq

/-- A property. -/
structure Property where
  name : String
  tag : Tag
  access : Access
  deriving DecidableEq

/-- A signal: the tags of its arguments. -/
structure Signal where
  name : String
  tags : List Tag
  deriving DecidableEq

/-- How a call member behaves: it waits for the reply, or hands the reply to a completion. -/
inductive CallMode where
  | sync
  | async
  deriving DecidableEq, Repr

/-- What a proxy's member stands for: methods and properties are given by their place in the
interface's lists. -/
inductive Member where
  | call (method : Nat) (mode : CallMode)
  | finish (method : Nat)
  | property (property : Nat)
  deriving DecidableEq, Repr

/-! ## 1. Members -/

namespace Member

/-- The members of the method at place `i`. -/
def ofMethod (i : Nat) (m : Method) : List (String × Member) :=
  [(m.name ++ "Remote", .call i .async), (m.name ++ "Sync", .call i .sync),
    (m.name ++ "Finish", .finish i)]

/-- The members of methods, the first of which has place `i`. -/
def ofMethods : Nat → List Method → List (String × Member)
  | _, [] => []
  | i, m :: ms => ofMethod i m ++ ofMethods (i + 1) ms

/-- The members of properties, the first of which has place `i`. -/
def ofProperties : Nat → List Property → List (String × Member)
  | _, [] => []
  | i, p :: ps => (p.name, .property i) :: ofProperties (i + 1) ps

/-- The members of an interface, those of its methods first. -/
def all (methods : List Method) (properties : List Property) : List (String × Member) :=
  ofMethods 0 methods ++ ofProperties 0 properties

end Member

/-- A built interface. -/
structure Interface where
  name : String
  methods : List Method
  properties : List Property
  signals : List Signal
  members : List (String × Member)

namespace Interface

/-- The declared method of this name. -/
def method? (i : Interface) (name : String) : Option Method := i.methods.find? (·.name = name)

/-- The declared property of this name. -/
def property? (i : Interface) (name : String) : Option Property :=
  i.properties.find? (·.name = name)

/-- The declared signal of this name. -/
def signal? (i : Interface) (name : String) : Option Signal := i.signals.find? (·.name = name)

/-- The member of a proxy that has this name. -/
def member? (i : Interface) (name : String) : Option Member :=
  (i.members.find? (·.1 = name)).map Prod.snd

/-- The names of all members, in the order of their characters. -/
def memberNames (i : Interface) : List String :=
  (i.members.map Prod.fst).mergeSort fun s t => !decide (t < s)

end Interface

/-! ## 2. Building an interface -/

/-- One member as it is declared, with its tags still in written form. -/
inductive Declaration where
  | method (name : String) (input output : List String)
  | property (name tag : String) (access : Access)
  | signal (name : String) (tags : List String)
  deriving Repr

/-- What names are unique among. -/
inductive DeclarationKind where
  | method
  | property
  | signal
  deriving DecidableEq, Repr

/-- The word for what is declared. -/
def DeclarationKind.word : DeclarationKind → String
  | .method => "method"
  | .property => "property"
  | .signal => "signal"

/-- Why declarations make no interface. -/
inductive InterfaceError where
  /-- Two declarations of one kind have the same name. -/
  | duplicate (kind : DeclarationKind) (name : String)
  /-- A property has the name of another member. -/
  | collision (name : String)
  /-- A declaration has a tag that cannot be read. -/
  | invalidTag (member : String) (error : PackError)
  deriving DecidableEq, Repr

/-- The text of the error. -/
def InterfaceError.message : InterfaceError → String
  | .duplicate kind name => s!"duplicate {kind.word} '{name}'"
  | .collision name => s!"synthesized member '{name}' is declared twice"
  | .invalidTag member e => s!"member '{member}' has an invalid tag: {e.message}"

/-- The declarations of an interface, read so far. -/
structure Draft where
  methods : List Method
  properties : List Property
  signals : List Signal

namespace Draft

/-- Reads the tags of the member `name`. -/
def readTags (name : String) (tags : List String) : Except InterfaceError (List Tag) :=
  tags.mapM fun tag => (Tag.parse tag).mapError (.invalidTag name)

/-- Adds one declaration. -/
def declare (d : Draft) : Declaration → Except InterfaceError Draft
  | .method name input output => do
    let input ← readTags name input
    let output ← readTags name output
    return { d with methods := d.methods ++ [{ name, input, output }] }
  | .property name tag access => do
    let tag ← (Tag.parse tag).mapError (.invalidTag name)
    return { d with properties := d.properties ++ [{ name, tag, access }] }
  | .signal name tags => do
    let tags ← readTags name tags
    return { d with signals := d.signals ++ [{ name, tags }] }

/-- Adds declarations in order, up to the first that has a tag that cannot be read. -/
def declareAll (ds : List Declaration) : Except InterfaceError Draft :=
  ds.foldlM declare ⟨[], [], []⟩

end Draft

/-- The first name that has occurred before. -/
def firstRepeat : List String → List String → Option String
  | _, [] => none
  | seen, s :: ss => if seen.contains s then some s else firstRepeat (s :: seen) ss

/-- Refuses a list in which a name occurs twice, with the error that `complain` makes of it. -/
def checkUnique (complain : String → InterfaceError) (names : List String) :
    Except InterfaceError Unit :=
  match firstRepeat [] names with
  | some name => .error (complain name)
  | none => .ok ()

/-- The interface that the declarations make. -/
def Interface.build (name : String) (ds : List Declaration) : Except InterfaceError Interface := do
  let d ← Draft.declareAll ds
  checkUnique (.duplicate .method) (d.methods.map Method.name)
  checkUnique (.duplicate .property) (d.properties.map Property.name)
  checkUnique (.duplicate .signal) (d.signals.map Signal.name)
  let members := Member.all d.methods d.properties
  checkUnique .collision (members.map Prod.fst)
  return { name, methods := d.methods, properties := d.properties, signals := d.signals, members }

end MessageBus
