/-
# Objects

An object offers one interface of a service.  It can be bound to one connection at a time, under a
path.
-/
import MessageBus.Proxy
import MessageBus.Service.Properties

namespace MessageBus

/-- Where an object is exported. -/
structure Binding where
  link : Link
  path : String
  registration : Nat
  deriving DecidableEq, Repr

/-- An interface, the service behind it, and where it is exported. -/
structure Object where
  interface : Interface
  service : Service
  binding : Option Binding

namespace Object

/-- Whether the object is bound to a connection. -/
def isExported (o : Object) : Bool := o.binding.isSome

/-- The path under which the object is exported. -/
def path? (o : Object) : Option String := o.binding.map (·.path)

/-- The body of a declared signal.  A signal without arguments has none. -/
def signalBody (o : Object) (name : String) (args : List Value) :
    Except CallError (Option Container) :=
  match o.interface.signal? name with
  | none => .error (.unknownMember name)
  | some s =>
    if args.isEmpty then .ok none
    else ((Container.pack s.tags args).map some).mapError .codec

/-- The tags of a notification of changed properties: the interface, the new values, and the names
of those that are no longer known. -/
def changeTags : List Tag := [.string, .dict .string .variant, .array .string]

/-- The body of a notification that a declared property has a new value, or that its value is no
longer known. -/
def changeBody (o : Object) (name : String) (value : Option Value) :
    Except CallError Container := do
  match o.interface.property? name with
  | none => .error (.unknownMember name)
  | some p =>
    let (changed, invalidated) ←
      match value with
      | some v => do
        let x ← (Variant.make p.tag v).mapError .codec
        pure ([(Value.string name, x.toValue)], [])
      | none => pure ([], [Value.string name])
    (Container.pack changeTags
      [.string o.interface.name, .dict changed, .array invalidated]).mapError .codec

end Object

end MessageBus
