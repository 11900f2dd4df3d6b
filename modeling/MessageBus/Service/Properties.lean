/-
# The properties interface

Every exported object answers calls on the properties interface, for the interface that the first
argument names: `Get` with a name, `Set` with a name and a boxed value, and `GetAll`.
-/
import MessageBus.Message
import MessageBus.Service.Dispatch

namespace MessageBus

namespace PropertyCall

/-- The interface that a call's arguments name. -/
def interface : List Value → Reply String
  | .string interface :: _ => .ok interface
  | _ => .error (.invalidArgs "Expected an interface name")

/-- There is no such interface on the object at a path. -/
def unknownObject (interface path : String) : WireError :=
  .named ErrorName.unknownObject s!"No such interface '{interface}' on object at path {path}"

end PropertyCall

/-- What a call on the properties interface leads to: its outcome and the state after it. -/
structure PropertyAnswer where
  outcome : Except TransportError Container
  warnings : List Warning
  service : Service
  cells : Cells

namespace Service

/-- The reply for a property that was asked for. -/
def replyGet (name : String) : Reply (Option Variant) → Except TransportError Container
  | .ok (some x) => (Container.pack [.variant] [x.toValue]).mapError .ofPack
  | .ok none => .error (.remote (.named ErrorName.failed s!"Property '{name}' has no value"))
  | .error e => .error (.remote e)

/-- The reply for all properties. -/
def replyGetAll (entries : List (String × Variant)) : Except TransportError Container :=
  (Container.pack [.dict .string .variant]
    [.dict (entries.map fun e => (.string e.1, e.2.toValue))]).mapError .ofPack

/-- Answers the call of `member` on the properties interface with these arguments, the first of
which named this service's interface. -/
def answerProperties (s : Service) (i : Interface) (cells : Cells) (member : String)
    (args : List Value) : PropertyAnswer :=
  match member, args with
  | "Get", [_, .string name] =>
    let r := s.propertyGet i cells name
    ⟨replyGet name r.result, r.warnings, s, cells⟩
  | "Set", [_, .string name, .variant _ v] =>
    match s.propertySet i cells name v with
    | .ok (s, cells) => ⟨.ok .empty, [], s, cells⟩
    | .error e => ⟨.error (.remote e), [], s, cells⟩
  | "GetAll", [_] =>
    let r := s.propertyGetAll i cells
    ⟨replyGetAll r.result, r.warnings, s, cells⟩
  | "Get", _ | "Set", _ | "GetAll", _ =>
    ⟨.error (.remote (.invalidArgs s!"Invalid arguments for {member}")), [], s, cells⟩
  | member, _ =>
    ⟨.error (.remote (.named ErrorName.unknownMethod
      s!"No such method '{member}' on {propertiesInterface}")), [], s, cells⟩

end Service

end MessageBus
