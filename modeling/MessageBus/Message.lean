/-
# Messages

What connections exchange: method calls to a target, and broadcast signals, which subscriptions
select by rules.
-/
import MessageBus.Container
import MessageBus.Names

namespace MessageBus

/-- One interface of one object of one service. -/
structure Target where
  name : String
  path : String
  interface : String
  deriving DecidableEq, Repr

/-- The text of a target. -/
def Target.text (t : Target) : String := s!"{t.name}:{t.path}#{t.interface}"

/-! ## 1. Calls -/

/-- Flags that go with a call, as the bits of a word. -/
structure CallFlags where
  bits : UInt32
  deriving DecidableEq, Repr, Inhabited

namespace CallFlags

/-- No flag. -/
def none : CallFlags := ⟨0⟩

/-- A service that is not there is not to be started. -/
def noAutoStart : CallFlags := ⟨1⟩

/-- The user may be asked for authorization. -/
def allowInteractiveAuthorization : CallFlags := ⟨2⟩

/-- The flags of either. -/
def union (a b : CallFlags) : CallFlags := ⟨a.bits ||| b.bits⟩

/-- Whether all flags of `b` are among those of `a`. -/
def contains (a b : CallFlags) : Bool := a.bits &&& b.bits = b.bits

end CallFlags

/-- A method call on its way. -/
structure MethodCall where
  destination : String
  path : String
  interface : String
  member : String
  body : Container

namespace MethodCall

/-- A call of a member of the target's interface. -/
def ofTarget (t : Target) (member : String) (body : Container) : MethodCall :=
  { destination := t.name, path := t.path, interface := t.interface, member, body }

/-- A call of a member of the properties interface of the target's object. -/
def properties (t : Target) (member : String) (body : Container) : MethodCall :=
  { destination := t.name, path := t.path, interface := propertiesInterface, member, body }

end MethodCall

/-! ## 2. Signals -/

/-- A broadcast signal.  One without arguments has no body. -/
structure SignalMessage where
  sender : String
  path : String
  interface : String
  member : String
  body : Option Container

/-- The arguments of the signal. -/
def SignalMessage.args (m : SignalMessage) : List Value := (m.body.map Container.values).getD []

/-- Which signals a subscription wants; a field that is not given allows anything. -/
structure SignalRule where
  sender : Option String
  path : Option String
  interface : Option String
  member : Option String
  deriving DecidableEq, Repr

namespace SignalRule

/-- Whether a field of a rule allows a text. -/
def allows (field : Option String) (text : String) : Bool := field.all (· = text)

/-- Whether the rule allows the signal's path, interface and member.  Its sender has to be resolved
by the connection. -/
def matchesRoute (r : SignalRule) (m : SignalMessage) : Bool :=
  allows r.path m.path && allows r.interface m.interface && allows r.member m.member

end SignalRule

end MessageBus
