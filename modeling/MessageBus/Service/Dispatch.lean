/-
# Dispatch

How a service answers the requests that come for one interface.  A call goes to the handler of its
method if its body has the declared tags; if there are handlers of both kinds the synchronous one is
called.  What a synchronous handler returns is packed against the method's output (`Return.pack`).
Properties are read and written with their declared tags.
-/
import MessageBus.Interface
import MessageBus.Service
import MessageBus.Warning

namespace MessageBus

/-! ## 1. Results of synchronous handlers -/

namespace Return

/-- The values that a return stands for when the method declares `n` results. -/
def spread (n : Nat) : Return → List Value
  | .empty => []
  | .value v =>
    if n = 1 then [v]
    else match v with
      | .array vs | .struct vs => vs
      | v => [v]
  | .tuple vs => if n = 1 ∧ vs.length ≠ 1 then [.array vs] else vs
  | .packed c => c.values

/-- What a return is as a reply body. -/
def pack (m : Method) : Return → Except PackError Container
  | .packed c => .ok c
  | .empty => .ok .empty
  | r => Container.pack m.output (r.spread m.output.length)

end Return

/-- The reply for a return, and a warning if it does not fit. -/
def packReturn (m : Method) (r : Return) : Logged (Reply Container) :=
  match r.pack m with
  | .ok c => .quiet (.ok c)
  | .error e => ⟨.error .valueError, [.unfitReturn m.name e]⟩

/-- The reply for the result of a synchronous handler. -/
def replyOf (m : Method) : Except HandlerError Return → Logged (Reply Container)
  | .ok r => packReturn m r
  | .error e => .quiet (.error (.ofHandler e))

/-! ## 2. Calls -/

/-- Where a call goes. -/
inductive Dispatch where
  /-- No handler is called. -/
  | refuse (error : WireError) (warnings : List Warning)
  | sync (method : Method) (handler : SyncHandler) (args : List Value)
  | async (method : Method) (handler : AsyncHandler) (args : List Value)

namespace Service

/-- Where a call of `member` with a body goes. -/
def dispatch (s : Service) (i : Interface) (member : String) (body : Container) : Dispatch :=
  match i.method? member with
  | none => .refuse (.unknownMethod member) [.missingHandler member]
  | some m =>
    match body.unpackAs m.input with
    | .error _ =>
      .refuse (.invalidArgs (s!"Type of message, '{body.signature}', does not match " ++
        s!"expected type '{Tag.tuple m.input}'")) []
    | .ok args =>
      match s.sync.get? m.name, s.async.get? m.name with
      | some handler, _ => .sync m handler args
      | none, some handler => .async m handler args
      | none, none => .refuse (.unknownMethod member) [.missingHandler member]

/-! ## 3. Properties -/

/-- The declared property of this name. -/
def property (i : Interface) (name : String) : Reply Property :=
  match i.property? name with
  | some p => .ok p
  | none => .error (.named ErrorName.unknownProperty s!"No such property '{name}'")

/-- The value of a property under its tag. -/
def read (s : Service) (cells : Cells) (p : Property) : Except PackError (Option Variant) :=
  match s.get cells p.name with
  | none => .ok none
  | some v => (Variant.make p.tag v).map some

/-- The value of a property as a reply, and a warning if it does not fit its tag. -/
def readReply (s : Service) (cells : Cells) (p : Property) : Logged (Reply (Option Variant)) :=
  match s.read cells p with
  | .ok v => .quiet (.ok v)
  | .error e => ⟨.error .valueError, [.unfitProperty p.name e]⟩

/-- Answers a request for one property. -/
def propertyGet (s : Service) (i : Interface) (cells : Cells) (name : String) :
    Logged (Reply (Option Variant)) :=
  match property i name with
  | .error e => .quiet (.error e)
  | .ok p =>
    if p.access.readable then s.readReply cells p
    else .quiet (.error (.invalidArgs s!"Property '{name}' is not readable"))

/-- The readable properties that have a value that fits, in the order of their declarations. -/
def propertyGetAll (s : Service) (i : Interface) (cells : Cells) :
    Logged (List (String × Variant)) :=
  let readable := i.properties.filter (·.access.readable)
  ⟨readable.filterMap fun p =>
      match (s.readReply cells p).result with
      | .ok (some x) => some (p.name, x)
      | _ => none,
    readable.flatMap fun p => (s.readReply cells p).warnings⟩

/-- Answers a request to write one property: the value is packed against the property's tag before
anything changes. -/
def propertySet (s : Service) (i : Interface) (cells : Cells) (name : String) (v : Value) :
    Reply (Service × Cells) :=
  match property i name with
  | .error e => .error e
  | .ok p =>
    if p.access.writable then
      match Variant.make p.tag v with
      | .ok x => .ok (s.set cells name x.value)
      | .error e =>
        .error (.invalidArgs s!"Property '{name}' expects type '{p.tag.render}': {e.message}")
    else .error (.invalidArgs s!"Property '{name}' is not writable")

end Service

end MessageBus
