/-
# Invocations and their replies

An invocation is owed one reply.  The first answer it is given is the reply, and wakes whoever waits
for it; an invocation that is given up is answered on its way out.
-/
import MessageBus.World.Links

namespace MessageBus.World

/-- Opens an invocation. -/
def invoke (w : World) (sender path interface member : String) : World × Nat :=
  let id := w.invocations.size
  let i := { sender, path, interface, member, reply := none }
  ({ w with invocations := w.invocations.insert id i }, id)

/-- Gives an invocation its reply, if it has none. -/
def reply (w : World) (id : Nat) (r : Reply Container) : World :=
  match w.invocations.get? id with
  | some i =>
    if i.reply.isSome then w
    else
      { w with invocations := w.invocations.insert id { i with reply := some r } }.wake
        (·.awaitsReply id)
  | none => w

/-- The reply to an invocation, if there is one. -/
def replyTo (w : World) (id : Nat) : Option (Reply Container) :=
  (w.invocations.get? id).bind (·.reply)

/-- Ends an invocation. -/
def conclude (w : World) (id : Nat) : Answer → World
  | .reply r => w.reply id r
  | .drop =>
    match w.invocations.get? id with
    | some i => (w.warn [.droppedInvocation i.member i.path]).reply id (.error (.noReply i.member))
    | none => w

/-! ## Calling handlers -/

/-- Keeps an invocation in the next slot. -/
def keep (w : World) (id : Nat) (args : List Value) : World :=
  let slot := w.kept.size
  let w := { w with kept := w.kept.insert slot { invocation := id, args, answered := false } }
  match w.invocations.get? id with
  | some i => w.note (.kept slot i args)
  | none => w

/-- Does with an invocation what an asynchronous handler decided. -/
def dispose (w : World) (id : Nat) (args : List Value) : Disposal → World
  | .keep => w.keep id args
  | .answer a => w.conclude id a
  | .answerAfter ms a => w.spawn (.answer id a (w.now + ms))

/-- Calls a handler of an object for an invocation. -/
def handle (w : World) (object id : Nat) (member : String) (body : Container) : World :=
  match w.objects.get? object with
  | none => w
  | some o =>
    match o.service.dispatch o.interface member body with
    | .refuse e ws => (w.warn ws).reply id (.error e)
    | .sync m handler args =>
      let w := w.note (.handled object id m.name args)
      let r := replyOf m (handler args)
      (w.warn r.warnings).reply id r.result
    | .async m handler args =>
      (w.note (.handled object id m.name args)).dispose id args (handler args)

/-- Answers the invocation that is kept in a slot, by what `answer` makes of its arguments; `none` if
the slot is empty or has been answered. -/
def answerKept (w : World) (slot : Nat) (answer : List Value → Answer) : Option World :=
  match w.kept.get? slot with
  | some k =>
    if k.answered then none
    else
      some ({ w with kept := w.kept.insert slot { k with answered := true } }.conclude k.invocation
        (answer k.args))
  | none => none

end MessageBus.World
