/-
# Argument lists

A call is made with a flat list: the declared arguments and then trailers.  `prepare` splits the
list by one of two conventions and packs the declared part against the method's input.

* **Full**: at most three trailers in any order.  An integer is the call's flags, a token its
  cancellation, and in an asynchronous call a reply handler is its completion; of several trailers
  of one sort the leftmost counts.
* **Introspected**: a token may follow the arguments, and in an asynchronous call a finish handler
  has to come last.

Tokens and handlers are known by their names.
-/
import MessageBus.CallError
import MessageBus.Interface
import MessageBus.Message

namespace MessageBus

/-- A cancellation token, by its name.  It fires at most once. -/
structure Token where
  name : String
  deriving DecidableEq, Repr

/-- One entry of an argument list. -/
inductive Argument where
  | value (v : Value)
  | cancel (token : Token)
  /-- A handler that takes the values of the reply, by its name. -/
  | reply (handler : String)
  /-- A handler that takes the raw result, by its name. -/
  | finish (handler : String)

/-- The words for what an argument is. -/
def Argument.describe : Argument → String
  | .value v => v.kind.name
  | .cancel _ => "a cancellable"
  | .reply _ => "a reply handler"
  | .finish _ => "a finish handler"

/-- How a proxy's argument lists are read. -/
inductive Convention where
  | full
  | introspected
  deriving DecidableEq, Repr, Inhabited

/-- What becomes of the outcome of an asynchronous call. -/
inductive Completion where
  /-- Nobody waits for it; an error is logged. -/
  | log
  | reply (handler : String)
  | finish (handler : String)
  deriving DecidableEq, Repr

/-- The most trailers of a full-convention call. -/
def maxTrailers : Nat := 3

/-- What the trailers of a call say. -/
structure Trailers where
  flags : Option CallFlags
  cancel : Option Token
  completion : Completion
  deriving DecidableEq, Repr

/-- The trailers of a call that has none. -/
def Trailers.none : Trailers := ⟨Option.none, Option.none, .log⟩

/-- A call that is ready to be sent. -/
structure PreparedCall extends Trailers where
  body : Container

/-- Whether the caller gave a handler. -/
def PreparedCall.hasHandler (c : PreparedCall) : Bool := c.completion ≠ .log

/-! ## 1. Trailers -/

/-- Why an argument is refused. -/
def refuse (m : Method) (position : Nat) (a : Argument) : CallError :=
  .argumentType m.name position a.describe

/-- The bits of an argument that may serve as flags. -/
def Argument.flags? : Argument → Option CallFlags
  | .value v => (v.asIntOf .uint32).map fun n => ⟨UInt32.ofNat n.val.toNat⟩
  | _ => none

namespace Trailers

/-- Reads the full-convention trailer `a` at `position`, after those to its right. -/
def addFull (m : Method) (mode : CallMode) (a : Argument) (position : Nat) (t : Trailers) :
    Except CallError Trailers :=
  match a with
  | .reply handler =>
    if mode = .async then .ok { t with completion := .reply handler }
    else .error (refuse m position a)
  | .cancel token => .ok { t with cancel := some token }
  | .value _ =>
    match a.flags? with
    | some flags => .ok { t with flags := some flags }
    | Option.none => .error (refuse m position a)
  | .finish _ => .error (refuse m position a)

/-- Reads the full-convention trailers that begin at `position`, the last one first. -/
def readFull (m : Method) (mode : CallMode) : Nat → List Argument → Except CallError Trailers
  | _, [] => .ok none
  | position, a :: rest => do addFull m mode a position (← readFull m mode (position + 1) rest)

/-- Reads the one token that may follow the arguments by introspected convention. -/
def readCancel (m : Method) (position : Nat) : List Argument → Except CallError Trailers
  | [] => .ok none
  | .cancel token :: _ => .ok { none with cancel := some token }
  | a :: _ => .error (refuse m position a)

/-- Reads the introspected-convention trailers that begin at `position`.  In an asynchronous call
the finish handler, which comes last, is looked at first. -/
def readIntrospected (m : Method) (mode : CallMode) (position : Nat) (rest : List Argument) :
    Except CallError Trailers :=
  match mode with
  | .sync => readCancel m position rest
  | .async =>
    match rest.getLast? with
    | some (.finish handler) => do
      let t ← readCancel m position rest.dropLast
      return { t with completion := .finish handler }
    | some a => .error (refuse m (position + rest.length - 1) a)
    | Option.none => .ok none

end Trailers

/-! ## 2. Whole lists -/

/-- The least and the greatest number of trailers. -/
def Convention.trailers (c : Convention) (mode : CallMode) : Nat × Nat :=
  match c, mode with
  | .full, _ => (0, maxTrailers)
  | .introspected, .sync => (0, 1)
  | .introspected, .async => (1, 2)

/-- Refuses a list that is too short or too long. -/
def checkCount (m : Method) (mode : CallMode) (c : Convention) (args : List Argument) :
    Except CallError Unit :=
  let (least, greatest) := c.trailers mode
  let n := m.input.length
  if args.length < n + least then .error (.argumentCount m.name (n + least) args.length)
  else if n + greatest < args.length then
    .error (.argumentCount m.name (n + greatest) args.length)
  else .ok ()

/-- The values of the declared arguments that begin at `position`. -/
def readValues (m : Method) : Nat → List Argument → Except CallError (List Value)
  | _, [] => .ok []
  | position, .value v :: rest => return v :: (← readValues m (position + 1) rest)
  | position, a :: _ => .error (refuse m position a)

/-- Splits an argument list and packs its declared part. -/
def prepare (m : Method) (mode : CallMode) (c : Convention) (args : List Argument) :
    Except CallError PreparedCall := do
  let n := m.input.length
  checkCount m mode c args
  let trailers ←
    match c with
    | .full => Trailers.readFull m mode n (args.drop n)
    | .introspected => Trailers.readIntrospected m mode n (args.drop n)
  let values ← readValues m 0 (args.take n)
  let body ← (Container.pack m.input values).mapError .codec
  return { trailers with body }

/-! ## 3. Replies -/

/-- The values of a reply, if it has the tags that the method declares. -/
def readReply (m : Method) (reply : Except TransportError Container) :
    Except CallError (List Value) := do
  let c ← reply.mapError .transport
  (c.unpackAs m.output).mapError (.replyMismatch m.name)

/-- The outcome of an asynchronous call that has not been read yet. -/
structure AsyncResult where
  method : Method
  reply : Except TransportError Container

/-- Reads the outcome. -/
def AsyncResult.finish (r : AsyncResult) : Except CallError (List Value) :=
  readReply r.method r.reply

end MessageBus
