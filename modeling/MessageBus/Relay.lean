/-
# The signal relay

A relay hands signals on to listeners that were connected for them by name.  Handles are numbers
that are given out once.  An emission runs the listeners that are connected when it begins
(`listening`), in the order in which they were connected; what they do to the relay meanwhile
matters to the emissions that begin later.
-/
import MessageBus.Value

namespace MessageBus

/-- A signal as a listener hears it. -/
structure SignalEvent where
  sender : String
  signal : String
  args : List Value

/-- A connected listener. -/
structure Listening (α : Type) where
  handle : Nat
  signal : String
  listener : α

/-- The connected listeners in the order of their handles, and the handle to give out next.  The
counter stands for one of 64 bits: runs are meant that connect fewer than `2 ^ 64` listeners. -/
structure Relay (α : Type) where
  listeners : List (Listening α)
  nextHandle : Nat

namespace Relay

variable {α : Type}

/-- A relay with no listener. -/
def empty : Relay α := ⟨[], 0⟩

instance : Inhabited (Relay α) := ⟨empty⟩

/-- Connects a listener for a signal. -/
def connect (r : Relay α) (signal : String) (listener : α) : Relay α × Nat :=
  (⟨r.listeners ++ [⟨r.nextHandle, signal, listener⟩], r.nextHandle + 1⟩, r.nextHandle)

/-- Removes the listener with the handle, and tells whether there was one. -/
def disconnect (r : Relay α) (handle : Nat) : Relay α × Bool :=
  ({ r with listeners := r.listeners.filter (·.handle ≠ handle) },
    r.listeners.any (·.handle = handle))

/-- The listeners of a signal, in order. -/
def listening (r : Relay α) (signal : String) : List (Listening α) :=
  r.listeners.filter (·.signal = signal)

/-- The number of listeners of a signal. -/
def count (r : Relay α) (signal : String) : Nat := (r.listening signal).length

/-- The number of listeners of all signals. -/
def size (r : Relay α) : Nat := r.listeners.length

end Relay

end MessageBus
