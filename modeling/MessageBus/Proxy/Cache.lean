/-
# The property cache of a proxy

A cache holds the last known values of properties by name.  A notification of changed properties has
a body of three values: the interface, a dictionary of new values, and an array of the names whose
values are no longer known.  It is applied if it is for the proxy's own interface: first the new
values in their order, then the names that are dropped.
-/
import MessageBus.Table
import MessageBus.Warning

namespace MessageBus

/-- Known values of properties, by name. -/
abbrev Cache := Table String Value

namespace Cache

/-- Takes over the entries that are a string and a boxed value. -/
def learn (c : Cache) (entries : List (Value × Value)) : Cache :=
  entries.foldl (fun c e =>
    match e with
    | (.string name, .variant _ v) => c.insert name v
    | _ => c) c

/-- Drops the names that are strings. -/
def forget (c : Cache) (names : List Value) : Cache :=
  names.foldl (fun c n =>
    match n with
    | .string name => c.erase name
    | _ => c) c

/-- Applies what a notification says of one interface. -/
def update (c : Cache) (changed invalidated : Value) : Cache :=
  let c := match changed with
    | .dict entries => c.learn entries
    | _ => c
  match invalidated with
  | .array names => c.forget names
  | _ => c

/-- Applies a notification with these values to the cache of a proxy for `interface`. -/
def applyChange (c : Cache) (interface : String) : List Value → Logged Cache
  | .string changedInterface :: changed :: invalidated :: _ =>
    .quiet (if changedInterface = interface then c.update changed invalidated else c)
  | _ => ⟨c, [.malformedChange]⟩

end Cache

end MessageBus
