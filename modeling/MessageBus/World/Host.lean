/-
# The service's side

What can be done with an object in a world: it is exported and taken back, emits signals, and tells
that its properties have changed.
-/
import MessageBus.World.Run

namespace MessageBus.World

/-- Adds an object that is not exported. -/
def addObject (w : World) (i : Interface) (s : Service) : World × Nat :=
  let id := w.objects.size
  ({ w with objects := w.objects.insert id { interface := i, service := s, binding := none } }, id)

/-- Changes an object. -/
def setObject (w : World) (id : Nat) (o : Object) : World :=
  { w with objects := w.objects.insert id o }

/-! ## 1. Exporting -/

/-- Exports an object at a path. -/
def exportObject (w : World) (id : Nat) (o : Object) (link : Link) (path : String) :
    World × Except CallError Unit :=
  if o.isExported then (w, .error .alreadyExported)
  else
    match w.register link path o.interface.name id with
    | (w, .error e) => (w, .error (.transport e))
    | (w, .ok registration) =>
      (w.setObject id { o with binding := some { link, path, registration } }, .ok ())

/-- Takes an object back. -/
def unexportObject (w : World) (id : Nat) (o : Object) : World × Except CallError Unit :=
  match o.binding with
  | none => (w, .error .notExported)
  | some b =>
    (((w.unregister b.link b.registration).setObject id { o with binding := none }).closeUnheld,
      .ok ())

/-- Gives an object up.  Calls that have been handed to it run on. -/
def dropObject (w : World) (id : Nat) (o : Object) : World := (w.unexportObject id o).1

/-! ## 2. Signals -/

/-- Broadcasts a signal of an object. -/
def emitFrom (w : World) (o : Object) (interface member : String) (body : Option Container) :
    World × Except CallError Unit :=
  match o.binding with
  | none => (w, .error .notExported)
  | some b =>
    let (w, result) := w.broadcast b.link { sender := "", path := b.path, interface, member, body }
    (w, result.mapError .transport)

/-- Broadcasts a declared signal. -/
def emitSignal (w : World) (o : Object) (name : String) (args : List Value) :
    World × Except CallError Unit :=
  match o.signalBody name args with
  | .error e => (w, .error e)
  | .ok body => w.emitFrom o o.interface.name name body

/-- Tells that a property has a new value, or that its value is no longer known. -/
def emitChanged (w : World) (o : Object) (name : String) (value : Option Value) :
    World × Except CallError Unit :=
  match o.changeBody name value with
  | .error e => (w, .error e)
  | .ok body => w.emitFrom o propertiesInterface propertiesChanged (some body)

/-! ## 3. The values of a service -/

/-- The present value of a property of an object's service. -/
def serviceGet (w : World) (o : Object) (name : String) : Option Value := o.service.get w.cells name

/-- Gives a property of an object's service a value. -/
def serviceSet (w : World) (id : Nat) (o : Object) (name : String) (v : Value) : World :=
  let (service, cells) := o.service.set w.cells name v
  { w.setObject id { o with service } with cells }

end MessageBus.World
