/-
# Steps with objects
-/
import MessageBus.Session

namespace MessageBus.Session

/-- Puts an object under a label; the one that was there before is given up. -/
def setObject (s : Session) (label : String) (id : Nat) : Session :=
  { s with
    objects := s.objects.insert label id
    world := match s.object? label with
      | some (old, o) => s.world.dropObject old o
      | none => s.world }

/-- Exports an object through the connection under a label. -/
def exportThrough (s : Session) (id : Nat) (o : Object) (connection path : String) :
    World × Outcome :=
  match s.links.get? connection with
  | none => (s.world, .missing "conn")
  | some link =>
    let (w, result) := s.world.exportObject id o link path
    (w, .ofCall (fun _ => .done) result)

/-- Hands a call to the handlers of an object; the reply is recorded when it comes. -/
def callDirectly (w : World) (id : Nat) (o : Object) (sender path member : String)
    (body : Container) : World × Outcome :=
  let (w, invocation) := w.invoke sender path o.interface.name member
  ((w.handle id invocation member body).spawn (.watch invocation), .number invocation)

/-- The outcome of a request for one property. -/
def propertyOutcome : Reply (Option Variant) → Outcome
  | .ok x => .value (x.map Variant.toValue)
  | .error e => .wireError e

/-- Writes a property of an object as a request would. -/
def setDirectly (w : World) (id : Nat) (o : Object) (property : String) (v : Value) :
    World × Outcome :=
  match o.service.propertySet o.interface w.cells property v with
  | .ok (service, cells) => ({ w.setObject id { o with service } with cells }, .done)
  | .error e => (w, .wireError e)

/-- Does a step with an object of the world. -/
def onWorldObject (w : World) (id : Nat) (o : Object) : ObjectStep → World × Outcome
  | .unexport =>
    let (w, result) := w.unexportObject id o
    (w, .ofCall (fun _ => .done) result)
  | .isExported => (w, .exported o.path? o.interface.name)
  | .emit signal args =>
    let (w, result) := w.emitSignal o signal args
    (w, .ofCall (fun _ => .done) result)
  | .emitChanged property value =>
    let (w, result) := w.emitChanged o property value
    (w, .ofCall (fun _ => .done) result)
  | .get property => (w, .value (w.serviceGet o property))
  | .set property v => (w.serviceSet id o property v, .done)
  | .call sender path member body => callDirectly w id o sender path member body
  | .propertyGet property =>
    let r := o.service.propertyGet o.interface w.cells property
    (w.warn r.warnings, propertyOutcome r.result)
  | .propertyGetAll =>
    let r := o.service.propertyGetAll o.interface w.cells
    (w.warn r.warnings, .properties r.result)
  | .propertySet property v => setDirectly w id o property v
  | .inspect => (w, .text (Inspect.object o))
  | .inspectService => (w, .text (Inspect.service o.service))
  | .exportAt _ _ | .drop => (w, .done)

/-- Does a step with the object under a label. -/
def onObject (s : Session) (label : String) (step : ObjectStep) : Session × Outcome :=
  match s.object? label with
  | none => (s, .missing "object")
  | some (id, o) =>
    match step with
    | .exportAt connection path => s.wrap (exportThrough s id o connection path)
    | .drop =>
      ({ s with objects := s.objects.erase label, world := s.world.dropObject id o }, .done)
    | step => s.wrap (onWorldObject s.world id o step)

end MessageBus.Session
