/-
# Well-known names

The names that the bus itself uses: those of its errors, and the interface that gives access to
properties.
-/

namespace MessageBus

namespace ErrorName

/-- What the error names of handlers are put under when they name no namespace of their own. -/
def ownNamespace : String := "org.busbind.Error"

/-- A handler returned something that does not fit its method's results. -/
def valueError : String := "org.busbind.Error.ValueError"

/-- There is no such method, or it has no handler. -/
def unknownMethod : String := "org.freedesktop.DBus.Error.UnknownMethod"

/-- There is no such object, or it has no such interface. -/
def unknownObject : String := "org.freedesktop.DBus.Error.UnknownObject"

/-- There is no such property. -/
def unknownProperty : String := "org.freedesktop.DBus.Error.UnknownProperty"

/-- A destination stands for nobody. -/
def serviceUnknown : String := "org.freedesktop.DBus.Error.ServiceUnknown"

/-- The arguments of a call do not fit. -/
def invalidArgs : String := "org.freedesktop.DBus.Error.InvalidArgs"

/-- An invocation was given up. -/
def noReply : String := "org.freedesktop.DBus.Error.NoReply"

/-- Any other failure. -/
def failed : String := "org.freedesktop.DBus.Error.Failed"

end ErrorName

/-- The interface through which every object's properties are read and written. -/
def propertiesInterface : String := "org.freedesktop.DBus.Properties"

/-- The signal of that interface which tells that properties have changed. -/
def propertiesChanged : String := "PropertiesChanged"

/-- The reply timeout of a bus that sets no other, in milliseconds. -/
def defaultCallTimeout : Nat := 25000

end MessageBus
