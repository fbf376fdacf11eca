import Dmn.Lib.Halting

/-!
# The inventory of the BlueZ client

`Dmn_BluezClient::Impl` as far as it is about adapters and devices: the values
of a D-Bus message, the properties of an object, and what one signal does. A
`std::map` is a partial function. A program may throw halfway, and leaves what
it has done.
-/

namespace Dmn.Bluez

open Dmn.Lib

-- ---------------------------------------------------------------------------
-- D-Bus values
-- ---------------------------------------------------------------------------

/-- The types of which the client reads nothing. -/
inductive PlainType
  | none
  | uint16
  | int32
  | uint32
  | int64
  | uint64
  | double
  | byte
  | signature
  | byteArray
  deriving DecidableEq

def PlainType.text : PlainType → String
  | .none => ""
  | .uint16 => "q"
  | .int32 => "i"
  | .uint32 => "u"
  | .int64 => "x"
  | .uint64 => "t"
  | .double => "d"
  | .byte => "y"
  | .signature => "g"
  | .byteArray => "ay"

/-- `Dmn_DbusValue` -/
inductive Value
  | bool (value : Bool)
  | int16 (value : Int)
  | string (value : String)
  | objectPath (value : String)
  | plain (type : PlainType)
  | array (elementSignature : String) (values : List Value)
  | dictionary (keySignature valueSignature : String) (entries : List (Value × Value))
  | structure (signature : String)
  | variant (value : Value)

def Value.signature : Value → String
  | .bool _ => "b"
  | .int16 _ => "n"
  | .string _ => "s"
  | .objectPath _ => "o"
  | .plain type => type.text
  | .array elementSignature _ => "a" ++ elementSignature
  | .dictionary keySignature valueSignature _ => "a\x7b" ++ keySignature ++ valueSignature ++ "\x7d"
  | .structure signature => "(" ++ signature ++ ")"
  | .variant _ => "v"

/-- `std::bad_variant_access::what()` -/
def badVariantAccess : String := "std::get: wrong index for variant"

namespace Value

def asString : Value → Except String String
  | .string value => .ok value
  | _ => .error badVariantAccess

def asObjectPath : Value → Except String String
  | .objectPath value => .ok value
  | _ => .error badVariantAccess

def asArray : Value → Except String (List Value)
  | .array _ values => .ok values
  | _ => .error badVariantAccess

def asDictionary : Value → Except String (List (Value × Value))
  | .dictionary _ _ entries => .ok entries
  | _ => .error badVariantAccess

def asVariant : Value → Except String Value
  | .variant value => .ok value
  | _ => .error badVariantAccess

end Value

def kBluez : String := "org.bluez"

def kAdapter : String := "org.bluez.Adapter1"

def kDevice : String := "org.bluez.Device1"

-- ---------------------------------------------------------------------------
-- Properties
-- ---------------------------------------------------------------------------

/-- The loops of `property` and `findInterface`: the first entry of that name. -/
def findEntry (name : String) : List (Value × Value) → Except String (Option Value)
  | [] => .ok none
  | (key, value) :: entries => do
    if (← key.asString) = name then return some value
    findEntry name entries

def property (properties : Value) (name : String) : Except String (Option Value) := do
  match ← findEntry name (← properties.asDictionary) with
  | some value => return some (← value.asVariant)
  | none => return none

def findInterface (interfaces : Value) (name : String) : Except String (Option Value) := do
  findEntry name (← interfaces.asDictionary)

def stringProperty (properties : Value) (name : String) : Except String (Option String) := do
  match ← property properties name with
  | some (.string value) => return some value
  | _ => return none

def boolProperty (properties : Value) (name : String) : Except String (Option Bool) := do
  match ← property properties name with
  | some (.bool value) => return some value
  | _ => return none

def int16Property (properties : Value) (name : String) : Except String (Option Int) := do
  match ← property properties name with
  | some (.int16 value) => return some value
  | _ => return none

def changedProperty (properties : Value) (name : String) : Except String (Option Value) :=
    property properties name

/-- `any_of` stops at the first one. -/
def invalidatedProperty (name : String) : List Value → Except String Bool
  | [] => .ok false
  | value :: invalidated => do
    if (← value.asString) = name then return true
    invalidatedProperty name invalidated

/-- `stringChange`, `boolChange` and `rssiChange`: what is read from a value of the right type. -/
def change {α : Type} (read : Value → Option α) (changed : Value) (invalidated : List Value) (name : String)
    (current : Option α) : Except String (Option α) := do
  match (← changedProperty changed name).bind read with
  | some value => return some value
  | none => if ← invalidatedProperty name invalidated then return none else return current

def Value.string? : Value → Option String
  | .string value => some value
  | _ => none

def Value.bool? : Value → Option Bool
  | .bool value => some value
  | _ => none

def Value.int16? : Value → Option Int
  | .int16 value => some value
  | _ => none

def stringChange (changed : Value) (invalidated : List Value) (name : String) (current : Option String) :
    Except String (Option String) := change Value.string? changed invalidated name current

def boolChange (changed : Value) (invalidated : List Value) (name : String) (current : Option Bool) :
    Except String (Option Bool) := change Value.bool? changed invalidated name current

def rssiChange (changed : Value) (invalidated : List Value) (current : Option Int) : Except String
    (Option Int) :=
  change Value.int16? changed invalidated "RSSI" current

-- ---------------------------------------------------------------------------
-- Records
-- ---------------------------------------------------------------------------

/-- `Dmn_BluezAdapter` -/
structure Adapter where
  objectPath : String
  address : String
  name : String
  aliasName : Option String
  reportedName : Option String
  powered : Option Bool
  deriving DecidableEq

/-- `Dmn_BluezDevice` -/
structure Device where
  objectPath : String
  adapterPath : String
  address : String
  name : String
  aliasName : Option String
  reportedName : Option String
  rssi : Option Int
  paired : Option Bool
  connected : Option Bool
  servicesResolved : Option Bool
  seenDuringDiscovery : Bool := false
  deriving DecidableEq

/-- `Dmn_BluezEvent` -/
inductive Event
  | adapterAdded (adapter : Adapter)
  | adapterChanged (adapter : Adapter)
  | adapterRemoved (adapter : Adapter)
  | deviceAdded (device : Device)
  | deviceChanged (device : Device)
  | deviceRemoved (device : Device)
  | serviceAvailable (message : String)
  | serviceUnavailable (message : String)
  | error (message : String)
  deriving DecidableEq

def displayName (aliasName name : Option String) (address : String) : String :=
  match aliasName.filter (· ≠ ""), name.filter (· ≠ "") with
  | some aliasName, _ => aliasName
  | none, some name => name
  | none, none => address

/-- The path up to its last separator. -/
def adapterForDevicePath (path : String) : String :=
  String.ofList ((path.toList.reverse.dropWhile (· ≠ '/')).drop 1).reverse

def parseAdapter (path : String) (properties : Value) : Except String Adapter := do
  let address := (← stringProperty properties "Address").getD ""
  let aliasName ← stringProperty properties "Alias"
  let reportedName ← stringProperty properties "Name"
  let powered ← boolProperty properties "Powered"
  return {
    objectPath := path, address, aliasName, reportedName, powered
    name := displayName aliasName reportedName address }

def parseDevice (path : String) (properties : Value) : Except String Device := do
  let address := (← stringProperty properties "Address").getD ""
  let aliasName ← stringProperty properties "Alias"
  let reportedName ← stringProperty properties "Name"
  let rssi ← int16Property properties "RSSI"
  let paired ← boolProperty properties "Paired"
  let connected ← boolProperty properties "Connected"
  let servicesResolved ← boolProperty properties "ServicesResolved"
  return {
    objectPath := path, adapterPath := adapterForDevicePath path, address, aliasName, reportedName,
      rssi, paired, connected
    servicesResolved, name := displayName aliasName reportedName address }

/-- The record is changed field by field. -/
def updateAdapter (changed : Value) (invalidated : List Value) : EStateM String Adapter Unit := do
  let address ← reads (stringChange changed invalidated "Address" (some (← get).address))
  modify fun adapter => { adapter with address := address.getD "" }
  let aliasName ← reads (stringChange changed invalidated "Alias" (← get).aliasName)
  modify fun adapter => { adapter with aliasName }
  let reportedName ← reads (stringChange changed invalidated "Name" (← get).reportedName)
  modify fun adapter => { adapter with reportedName }
  let powered ← reads (boolChange changed invalidated "Powered" (← get).powered)
  modify fun adapter => { adapter with powered }
  modify fun adapter =>
    { adapter with name := displayName adapter.aliasName adapter.reportedName adapter.address }

def updateDevice (changed : Value) (invalidated : List Value) : EStateM String Device Unit := do
  let address ← reads (stringChange changed invalidated "Address" (some (← get).address))
  modify fun device => { device with address := address.getD "" }
  let aliasName ← reads (stringChange changed invalidated "Alias" (← get).aliasName)
  modify fun device => { device with aliasName }
  let reportedName ← reads (stringChange changed invalidated "Name" (← get).reportedName)
  modify fun device => { device with reportedName }
  let rssi ← reads (rssiChange changed invalidated (← get).rssi)
  modify fun device => { device with rssi }
  let paired ← reads (boolChange changed invalidated "Paired" (← get).paired)
  modify fun device => { device with paired }
  let connected ← reads (boolChange changed invalidated "Connected" (← get).connected)
  modify fun device => { device with connected }
  let servicesResolved ← reads (boolChange changed invalidated "ServicesResolved" (← get).servicesResolved)
  modify fun device => { device with servicesResolved }
  modify fun device => { device with name := displayName device.aliasName device.reportedName device.address }

-- ---------------------------------------------------------------------------
-- The maps
-- ---------------------------------------------------------------------------

/-- The adapter's address and the device's. -/
abbrev DeviceIdentity := String × String

structure Inventory where
  available : Bool := false
  adapters : String → Option Adapter := fun _ => none
  devices : DeviceIdentity → Option Device := fun _ => none
  devicePaths : String → Option DeviceIdentity := fun _ => none
  discoveryActive : Bool := false
  discoveryStarting : Bool := false
  discoveryAdapter : String := ""
  recoveryRequested : Bool := false

namespace Inventory

/-- The maps, not the flags. -/
def clear (i : Inventory) : Inventory :=
  { i with
    available := false
    adapters := fun _ => none
    devices := fun _ => none
    devicePaths := fun _ => none }

def deviceIdentity (i : Inventory) (device : Device) : DeviceIdentity :=
  let adapterIdentity :=
    match (i.adapters device.adapterPath).filter (·.address ≠ "") with
    | some adapter => adapter.address
    | none => device.adapterPath
  (adapterIdentity, if device.address = "" then device.objectPath else device.address)

def findDeviceByPath (i : Inventory) (path : String) : Option Device := (i.devicePaths path).bind i.devices

def setDevice (i : Inventory) (identity : DeviceIdentity) (device : Option Device) : Inventory :=
  { i with devices := Function.update i.devices identity device }

def setPath (i : Inventory) (path : String) (identity : Option DeviceIdentity) : Inventory :=
  { i with devicePaths := Function.update i.devicePaths path identity }

/-- Whether the identity is new is returned too. -/
def storeDevice (i : Inventory) (device : Device) : Inventory × Bool :=
  let identity := i.deviceIdentity device
  let (unlinked, device) :=
    match i.devices identity with
    | none => (i, device)
    | some existing =>
      (if existing.objectPath ≠ device.objectPath then i.setPath existing.objectPath none else i,
        { device with seenDuringDiscovery := device.seenDuringDiscovery || existing.seenDuringDiscovery })
  let cleared :=
    match unlinked.devicePaths device.objectPath with
    | none => unlinked
    | some prior => if prior ≠ identity then unlinked.setDevice prior none else unlinked
  ((cleared.setPath device.objectPath (some identity)).setDevice identity (some device),
    (i.devices identity).isNone)

/-- The device was found while an adapter is discovering. -/
def discovering (i : Inventory) (device : Device) : Bool :=
  (i.discoveryActive || i.discoveryStarting) && device.adapterPath = i.discoveryAdapter

/-- The devices of the adapter are not seen any more. -/
def unsee (i : Inventory) (adapterPath : String) : Inventory :=
  { i with
    devices := fun identity => (i.devices identity).map fun (device : Device) =>
      if device.adapterPath = adapterPath then { device with seenDuringDiscovery := false } else device }

end Inventory

-- ---------------------------------------------------------------------------
-- Signals
-- ---------------------------------------------------------------------------

structure Signal where
  member : String
  path : String
  arguments : List Value

/-- The inventory, and the events about it. -/
structure Applied where
  inventory : Inventory
  events : List Event

abbrev Applying := EStateM String Applied

def push (event : Event) : Applying Unit := modify fun a => { a with events := a.events ++ [event] }

def alter (f : Inventory → Inventory) : Applying Unit := modify fun a => { a with inventory := f a.inventory }

def nameOwnerChanged (name oldOwner newOwner : Value) : Applying Unit := do
  if (← reads name.asString) = kBluez then
    let oldOwner ← reads oldOwner.asString
    let newOwner ← reads newOwner.asString
    if oldOwner ≠ "" then
      alter fun i =>
        { i.clear with discoveryActive := false, discoveryStarting := false, discoveryAdapter := "" }
      push (.serviceUnavailable "BlueZ service owner disappeared")
    if newOwner ≠ "" then
      alter fun i => { i with recoveryRequested := true }

def addAdapter (path : String) (properties : Value) : Applying Unit := do
  let adapter ← reads (parseAdapter path properties)
  alter fun i => { i with adapters := Function.update i.adapters path (some adapter) }
  push (.adapterAdded adapter)

def addDevice (path : String) (properties : Value) : Applying Unit := do
  let parsed ← reads (parseDevice path properties)
  let i := (← get).inventory
  let device := { parsed with seenDuringDiscovery := i.discovering parsed }
  let (stored, inserted) := i.storeDevice device
  alter fun _ => stored
  match stored.findDeviceByPath path with
  | some device => push (if inserted then .deviceAdded device else .deviceChanged device)
  | none => pure ()

def interfacesAdded (path interfaces : Value) : Applying Unit := do
  let path ← reads path.asObjectPath
  match ← reads (findInterface interfaces kAdapter) with
  | some properties => addAdapter path properties
  | none => pure ()
  match ← reads (findInterface interfaces kDevice) with
  | some properties => addDevice path properties
  | none => pure ()

def removeAdapter (path : String) : Applying Unit := do
  match (← get).inventory.adapters path with
  | none => pure ()
  | some adapter =>
    push (.adapterRemoved adapter)
    alter fun i => { i with adapters := Function.update i.adapters path none }

def removeDevice (path : String) : Applying Unit := do
  let i := (← get).inventory
  match i.devicePaths path with
  | none => pure ()
  | some identity =>
    match i.devices identity with
    | none => alter fun i => i.setPath path none
    | some device =>
      push (.deviceRemoved device)
      alter fun i => (i.setDevice identity none).setPath path none

/-- The loop over the interfaces that are gone. -/
def removeInterfaces (path : String) : List Value → Applying Unit
  | [] => pure ()
  | interface :: interfaces => do
    let interface ← reads interface.asString
    if interface = kAdapter then removeAdapter path
    else if interface = kDevice then removeDevice path
    removeInterfaces path interfaces

def interfacesRemoved (path interfaces : Value) : Applying Unit := do
  let path ← reads path.asObjectPath
  removeInterfaces path (← reads interfaces.asArray)

/-- The record in the map is changed, also when the program throws. -/
def changeAdapter (path : String) (changed : Value) (invalidated : List Value) : Applying Unit := do
  match (← get).inventory.adapters path with
  | none => pure ()
  | some adapter =>
    match updateAdapter changed invalidated adapter with
    | .error error adapter =>
      alter fun i => { i with adapters := Function.update i.adapters path (some adapter) }
      throw error
    | .ok _ adapter =>
      alter fun i => { i with adapters := Function.update i.adapters path (some adapter) }
      push (.adapterChanged adapter)

/-- The record is stored anew when its identity has changed. -/
def rekey (identity : DeviceIdentity) (device : Device) (i : Inventory) : Inventory :=
  let changed := i.setDevice identity (some device)
  if changed.deviceIdentity device = identity then changed else
    ((changed.setDevice identity none).storeDevice device).1

def changeDevice (path : String) (changed : Value) (invalidated : List Value) : Applying Unit := do
  let i := (← get).inventory
  match i.devicePaths path with
  | none => pure ()
  | some identity =>
    match i.devices identity with
    | none => pure ()
    | some device =>
      match updateDevice changed invalidated device with
      | .error error device =>
        alter fun i => i.setDevice identity (some device)
        throw error
      | .ok _ device =>
        alter (rekey identity device)
        let i := (← get).inventory
        match i.devicePaths path with
        | none => pure ()
        | some identity =>
          match i.devices identity with
          | none => pure ()
          | some device =>
            let rssi ← if i.discovering device then reads (changedProperty changed "RSSI") else pure none
            let device := { device with seenDuringDiscovery := device.seenDuringDiscovery || rssi.isSome }
            alter fun i => i.setDevice identity (some device)
            push (.deviceChanged device)

def propertiesChanged (path : String) (interface changed invalidated : Value) : Applying Unit := do
  let interface ← reads interface.asString
  let invalidated ← reads invalidated.asArray
  if interface = kAdapter then changeAdapter path changed invalidated
  else if interface = kDevice then changeDevice path changed invalidated

def applyMember (signal : Signal) : Applying Unit :=
  match signal.arguments with
  | [first, second, third] =>
    if signal.member = "NameOwnerChanged" then nameOwnerChanged first second third
    else if signal.member = "PropertiesChanged" then propertiesChanged signal.path first second third
    else pure ()
  | [first, second] =>
    if signal.member = "InterfacesAdded" then interfacesAdded first second
    else if signal.member = "InterfacesRemoved" then interfacesRemoved first second
    else pure ()
  | _ => pure ()

/-- An exception becomes an event. -/
def applySignal (signal : Signal) (a : Applied) : Applied :=
  match applyMember signal a with
  | .ok _ a => a
  | .error error a => { a with events := a.events ++ [.error ("invalid BlueZ signal: " ++ error)] }

-- ---------------------------------------------------------------------------
-- Objects
-- ---------------------------------------------------------------------------

/-- The loops of `snapshot` over the objects. -/
def loadAdapters : List (Value × Value) → EStateM String Inventory Unit
  | [] => pure ()
  | (path, interfaces) :: objects => do
    let path ← reads path.asObjectPath
    match ← reads (findInterface interfaces kAdapter) with
    | some properties =>
      let adapter ← reads (parseAdapter path properties)
      modify fun i => { i with adapters := Function.update i.adapters path (some adapter) }
    | none => pure ()
    loadAdapters objects

def loadDevices (previousDevices : DeviceIdentity → Option Device) :
    List (Value × Value) → EStateM String Inventory Unit
  | [] => pure ()
  | (path, interfaces) :: objects => do
    let path ← reads path.asObjectPath
    match ← reads (findInterface interfaces kDevice) with
    | some properties =>
      let parsed ← reads (parseDevice path properties)
      modify fun i =>
        let prior := previousDevices (i.deviceIdentity parsed)
        (i.storeDevice { parsed with seenDuringDiscovery := prior.any (·.seenDuringDiscovery) }).1
    | none => pure ()
    loadDevices previousDevices objects

/-- The signal says that the owner of the name has changed, or is gone. -/
def ownerLost (signal : Signal) : Except String Bool :=
  match signal.arguments with
  | [name, oldOwner, _] =>
    if signal.member = "NameOwnerChanged" then do
      if (← name.asString) = kBluez then return (← oldOwner.asString) ≠ ""
      return false
    else return false
  | _ => return false

/-- The loop over the staged signals, and whether the owner has been lost. -/
def replay : List Signal → EStateM String Inventory Bool
  | [] => pure false
  | signal :: signals => do
    let lost ← reads (ownerLost signal)
    modify fun i => (applySignal signal ⟨i, []⟩).inventory
    return (← replay signals) || lost

/-- The maps are replaced by what the reply says. -/
def load (objects : Value) (previousDevices : DeviceIdentity → Option Device) :
    EStateM String Inventory Unit := do
  modify fun i => { i.clear with available := i.available }
  let objects ← reads objects.asDictionary
  loadAdapters objects
  loadDevices previousDevices objects

/-- What `snapshot` makes of the reply and the staged signals. -/
def reload (objects : Value) (staged : List Signal) : EStateM String Inventory Bool := do
  load objects (← get).devices
  replay staged

end Dmn.Bluez
