import Dmn.Ancs.DataSource
import Dmn.Bluez.Inventory
import Dmn.Lib.Dialogue
import Mathlib

/-!
# The monitor's start

`Dmn_AncsBluezMonitor::start`: it finds the device, has it paired and
connected, and starts the notification client. BlueZ, the client, the callbacks
and the clock answer as they like; the calls it makes follow `permitted`. The
clock is in nanoseconds and counted from the reading that set the deadline, a
timeout in milliseconds.
-/

namespace Dmn.Ancs.Monitor

open Dmn.Lib Dmn.Bluez Dmn.Lib.Dialogue

-- ---------------------------------------------------------------------------
-- Selection
-- ---------------------------------------------------------------------------

def isHex (c : Char) : Bool := ('0' ≤ c && c ≤ '9') || ('A' ≤ c && c ≤ 'F') || ('a' ≤ c && c ≤ 'f')

def kBluetoothAddressLength : Nat := 17

def isBluetoothAddress (value : String) : Bool :=
  value.toList.length == kBluetoothAddressLength &&
    value.toList.zipIdx.all fun (c, index) => if index % 3 = 2 then c == ':' else isHex c

def normalizedAddress (value : String) : String := .ofList (value.toList.map Char.toUpper)

def asciiCaseEqual (left right : String) : Bool := left.toList.map Char.toLower == right.toList.map Char.toLower

/-- `Dmn_BluezInventory` -/
structure BluezInventory where
  adapters : List Adapter
  devices : List Device

def matchesAdapter (adapter : Adapter) (selector : String) : Bool :=
  adapter.objectPath == selector || normalizedAddress adapter.address == normalizedAddress selector

def selectDevice (devices : List Device) (selector adapterPath : String) : List Device :=
  devices.filter fun device =>
    (adapterPath.isEmpty || device.adapterPath == adapterPath) &&
      if isBluetoothAddress selector then normalizedAddress device.address == normalizedAddress selector
      else asciiCaseEqual device.name selector

/-- The only element. -/
def only {α : Type} : List α → Option α
  | [a] => some a
  | _ => none

def findSelectedAdapter (inventory : BluezInventory) (selector : Option String) : Option Adapter :=
  let powered := inventory.adapters.filter fun adapter => adapter.powered.getD false
  match selector with
  | some selector => only (powered.filter (matchesAdapter · selector))
  | none => only powered

def findDeviceAdapter (inventory : BluezInventory) (device : Device) : Option Adapter :=
  inventory.adapters.find? fun adapter => adapter.objectPath == device.adapterPath

-- ---------------------------------------------------------------------------
-- Configuration
-- ---------------------------------------------------------------------------

/-- `Dmn_AncsMonitorStage` -/
inductive Stage
  | ancsStartup
  | cancelled
  | cleanup
  | connection
  | deviceNotFound
  | discovery
  | invalidArgument
  | inventory
  | notReady
  | pairing
  deriving DecidableEq

/-- `Dmn_AncsMonitorError` -/
structure MonitorError where
  stage : Stage
  message : String
  remoteName : String := ""
  ancsErrorKind : Option ErrorKind := none

/-- `Dmn_AncsMonitorProgress` -/
inductive Progress
  | inventory
  | discovery
  | pairing
  | connection
  | ancsStartup
  deriving DecidableEq

/-- `Dmn_AncsConfig`, as far as the monitor reads it. -/
structure AncsConfig where
  serviceResolutionTimeout : Int := 30000
  gattOperationTimeout : Int := 10000
  attributeResponseTimeout : Int := 10000

/-- `Dmn_AncsMonitorConfig` but for the callbacks, which are called through `reportProgress` and
`cancellationRequested`. -/
structure MonitorConfig where
  adapterSelector : Option String := none
  requireExistingConnection : Bool := false
  requestRemainingProfilesWhenConnected : Bool := false
  discoveryTimeout : Int := 30000
  pairingTimeout : Int := 120000
  connectionTimeout : Int := 30000
  ancs : AncsConfig := {}

/-- `Dmn_AncsMonitorSession` -/
structure Session where
  adapter : Adapter
  device : Device
  requestedRemainingProfiles : Bool

def kMaxSetupTimeout : Int := 600000

def validTimeout (timeout : Int) : Bool := 0 < timeout && timeout ≤ kMaxSetupTimeout

def validConfig (config : MonitorConfig) : Bool :=
  validTimeout config.discoveryTimeout && validTimeout config.pairingTimeout &&
    validTimeout config.connectionTimeout &&
    validTimeout config.ancs.serviceResolutionTimeout && validTimeout config.ancs.gattOperationTimeout &&
    validTimeout config.ancs.attributeResponseTimeout && config.adapterSelector.all fun selector =>
      !selector.isEmpty

def nanoseconds (timeout : Nat) : Nat := timeout * 1000000

/-- `std::chrono::ceil` to milliseconds, or zero. -/
def remainingTimeout (deadline clock : Nat) : Nat :=
  if deadline ≤ clock then 0 else (deadline - clock + 999999) / 1000000

-- ---------------------------------------------------------------------------
-- Calls
-- ---------------------------------------------------------------------------

/-- `Dmn_DbusError`, as far as it is reported. -/
structure RemoteError where
  message : String
  remoteName : String

/-- `Dmn_AncsError`, as far as it is reported. -/
structure ClientError extends RemoteError where
  kind : ErrorKind

inductive Call
  | cancellationRequested
  | reportProgress (progress : Progress)
  -- Whether the client is stopped.
  | ancsState
  | snapshot (timeout : Option Nat)
  | startDiscovery (adapter : String)
  | devices
  | stopDiscovery
  | pairDevice (selector adapter : String) (timeout : Nat)
  | connectDevice (selector adapter : String) (timeout : Nat)
  | connectAvailableProfiles (selector adapter : String) (timeout : Int)
  | ancsStart (device : String) (config : AncsConfig)
  | ancsStop
  -- What has passed since the last reading.
  | now
  | sleep (timeout : Nat)

abbrev Answer : Call → Type
  | .cancellationRequested | .ancsState => Bool
  | .reportProgress _ => Unit
  | .snapshot _ => Except RemoteError BluezInventory
  | .devices => List Device
  | .startDiscovery _ | .stopDiscovery | .pairDevice _ _ _ | .connectDevice _ _ _
  | .connectAvailableProfiles _ _ _ =>
    Except RemoteError Unit
  | .ancsStart _ _ | .ancsStop => Except ClientError Unit
  | .now => Nat
  -- what has passed
  | .sleep timeout => { elapsed : Nat // nanoseconds timeout ≤ elapsed }

abbrev Setup := ExceptT MonitorError (Dialogue Call Answer)

def tells (c : Call) : Setup (Answer c) := ExceptT.lift (Dialogue.ask c)

def makeError (stage : Stage) (error : RemoteError) : MonitorError :=
    ⟨stage, error.message, error.remoteName, none⟩

def makeClientError (stage : Stage) (error : ClientError) : MonitorError :=
  ⟨stage, error.message, error.remoteName, some error.kind⟩

def cancellationError : MonitorError := { stage := .cancelled, message := "monitor startup canceled" }

def ambiguous : MonitorError :=
  { stage := .deviceNotFound, message := "device selector is ambiguous; specify an adapter" }

def failIf (failing : Bool) (error : MonitorError) : Setup Unit := if failing then throw error else pure ()

def orThrow {α : Type} (error : MonitorError) : Option α → Setup α
  | some a => pure a
  | none => throw error

/-- The error is returned, under a stage. -/
def orFail {α : Type} (stage : Stage) : Except RemoteError α → Setup α
  | .ok a => pure a
  | .error e => throw (makeError stage e)

def takeSnapshot (stage : Stage) (timeout : Option Nat) : Setup BluezInventory := do
  orFail stage (← tells (.snapshot timeout))

def throwIfCancelled : Setup Unit := do
  failIf (← tells .cancellationRequested) cancellationError

def onlyMatch (message : String) : List Device → Setup Device
  | [] => throw { stage := .deviceNotFound, message }
  | [device] => pure device
  | _ => throw ambiguous

-- ---------------------------------------------------------------------------
-- Waiting
-- ---------------------------------------------------------------------------

def kDiscoveryPollInterval : Nat := 100

def kDeviceStatePollInterval : Nat := 100

def kDeviceStateSnapshotTimeout : Nat := 2000

/-- The loop of `discoverDevice`, which looks once in any case. -/
def pollDevices (selector : String) (adapter : Adapter) (deadline clock : Nat) : Setup (List Device) := do
  let devices ← tells .devices
  let matched := selectDevice devices selector adapter.objectPath
  if isBluetoothAddress selector && !matched.isEmpty then return matched
  else
    let slept ← tells (.sleep kDiscoveryPollInterval)
    let elapsed ← tells .now
    if clock + slept.1 + elapsed < deadline then pollDevices selector adapter deadline (clock +
      slept.1 + elapsed)
    else return matched
termination_by deadline - clock
decreasing_by
  have := slept.2
  simp only [nanoseconds, kDiscoveryPollInterval] at this
  omega

def discoverDevice (selector : String) (adapter : Adapter) (timeout : Int) : Setup (Device × Adapter) := do
  orFail .discovery (← tells (.startDiscovery adapter.objectPath))
  let matched ← pollDevices selector adapter (nanoseconds timeout.toNat) 0
  orFail .discovery (← tells .stopDiscovery)
  let device ← onlyMatch "device was not found before the discovery deadline" matched
  return (device, adapter)

/-- The device is as it should be. -/
def confirms (paired : Bool) (connected : Option Bool) (device : Device) : Bool :=
  device.paired.getD false == paired && connected.all fun connected => device.connected.getD false == connected

/-- How BlueZ and the monitor call the device. -/
def actionSelector (device : Device) : String := if device.address.isEmpty then device.objectPath
    else device.address

def waitForDeviceState (selected : Device) (adapter : Adapter) (paired : Bool) (connected : Option Bool)
    (deadline : Nat)
    (stage : Stage) (clock : Nat) : Setup Session := do
  let checked ← tells .now
  if clock + checked < deadline then
    let begun ← tells .now
    let inventory ← takeSnapshot stage (some (min kDeviceStateSnapshotTimeout
      (remainingTimeout deadline (clock + checked + begun))))
    match (only (selectDevice inventory.devices (actionSelector selected) adapter.objectPath)).filter
        (confirms paired connected) with
    | some device => return ⟨adapter, device, false⟩
    | none =>
      let taken ← tells .now
      let slept ← tells (.sleep (min kDeviceStatePollInterval
        (remainingTimeout deadline (clock + checked + begun + taken))))
      waitForDeviceState selected adapter paired connected deadline stage (clock + checked + begun +
        taken + slept.1)
  else throw { stage, message :=
    if connected.isSome then "device connection state was not confirmed" else
      "device pairing state was not confirmed" }
termination_by deadline - clock
decreasing_by
  have := slept.2
  simp only [nanoseconds, kDeviceStatePollInterval, remainingTimeout] at this
  split at this <;> omega

-- ---------------------------------------------------------------------------
-- The start
-- ---------------------------------------------------------------------------

/-- The adapter that is asked for. -/
def requestAdapter (config : MonitorConfig) (inventory : BluezInventory) : Setup (Option Adapter) :=
  match config.adapterSelector with
  | none => pure none
  | some selector => do
    let adapter ← orThrow
      { stage := .inventory, message := "adapter selector does not match exactly one adapter" }
      (only (inventory.adapters.filter (matchesAdapter · selector)))
    return some adapter

/-- The device is not in the inventory. -/
def discoverTarget (selector : String) (config : MonitorConfig) (inventory : BluezInventory) :
    Setup (BluezInventory × Option Adapter × List Device) := do
  let adapter ← orThrow
    { stage := .discovery, message := "no unique powered adapter is available; specify an adapter" }
    (findSelectedAdapter inventory config.adapterSelector)
  tells (.reportProgress .discovery)
  let discovered ← tryCatch (discoverDevice selector adapter config.discoveryTimeout) fun error => do
    throwIfCancelled
    throw error
  throwIfCancelled
  let inventory ← takeSnapshot .inventory none
  return (inventory, some discovered.2, selectDevice inventory.devices selector discovered.2.objectPath)

def findTarget (selector : String) (config : MonitorConfig) (inventory : BluezInventory)
    (requested : Option Adapter) :
    Setup (BluezInventory × Option Adapter × List Device) :=
  match selectDevice inventory.devices selector (requested.elim "" Adapter.objectPath) with
  | [device] => pure (inventory, requested.or (findDeviceAdapter inventory device), [device])
  | _ :: _ => throw ambiguous
  | [] => do
    failIf config.requireExistingConnection
      { stage := .deviceNotFound, message := "device is not present in the current BlueZ inventory" }
    discoverTarget selector config inventory

/-- The checks of the device that was found. -/
def checkTarget (config : MonitorConfig) (inventory : BluezInventory) (adapter : Option Adapter)
    (matched : List Device) :
    Setup (Adapter × Device) := do
  let target ← onlyMatch "device was not found in the current BlueZ inventory" matched
  let adapter ← orThrow { stage := .inventory, message := "selected device has no current adapter" }
    (adapter.or (findDeviceAdapter inventory target))
  failIf (!adapter.powered.getD false)
    { stage := .inventory, message := "selected Bluetooth adapter is not powered" }
  failIf (config.requireExistingConnection && !target.paired.getD false)
    { stage := .pairing, message := "selected device is not paired" }
  failIf (config.requireExistingConnection && !target.connected.getD false)
    { stage := .connection, message := "selected device is not connected" }
  return (adapter, target)

def resolveTarget (selector : String) (config : MonitorConfig) : Setup (Adapter × Device) := do
  tells (.reportProgress .inventory)
  let inventory ← takeSnapshot .inventory none
  throwIfCancelled
  let requested ← requestAdapter config inventory
  let (inventory, adapter, matched) ← findTarget selector config inventory requested
  checkTarget config inventory adapter matched

def pairTarget (config : MonitorConfig) (selector : String) (adapter : Adapter) (target : Device) :
    Setup Device :=
  if !config.requireExistingConnection && !target.paired.getD false then do
    tells (.reportProgress .pairing)
    let deadline := nanoseconds config.pairingTimeout.toNat
    let clock ← tells .now
    let timeout := remainingTimeout deadline clock
    failIf (timeout ≤ 0) { stage := .pairing, message := "pairing deadline expired before the BlueZ request" }
    orFail .pairing (← tells (.pairDevice selector adapter.objectPath timeout))
    let confirmed ← waitForDeviceState target adapter true none deadline .pairing clock
    return confirmed.device
  else return target

def requestRemainingProfiles (config : MonitorConfig) : Bool :=
  !config.requireExistingConnection || config.requestRemainingProfilesWhenConnected

/-- The device, and whether its remaining profiles were requested. -/
def connectProfiles (config : MonitorConfig) (selector : String) (adapter : Adapter) (target : Device) :
    Setup (Device × Bool) :=
  if !config.requireExistingConnection && !target.connected.getD false then do
    let deadline := nanoseconds config.connectionTimeout.toNat
    let clock ← tells .now
    let timeout := remainingTimeout deadline clock
    failIf (timeout ≤
      0) { stage := .connection, message := "connection deadline expired before the BlueZ request" }
    orFail .connection (← tells (.connectDevice selector adapter.objectPath timeout))
    let confirmed ← waitForDeviceState target adapter (target.paired.getD false) (some true) deadline
      .connection clock
    return (confirmed.device, false)
  else if requestRemainingProfiles config then do
    match ← tells (.connectAvailableProfiles selector adapter.objectPath config.connectionTimeout) with
    | .ok _ => return (target, true)
    | .error e =>
      throwIfCancelled
      throw (makeError .connection e)
  else return (target, false)

def connectTarget (config : MonitorConfig) (selector : String) (adapter : Adapter) (target : Device) :
    Setup (Device × Bool) :=
  if requestRemainingProfiles config then do
    tells (.reportProgress .connection)
    connectProfiles config selector adapter target
  else connectProfiles config selector adapter target

/-- The client is stopped, and then it fails. -/
def cleanup {α : Type} (failure : Setup α) : Setup α := do
  match ← tells .ancsStop with
  | .error e => throw (makeClientError .cleanup e)
  | .ok _ => failure

def startAncs (config : MonitorConfig) (adapter : Adapter) (target : Device)
    (requestedRemainingProfiles : Bool) :
    Setup Session := do
  throwIfCancelled
  tells (.reportProgress .ancsStartup)
  throwIfCancelled
  match ← tells (.ancsStart target.objectPath config.ancs) with
  | .error e => cleanup do
    throwIfCancelled
    throw (makeClientError .ancsStartup e)
  | .ok _ =>
    if ← tells .cancellationRequested then cleanup (throw cancellationError)
    else return ⟨adapter, target, requestedRemainingProfiles⟩

def start (deviceSelector : String) (config : MonitorConfig) : Setup Session := do
  failIf (deviceSelector.isEmpty || !validConfig config)
    { stage := .invalidArgument, message := "device selector and setup deadlines must be valid" }
  throwIfCancelled
  failIf (!(← tells .ancsState)) { stage := .notReady, message := "ANCS monitor is already active" }
  let (adapter, target) ← resolveTarget deviceSelector config
  let selector := actionSelector target
  let target ← pairTarget config selector adapter target
  let (target, requestedRemainingProfiles) ← connectTarget config selector adapter target
  startAncs config adapter target requestedRemainingProfiles

end Dmn.Ancs.Monitor
