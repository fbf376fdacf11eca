import Dmn.Bluez.Inventory
import Dmn.Lib.Transition

/-!
# The BlueZ client as a machine

`Dmn_BluezClient::Impl` step by step: a caller of `snapshot` (it has
`m_snapshot_mutex`), the callback worker of the D-Bus client in `onSignal`, and
the recovery worker. A section under one mutex is one step. What the D-Bus
client returns is open, and so is when it discards a signal.
-/

namespace Dmn.Bluez

open Dmn.Lib

inductive ErrorKind
  | codec
  | resourceLimit
  | notConnected
  | dbus
  deriving DecidableEq

/-- `Dmn_DbusError` -/
structure Error where
  kind : ErrorKind
  message : String
  deriving DecidableEq

def s_maxStagedSignals : Nat := 1024

def s_maxQueuedEvents : Nat := 4096

def droppedEvent : Event := .error "D-Bus signal queue dropped BlueZ events; resynchronizing inventory"

def stagingOverflow : Event := .error "BlueZ inventory staging queue overflow; resnapshot required"

def eventQueueOverflow : Event := .error "BlueZ event queue overflow; inventory resynchronization required"

def inventoryReady : Event := .serviceAvailable "BlueZ inventory is ready"

def reloadFailed (error : Error) : Event :=
  .error ("unable to reload BlueZ inventory after service restart: " ++ error.message)

def invalidSnapshot : Error := ⟨.codec, "BlueZ returned an invalid object snapshot"⟩

def droppedDuringSnapshot : Error :=
    ⟨.resourceLimit, "D-Bus signal queue overflow during BlueZ snapshot; retry"⟩

def stagingOverflowed : Error := ⟨.resourceLimit, "BlueZ inventory staging queue overflow; retry snapshot"⟩

def ownerChanged : Error := ⟨.notConnected, "BlueZ service owner changed during inventory snapshot"⟩

/-- Who has called `snapshot`. -/
inductive Caller
  | application
  | recovery
  deriving DecidableEq

/-- Where a call of `emit` is. -/
inductive EmitPc
  | queue (event : Event)
  | reset
  | request

inductive SnapshotPc
  | idle
  | loading
  | calls (droppedBefore : Nat)
  | drains (droppedBefore : Nat) (result : Except Error (List Value))
  | fails (error : Error)
  | locks (droppedBefore : Nat) (objects : Value)
  -- From here on it has `m_event_order_mutex`.
  | compares (droppedBefore : Nat) (objects : Value)
  | finishes (droppedBefore droppedAfter : Nat) (objects : Value)

inductive CallbackPc
  | idle
  | called (signal : Signal)
  | locks (signal : Signal) (droppedSignals : Nat)
  -- From here on it has `m_event_order_mutex`.
  | requests (events : List Event)
  | emits (pc : EmitPc) (events : List Event)

inductive RecoveryPc
  | waits
  -- It wants `m_snapshot_mutex`.
  | calls
  | snapshots
  | emits (pc : EmitPc)

def SnapshotPc.ordering : SnapshotPc → Bool
  | .compares .. | .finishes .. => true
  | _ => false

/-- Between its first section and the last one. -/
def SnapshotPc.running : SnapshotPc → Bool
  | .idle => false
  | _ => true

def CallbackPc.ordering : CallbackPc → Bool
  | .requests _ | .emits .. => true
  | _ => false

structure Client where
  inventory : Inventory := {}
  stagedSignals : List Signal := []
  loading : Bool := true
  stageOverflow : Bool := false
  lastDroppedSignalMessages : Nat := 0
  eventQueue : List Event := []
  -- `dropped_signal_messages` of the D-Bus client.
  dropped : Nat := 0
  snapshot : SnapshotPc := .idle
  caller : Caller := .application
  callback : CallbackPc := .idle
  recovery : RecoveryPc := .waits
  -- What was staged when the snapshot began, and what has arrived since.
  before : List Signal := []
  arrived : List Signal := []

namespace Client

inductive Action
  -- The application calls `snapshot`.
  | snapshot
  -- The next step of `snapshot`, with the result of a D-Bus call.
  | run (result : Except Error (List Value))
  -- The callback worker calls `onSignal`.
  | signal (signal : Signal)
  | callback
  | recovery
  -- The event worker takes an event.
  | event
  -- The D-Bus client discards a signal, and counts it.
  | drop
  | startDiscovery (adapter : String)
  -- The reply to `StartDiscovery`.
  | discoveryStarted (adapter : String) (started : Bool)
  | stopDiscovery

-- ---------------------------------------------------------------------------
-- Sections
-- ---------------------------------------------------------------------------

def clear (c : Client) : Client := { c with inventory := c.inventory.clear }

/-- The first section of `snapshot`. -/
def begin (c : Client) (caller : Caller) : Client :=
  { c with
    loading := true, stageOverflow := false, snapshot := .loading, caller, before := c.stagedSignals,
      arrived := [] }

/-- A failure of `snapshot`, and the last one forgets the overflow. -/
def failSnapshot (c : Client) : Client :=
  { c.clear with loading := false, stageOverflow := false, stagedSignals := [] }

/-- The last section of `snapshot`. -/
def finish (c : Client) (droppedBefore droppedAfter : Nat) (objects : Value) :
    Client × Except Error Inventory :=
  if droppedBefore < droppedAfter then (c.failSnapshot, .error droppedDuringSnapshot)
  else if c.stageOverflow then (c.failSnapshot, .error stagingOverflowed)
  else
    match reload objects c.stagedSignals c.inventory with
    | .error message inventory =>
      ({ c with inventory := inventory.clear, loading := false, stagedSignals := [] }, .error ⟨.codec, message⟩)
    | .ok ownerLost inventory =>
      if ownerLost then
        ({ c with inventory := inventory.clear, loading := false, stagedSignals := [] }, .error ownerChanged)
      else
        ({ c with inventory := { inventory with available := true }, loading := false, stagedSignals := [] },
          .ok { inventory with available := true })

/-- `snapshot` returns. -/
def returns (c : Client) (result : Except Error Inventory) : Client :=
  { c with
    snapshot := .idle
    recovery := match c.caller, result with
      | .application, _ => c.recovery
      | .recovery, .ok _ => .emits (.queue inventoryReady)
      | .recovery, .error error => .emits (.queue (reloadFailed error)) }

/-- The section of `onSignal`, and the events. -/
def process (c : Client) (signal : Signal) (droppedSignals : Nat) : Client × List Event :=
  if droppedSignals ≠ c.lastDroppedSignalMessages then
    let c := { c.clear with lastDroppedSignalMessages := droppedSignals }
    (if c.loading then { c with stagedSignals := [], stageOverflow := true } else c, [droppedEvent])
  else if c.loading then
    if s_maxStagedSignals ≤ c.stagedSignals.length then
      ({ c.clear with stagedSignals := [], stageOverflow := true }, [stagingOverflow])
    else ({ c with stagedSignals := c.stagedSignals ++ [signal] }, [])
  else
    let a := applySignal signal ⟨c.inventory, []⟩
    ({ c with inventory := a.inventory }, a.events)

def requestRecovery (c : Client) : Client :=
    { c with inventory := { c.inventory with recoveryRequested := true } }

/-- A step of `emit`, and where it goes. -/
def runEmit (c : Client) : EmitPc → Client × Option EmitPc
  | .queue event =>
    if s_maxQueuedEvents ≤ c.eventQueue.length then ({ c with eventQueue := [eventQueueOverflow] }, some .reset)
    else ({ c with eventQueue := c.eventQueue ++ [event] }, none)
  | .reset => ({ c.clear with loading := false, stagedSignals := [], stageOverflow := false }, some .request)
  | .request => (c.requestRecovery, none)

-- ---------------------------------------------------------------------------
-- Steps
-- ---------------------------------------------------------------------------

/-- The next step of `snapshot`. -/
def runSnapshot (c : Client) (result : Except Error (List Value)) : Option Client :=
  match c.snapshot with
  | .idle => none
  | .loading => some { c with snapshot := .calls c.dropped }
  | .calls droppedBefore => some { c with snapshot := .drains droppedBefore result }
  | .drains droppedBefore reply =>
    some { c with
      snapshot := match result, reply with
        | .error error, _ | .ok _, .error error => .fails error
        | .ok _, .ok (objects :: _) =>
          if objects.signature = "a{oa{sa{sv}}}" then .locks droppedBefore objects else .fails invalidSnapshot
        | .ok _, .ok [] => .fails invalidSnapshot }
  | .fails error => if c.callback.ordering then none else some (c.failSnapshot.returns (.error error))
  | .locks droppedBefore objects =>
    if c.callback.ordering then none else some { c with snapshot := .compares droppedBefore objects }
  | .compares droppedBefore objects => some { c with snapshot := .finishes droppedBefore c.dropped objects }
  | .finishes droppedBefore droppedAfter objects =>
    let (c, result) := c.finish droppedBefore droppedAfter objects
    some (c.returns result)

def emitNext (events : List Event) : CallbackPc :=
  match events with
  | [] => .idle
  | event :: events => .emits (.queue event) events

/-- The next step of `onSignal`. -/
def runCallback (c : Client) : Option Client :=
  match c.callback with
  | .idle => none
  | .called signal => some { c with callback := .locks signal c.dropped }
  | .locks signal droppedSignals =>
    if c.snapshot.ordering then none
    else
      let (d, events) := c.process signal droppedSignals
      some { d with
        arrived := if d.snapshot.running then d.arrived ++ [signal] else d.arrived
        callback := if droppedSignals ≠ c.lastDroppedSignalMessages then .requests events else emitNext events }
  | .requests events => some { c.requestRecovery with callback := emitNext events }
  | .emits pc events =>
    let (c, next) := c.runEmit pc
    some { c with
      callback := match next with
        | some pc => .emits pc events
        | none => emitNext events }

/-- The next step of the recovery worker. -/
def runRecovery (c : Client) : Option Client :=
  match c.recovery with
  | .waits =>
    if c.inventory.recoveryRequested then
      some { c with inventory := { c.inventory with recoveryRequested := false }, recovery := .calls }
    else none
  | .calls =>
    match c.snapshot with
    | .idle => some { c.begin .recovery with recovery := .snapshots }
    | _ => none
  | .snapshots => none
  | .emits pc =>
    let (c, next) := c.runEmit pc
    some { c with
      recovery := match next with
        | some pc => .emits pc
        | none => .waits }

def step (c : Client) : Action → Option Client
  | .snapshot =>
    match c.snapshot with
    | .idle => some (c.begin .application)
    | _ => none
  | .run result => c.runSnapshot result
  | .signal signal =>
    match c.callback with
    | .idle => some { c with callback := .called signal }
    | _ => none
  | .callback => c.runCallback
  | .recovery => c.runRecovery
  | .event =>
    match c.eventQueue with
    | [] => none
    | _ :: eventQueue => some { c with eventQueue }
  | .drop => some { c with dropped := c.dropped + 1 }
  | .startDiscovery adapter =>
    some { c with
      inventory := { c.inventory.unsee adapter with
        discoveryStarting := true
        discoveryAdapter := adapter } }
  | .discoveryStarted adapter started =>
    some { c with
      inventory :=
        if started then { c.inventory with discoveryActive := true, discoveryStarting := false }
        else { c.inventory.unsee adapter with discoveryStarting := false, discoveryAdapter := "" } }
  | .stopDiscovery =>
    some { c with
      inventory :=
        { c.inventory with discoveryActive := false, discoveryStarting := false, discoveryAdapter := "" } }

end Client
end Dmn.Bluez
