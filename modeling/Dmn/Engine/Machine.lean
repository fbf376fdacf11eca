import Dmn.Engine.Selection
import Dmn.Engine.Controller
import Dmn.Lib.Transition
import Mathlib

/-!
# The engine

`Dmn_Engine::Impl`: the control thread with its jobs, the workers that make
the blocking backend calls, and what the backend has done so far. What the
backend answers and when is open. Messages to the frontend are left out.
-/

namespace Dmn.Engine

inductive Phase
  | idle
  | starting
  | active
  | stopping
  deriving DecidableEq

structure Session where
  phase : Phase := .idle
  -- The flag of the latest start, if there was one.
  cancel : Option Bool := none
  disconnectAfterStop : Bool := false
  deriving DecidableEq

/-- `Dmn_BackendResult` -/
inductive Result
  | ok
  | error (cancelled : Bool)
  deriving DecidableEq

/-- What `handleScan` reads of `Dmn_BackendAdapter`. -/
structure Adapter where
  path : Bytes
  address : Bytes

/-- A command after its fields have been read. -/
inductive Command
  | hello
  | configure (saved monitoring : List Identity) (sort : Option (SortColumn × Bool))
  | refresh
  | scan (enabled : Bool) (adapter : Bytes)
  | select (device : Identity) (selected : Bool)
  | saveSelection
  | discardSelection
  | sort (column : SortColumn) (ascending : Bool)
  | connect (device : Identity)
  | disconnect (device : Identity)
  | monitor (device : Identity) (enabled : Bool)
  | monitorDirect (device : Identity)
  | stopDirect
  | shutdown
  | unknown

/-- What a call of the backend answers. -/
structure Reply where
  result : Result := .ok
  adapters : List Adapter := []
  devices : List DeviceEntry := []

/-- What is posted to the control thread. A monitor has the number of its start. -/
inductive Job
  | command (command : Command)
  | inventoryChanged
  | snapshotDone (reply : Reply)
  | scanDone (enabled : Bool) (result : Result)
  | connectDone
  | disconnectDone (device : Identity) (stopFirst : Bool)
  | startDone (device : Identity) (monitor : Nat) (result : Result)
  | stopDone (device : Identity)
  | monitorEvent (device : Identity) (monitor : Nat) (terminal : Bool)
  | directStartDone (result : Result)
  | directStopDone

/-- Where the worker of `runDisconnect` is. -/
inductive DisconnectPc
  | stops
  | stopping
  | disconnects
  | disconnecting
  deriving DecidableEq

/-- A worker, and its call. -/
inductive Worker
  | snapshot
  | scan (enabled : Bool) (path : Bytes)
  | connect (device : Identity)
  | cancelConnect (device : Identity)
  -- It has no number until `startMonitor` is called.
  | start (device : Identity) (direct : Bool) (monitor : Option Nat)
  | stop (device : Identity) (direct : Bool) (calling : Bool)
  | disconnect (device : Identity) (stopFirst : Bool) (pc : DisconnectPc)
  deriving DecidableEq

/-- A call of `startMonitor`. -/
structure Monitor where
  device : Identity
  direct : Bool

/-- What the backend has been asked for. -/
structure Backend where
  monitors : List Monitor := []
  -- These starts have returned with success.
  succeeded : List Nat := []
  -- Started with success, not stopped and not ended.
  live : List Nat := []
  -- These have sent a terminal event.
  ended : List Nat := []
  -- The devices of accepted disconnects that have not been called for since.
  owed : List Key := []

/-- Consecutive failures, and the last of them. -/
structure Failures where
  count : Nat
  time : Nat
  jitter : Nat
  deriving DecidableEq

/-- What `std::uniform_int_distribution` returns in `recordFailure`. -/
structure Jitter where
  percent : Nat
  minimum : kRetryJitterMinimumPercent ≤ percent := by decide
  maximum : percent ≤ kRetryJitterMaximumPercent := by decide

/-- Where the control thread is. -/
inductive ControlPc
  -- `m_in_cv.wait_for`
  | waits
  | runs
  -- `shutdown` waits for the workers.
  | joins
  | stops (devices : List Identity)
  -- `bye` has been sent.
  | closed
  deriving DecidableEq

/-- `Dmn_Engine::Impl` -/
structure Impl where
  inventoryEnabled : Bool := true
  selection : SelectionModel := {}
  controller : MonitorController := {}
  intents : List Identity := []
  sessions : Key → Session := fun _ => {}
  adapters : List Adapter := []
  pendingConnect : Option Identity := none
  pendingDisconnect : Option Identity := none
  direct : Option Identity := none
  directCancel : Bool := false
  directPhase : Phase := .idle
  scanning : Bool := false
  scanBusy : Bool := false
  inventoryBusy : Bool := false
  connectionBusy : Bool := false
  shutdownRequested : Bool := false
  shuttingDown : Bool := false
  inbox : List Job := []
  batch : List Job := []
  pc : ControlPc := .waits
  workers : List Worker := []
  backend : Backend := {}
  -- The failures of a device that have been recorded since its last reset.
  failures : Key → Option Failures := fun _ => none

namespace Backend

def keyOf (b : Backend) (monitor : Nat) : Option Key := b.monitors[monitor]?.map fun m => identityKey m.device

/-- `stopMonitor` has returned. -/
def stopped (b : Backend) (device : Identity) : Backend :=
  { b with live := b.live.filter fun monitor => b.keyOf monitor ≠ some (identityKey device) }

def terminated (b : Backend) (monitor : Nat) : Backend :=
  { b with live := b.live.filter (· ≠ monitor), ended := monitor :: b.ended }

/-- `startMonitor` has returned. -/
def started (b : Backend) (monitor : Nat) (result : Result) : Backend :=
  if result = .ok then
    { b with
      succeeded := monitor :: b.succeeded
      live := if monitor ∈ b.ended then b.live else monitor :: b.live }
  else b

/-- The next step of a worker, what it posts, and what the backend makes of it. -/
def advance (b : Backend) (worker : Worker) (reply : Reply) : List Worker × List Job × Backend :=
  match worker with
  | .snapshot => ([], [.snapshotDone reply], b)
  | .scan enabled _ => ([], [.scanDone enabled reply.result], b)
  | .connect _ => ([], [.connectDone], b)
  | .cancelConnect _ => ([], [], b)
  | .start device direct none =>
    ([.start device direct (some b.monitors.length)], [],
    { b with monitors := b.monitors ++ [⟨device, direct⟩] })
  | .start device direct (some monitor) =>
    ([], [if direct then .directStartDone reply.result else .startDone device monitor reply.result],
      b.started monitor reply.result)
  | .stop device direct false => ([.stop device direct true], [], b)
  | .stop device direct true => ([], [if direct then .directStopDone else .stopDone device], b.stopped device)
  | .disconnect device stopFirst .stops => ([.disconnect device stopFirst .stopping], [], b)
  | .disconnect device stopFirst .stopping =>
    ([.disconnect device stopFirst .disconnects], [], b.stopped device)
  | .disconnect device stopFirst .disconnects =>
    ([.disconnect device stopFirst .disconnecting], [],
    { b with owed := b.owed.filter (· ≠ identityKey device) })
  | .disconnect device stopFirst .disconnecting => ([], [.disconnectDone device stopFirst], b)

end Backend

namespace Impl

def sessionFor (e : Impl) (device : Identity) : Session := e.sessions (identityKey device)

def setSession (e : Impl) (device : Identity) (session : Session) : Impl :=
  { e with sessions := Function.update e.sessions (identityKey device) session }

def setPhase (e : Impl) (device : Identity) (phase : Phase) : Impl :=
  e.setSession device { e.sessionFor device with phase }

def spawn (e : Impl) (worker : Worker) : Impl := { e with workers := e.workers ++ [worker] }

def post (e : Impl) (jobs : List Job) : Impl := { e with inbox := e.inbox ++ jobs }

def findEntry (e : Impl) (device : Identity) : Option DeviceEntry :=
  e.selection.devices.find? fun entry => sameIdentity entry.identity device

/-- The failures of a device count no more. -/
def forget (e : Impl) (device : Identity) : Impl :=
  { e with failures := Function.update e.failures (identityKey device) none }

def resetRetries (e : Impl) (device : Identity) : Impl :=
  { e with controller := e.controller.resetRetries device }.forget device

def actionContext (e : Impl) (entry : DeviceEntry) : DeviceActionContext :=
  let session := e.sessionFor entry.identity
  { saved := contains e.selection.savedSelection entry.identity
    selectionDirty := e.selection.hasUnsavedChanges
    monitorRequested := contains e.intents entry.identity
    monitorStartPending := session.phase = .starting
    monitorCancelRequested := session.cancel.getD false
    connectionPending := e.pendingConnect.any fun device => sameIdentity device entry.identity
    closeRequested := e.shuttingDown }

def refreshInventory (e : Impl) : Impl :=
  if !e.inventoryEnabled || e.inventoryBusy || e.shuttingDown then e
  else { e with inventoryBusy := true }.spawn .snapshot

-- ---------------------------------------------------------------------------
-- Monitors
-- ---------------------------------------------------------------------------

def startMonitor (e : Impl) (device : Identity) : Impl :=
  (e.setSession device { e.sessionFor device with phase := .starting, cancel := some false }).spawn
    (.start device false none)

def stopMonitor (e : Impl) (device : Identity) : Impl := (e.setPhase device .stopping).spawn
    (.stop device false false)

/-- The state that `reconcile` tells the controller of a device. -/
def deviceState (e : Impl) (entry : DeviceEntry) : ControllerDeviceState :=
  let session := e.sessionFor entry.identity
  { identity := entry.identity
    saved := contains e.selection.savedSelection entry.identity
    monitoringRequested := contains e.intents entry.identity
    present := entry.present
    paired := entry.paired.getD false
    connected := entry.connected.getD false
    monitorActive := session.phase = .active
    monitorBusy := session.phase = .starting || session.phase = .stopping }

def deviceStates (e : Impl) : List ControllerDeviceState := e.selection.devices.map e.deviceState

def monitorCommands (e : Impl) (now : Nat) : MonitorController × List MonitorCommand :=
  e.controller.reconcile e.deviceStates (!e.shuttingDown) now

def execute (e : Impl) (command : MonitorCommand) : Impl :=
  match command.action with
  | .start => e.startMonitor command.identity
  | .stop => e.stopMonitor command.identity

/-- Something is missing for the monitor of a device. -/
def lapses (e : Impl) (key : Key) : Bool :=
  e.deviceStates.any fun device => MonitorController.lapsed device && identityKey device.identity == key

def reconcile (e : Impl) (now : Nat) : Impl :=
  let (controller, commands) := e.monitorCommands now
  commands.foldl execute
    { e with controller, failures := fun key => if e.lapses key then none else e.failures key }

def recordFailure (e : Impl) (device : Identity) (now : Nat) (jitter : Jitter) : Impl :=
  let count := ((e.failures (identityKey device)).map (·.count)).getD 0 + 1
  { e with
    controller := match e.controller.recordStartFailure device now jitter.percent with
      | some (controller, _) => controller
      | none => e.controller
    failures := Function.update e.failures (identityKey device) (some ⟨count, now, jitter.percent⟩) }

def runDisconnect (e : Impl) (device : Identity) (stopFirst : Bool) : Impl :=
  if e.connectionBusy then e
  else
    let e := { e with connectionBusy := true, pendingDisconnect := some device }
    let e := if stopFirst then e.setPhase device .stopping else e
    e.spawn (.disconnect device stopFirst (if stopFirst then .stops else .disconnects))

def resumeDisconnect (e : Impl) (device : Identity) : Impl :=
  let session := e.sessionFor device
  if !session.disconnectAfterStop || session.phase = .starting || session.phase = .stopping then e
  else
    (e.setSession device { session with disconnectAfterStop := false }).runDisconnect device
    (session.phase = .active)

def finishStart (e : Impl) (device : Identity) (result : Result) (now : Nat) (jitter : Jitter) : Impl :=
  let e := match result with
    | .ok =>
      let e := e.setPhase device .active
      { e with controller := e.controller.recordStartSuccess device }.forget device
    | .error cancelled =>
      let e := e.setPhase device .idle
      if !cancelled && contains e.intents device then e.recordFailure device now jitter else e
  e.resumeDisconnect device

def handleMonitorEvent (e : Impl) (device : Identity) (terminal : Bool) (now : Nat) (jitter : Jitter) : Impl :=
  if terminal && (e.sessionFor device).phase = .active then
    let e := e.setPhase device .idle
    if contains e.intents device then e.recordFailure device now jitter else e
  else e

-- ---------------------------------------------------------------------------
-- Commands
-- ---------------------------------------------------------------------------

/-- The intents that are honoured: those for a saved device. -/
def restoredIntents (saved monitoring : List Identity) : List Identity :=
  monitoring.foldl
    (fun intents identity => saved.foldl
      (fun intents device =>
        if sameIdentity device identity && !contains intents device then intents ++
          [device] else intents) intents) []

def handleConfigure (e : Impl) (saved monitoring : List Identity) (sort : Option (SortColumn × Bool)) : Impl :=
  let selection := e.selection.loadSavedSelection saved
  { e with
    intents := restoredIntents selection.savedSelection monitoring
    selection := match sort with
      | some (column, ascending) => selection.sortDevices column ascending
      | none => selection }

def handleScan (e : Impl) (enabled : Bool) (adapter : Bytes) : Impl :=
  if e.scanBusy || e.scanning == enabled then e
  else
    let selector := lower adapter
    let path := ((e.adapters.find? fun adapter => selector = [] || lower adapter.address == selector).map
      (·.path)).getD []
    if enabled && path.isEmpty then e
    else { e with scanBusy := true }.spawn (.scan enabled path)

def handleSelect (e : Impl) (requested : Identity) (selected : Bool) : Impl :=
  match e.findEntry requested with
  | none => e
  | some entry => { e with selection := (e.selection.setDraftSelected entry.identity selected).1 }

def handleSave (e : Impl) : Impl :=
  let selection := e.selection.saveSelection
  let keep (identity : Identity) : Bool := contains selection.savedSelection identity
  let e := (e.intents.filter fun identity => !keep identity).foldl resetRetries { e with selection }
  { e with intents := e.intents.filter keep }

def handleConnect (e : Impl) (requested : Identity) : Impl :=
  match e.findEntry requested with
  | none => e
  | some entry =>
    if e.connectionBusy then e
    else if (deviceActionAvailability entry (e.actionContext entry)).canConnect then
      { e with connectionBusy := true, pendingConnect := some entry.identity }.spawn (.connect entry.identity)
    else e

def acceptDisconnect (e : Impl) (device : Identity) : Impl :=
  let e := { e with
    intents := e.intents.filter fun item => !sameIdentity item device
    backend := { e.backend with owed := identityKey device :: e.backend.owed } }
  let e := e.resetRetries device
  let session := e.sessionFor device
  match session.phase with
  | .starting => e.setSession device { session with disconnectAfterStop := true, cancel := some true }
  | .stopping => e.setSession device { session with disconnectAfterStop := true }
  | .active => e.runDisconnect device true
  | .idle => e.runDisconnect device false

def handleDisconnect (e : Impl) (requested : Identity) : Impl :=
  match e.findEntry requested with
  | none => e
  | some entry =>
    if e.pendingConnect.any fun device => sameIdentity device entry.identity then e.spawn
      (.cancelConnect entry.identity)
    else if e.connectionBusy then e
    else if (deviceActionAvailability entry (e.actionContext entry)).canDisconnect then
      e.acceptDisconnect entry.identity
    else e

def handleMonitor (e : Impl) (requested : Identity) (enabled : Bool) : Impl :=
  match e.findEntry requested with
  | none => e
  | some entry =>
    let device := entry.identity
    if enabled then
      if contains e.intents device then e
      else if (deviceActionAvailability entry (e.actionContext entry)).canStartMonitoring then
        { e with intents := e.intents ++ [device] }.resetRetries device
      else e
    else
      let e := { e with intents := e.intents.filter fun item => !sameIdentity item device }.resetRetries device
      let session := e.sessionFor device
      if session.phase = .starting && session.cancel.isSome then e.setSession device
        { session with cancel := some true } else e

def handleDirectStart (e : Impl) (device : Identity) : Impl :=
  if e.direct.isSome || e.shuttingDown then e
  else { e with direct := some device, directPhase := .starting, directCancel := false }.spawn
    (.start device true none)

def finishDirectStart (e : Impl) (result : Result) : Impl :=
  match result with
  | .ok => { e with directPhase := .active }
  | .error _ => { e with direct := none, directPhase := .idle }

def handleDirectStop (e : Impl) : Impl :=
  match e.direct, e.directPhase with
  | none, _ => e
  | some _, .starting => { e with directCancel := true }
  | some device, .active => { e with directPhase := .stopping }.spawn (.stop device true false)
  | some _, _ => e

def handleCommand (e : Impl) : Command → Impl
  | .hello | .unknown => e
  | .configure saved monitoring sort => e.handleConfigure saved monitoring sort
  | .refresh => e.refreshInventory
  | .scan enabled adapter => e.handleScan enabled adapter
  | .select device selected => e.handleSelect device selected
  | .saveSelection => e.handleSave
  | .discardSelection => { e with selection := e.selection.discardChanges }
  | .sort column ascending => { e with selection := e.selection.sortDevices column ascending }
  | .connect device => e.handleConnect device
  | .disconnect device => e.handleDisconnect device
  | .monitor device enabled => e.handleMonitor device enabled
  | .monitorDirect device => e.handleDirectStart device
  | .stopDirect => e.handleDirectStop
  | .shutdown => { e with shutdownRequested := true }

-- ---------------------------------------------------------------------------
-- Steps
-- ---------------------------------------------------------------------------

def runJob (e : Impl) (now : Nat) (jitter : Jitter) : Job → Impl
  | .command command => e.handleCommand command
  | .inventoryChanged => e.refreshInventory
  | .snapshotDone reply =>
    match reply.result with
    | .ok =>
      { e with
        inventoryBusy := false
        adapters := reply.adapters
        selection := e.selection.replaceInventory reply.devices }
    | .error _ => { e with inventoryBusy := false }
  | .scanDone enabled result =>
    { e with
      scanBusy := false
      scanning := if result = Result.ok then enabled else e.scanning }.refreshInventory
  | .connectDone => { e with connectionBusy := false, pendingConnect := none }.refreshInventory
  | .disconnectDone device stopFirst =>
    let e := { e with connectionBusy := false, pendingDisconnect := none }
    (if stopFirst then e.setPhase device .idle else e).refreshInventory
  | .startDone device _ result => e.finishStart device result now jitter
  | .stopDone device => (e.setPhase device .idle).resumeDisconnect device
  | .monitorEvent device _ terminal => e.handleMonitorEvent device terminal now jitter
  | .directStartDone result => e.finishDirectStart result
  | .directStopDone => { e with direct := none, directPhase := .idle }

/-- `shutdown` up to where it waits. -/
def beginShutdown (e : Impl) : Impl :=
  { e with
    shuttingDown := true, directCancel := true, batch := [], pc := .joins
    sessions := fun key => { e.sessions key with cancel := (e.sessions key).cancel.map fun _ => true } }

/-- What `shutdown` stops. -/
def toStop (e : Impl) : List Identity :=
  (if e.directPhase = .active then e.direct.toList else []) ++
    (e.selection.devices.filter fun entry => (e.sessionFor entry.identity).phase ≠ .idle).map (·.identity)

/-- The next step of `run`. -/
def control (e : Impl) (now : Nat) (refresh : Bool) (jitter : Jitter) : Option Impl :=
  match e.pc with
  | .waits => some { e with batch := e.inbox, inbox := [], pc := .runs }
  | .runs =>
    if e.shutdownRequested then some e.beginShutdown
    else
      match e.batch with
      | job :: batch => some ({ e with batch }.runJob now jitter job)
      | [] =>
        let e := if refresh then e.refreshInventory else e
        some { e.reconcile now with pc := .waits }
  | .joins => if e.workers.isEmpty then some { e with pc := .stops e.toStop } else none
  | .stops (device :: devices) => some { e with backend := e.backend.stopped device, pc := .stops devices }
  | .stops [] => some { e with pc := .closed }
  | .closed => none

inductive Action
  | send (command : Command)
  | inventoryChanged
  -- A handler of a monitor is called, on any thread.
  | event (monitor : Nat) (terminal : Bool)
  | worker (index : Nat) (reply : Reply)
  | control (now : Nat) (refresh : Bool) (jitter : Jitter)

def runWorker (e : Impl) (index : Nat) (reply : Reply) : Option Impl :=
  match e.workers[index]? with
  | none => none
  | some worker =>
    let (next, jobs, backend) := e.backend.advance worker reply
    some { e with
      workers := e.workers.take index ++ next ++ e.workers.drop (index + 1), inbox := e.inbox ++ jobs, backend }

def step (e : Impl) : Action → Option Impl
  | .send command => if e.pc = .closed then none else some (e.post [.command command])
  | .inventoryChanged => some (e.post [.inventoryChanged])
  | .event monitor terminal =>
    match e.backend.monitors[monitor]? with
    | none => none
    | some m =>
      some ({ e with backend := if terminal then e.backend.terminated monitor else e.backend }.post
        [.monitorEvent m.device monitor terminal])
  | .worker index reply => e.runWorker index reply
  | .control now refresh jitter => e.control now refresh jitter

/-- When `run` begins. -/
def new (inventoryEnabled : Bool) : Impl := refreshInventory { inventoryEnabled }

/-- The jobs that are to be run, in order. -/
def queue (e : Impl) : List Job := e.batch ++ e.inbox

/-- No worker runs, and nothing has been posted. -/
structure Quiescent (e : Impl) : Prop where
  workers : e.workers = []
  queue : e.queue = []

end Impl
end Dmn.Engine
