import Dmn.Ancs.DataSource
import Dmn.Lib.Transition

/-!
# The notification client

`Dmn_AncsClient` step by step: one call of `start` or `stop` at a time (they
hold `m_api_mutex`), the event worker, the Control Point writer and the GATT
callbacks. A section under `m_mutex` is one step, and so is a call into the
GATT client. What a GATT call returns is open; an error is given as
`mapGattError` maps it. The handler is installed and does not throw.
-/

namespace Dmn.Ancs.Client

open Dmn.Lib

-- ---------------------------------------------------------------------------
-- Values
-- ---------------------------------------------------------------------------

/-- `Dmn_AncsState` -/
inductive SessionState
  | stopped
  | starting
  | resolvingServices
  | discoveringANCS
  | subscribingDataSource
  | subscribingNotificationSource
  | ready
  | stopping
  | failed
  deriving DecidableEq

inductive NotificationKind
  | added
  | attributesUnavailable
  | removed
  | updated
  deriving DecidableEq

structure Notification where
  kind : NotificationKind := .added
  uid : UInt32
  category : UInt8
  categoryCount : UInt8
  flags : UInt8
  attributes : AttributeSet := {}
  deriving DecidableEq

/-- Durations are in milliseconds. -/
structure Config where
  serviceResolutionTimeout : Int := 30000
  gattOperationTimeout : Int := 10000
  attributeResponseTimeout : Int := 10000
  -- As `localDateString` writes it.
  notificationDateCutoff : Option (List UInt8) := none
  maximumPendingNotifications : Nat := 255

/-- `Dmn_AncsEvent` -/
inductive Event
  | attributesUnavailable (notification : Option Notification) (error : Error)
  | error (error : Error)
  | notificationAdded (notification : Notification)
  | notificationRemoved (notification : Notification)
  | notificationUpdated (notification : Notification)
  | stateChanged (state : SessionState)
  deriving DecidableEq

inductive GattEvent
  | error (message : String)
  | invalidated (message : String)
  | valueChanged (value : List UInt8)
  deriving DecidableEq

structure Characteristic where
  id : String
  uuid : String
  flags : List String

structure Service where
  uuid : String
  characteristics : List Characteristic

def kMaximumConfigTimeout : Int := 600000

def kAncsServiceUuid : String := "7905F431-B5CE-4E99-A40F-4B1E122D00D0"

def kNotificationSourceUuid : String := "9FBF120D-6301-42D9-8C58-25E699A21DBD"

def kControlPointUuid : String := "69D1D8F3-45E1-49A8-9821-9BBDFDAAD9D9"

def kDataSourceUuid : String := "22EAC6E9-24D6-4BB5-BE44-B36ACE7C7BFB"

def validConfig (config : Config) : Bool :=
  let validTimeout (timeout : Int) : Bool := 0 < timeout && timeout ≤ kMaximumConfigTimeout
  validTimeout config.serviceResolutionTimeout && validTimeout config.gattOperationTimeout &&
    validTimeout config.attributeResponseTimeout

-- ---------------------------------------------------------------------------
-- Errors
-- ---------------------------------------------------------------------------

def valueSize : Error := ⟨.protocol, "ANCS Notification Source value must be exactly eight bytes", true⟩

def eventIdentifier : Error := ⟨.unsupported, "unsupported ANCS event identifier", false⟩

def eventWorker : Error := ⟨.backend, "could not start the ANCS event worker", true⟩

def controlPointWorker : Error := ⟨.backend, "could not start the ANCS Control Point worker", true⟩

def startupCancelled : Error := ⟨.notReady, "ANCS session startup was cancelled", true⟩

def serviceNotFound : Error :=
  ⟨.unsupported, "ANCS service was not found in the resolved GATT services", true⟩

def characteristicMissing : Error :=
  ⟨.unsupported, "ANCS service is missing one or more required characteristics", true⟩

def operationMissing : Error :=
  ⟨.unsupported, "ANCS characteristics do not advertise required operations", true⟩

def sessionInvalidated (message : String) : Error :=
  ⟨.notReady, if message.isEmpty then "ANCS GATT session was invalidated" else message, true⟩

def notificationFailed (message : String) : Error :=
  ⟨.backend, if message.isEmpty then "ANCS GATT notification failed" else message, true⟩

def backlogLimit : Error :=
  ⟨.resourceLimit,
    "ANCS reached the configured pending-notification limit; oldest pending notification requests are being discarded", false⟩

def responseTimeout : Error :=
  ⟨.timeout, "ANCS attribute response deadline expired; session correlation is unsafe", true⟩

/-- The error of a failure whose cleanup fails too. -/
def cleanupFailed (error cleanup : Error) : Error :=
  { error with
    kind := .cleanup
    message := error.message ++ "; subscription cleanup failed: " ++ cleanup.message }

-- ---------------------------------------------------------------------------
-- Functions without a state
-- ---------------------------------------------------------------------------

def parseAncsNotificationSource : List UInt8 → Except Error Notification
  | [event, flags, category, categoryCount, b0, b1, b2, b3] =>
    let uid := UInt32.ofNat (readUint32LittleEndian b0 b1 b2 b3)
    if event = 0 then .ok { kind := .added, uid, category, categoryCount, flags }
    else if event = 1 then .ok { kind := .updated, uid, category, categoryCount, flags }
    else if event = 2 then .ok { kind := .removed, uid, category, categoryCount, flags }
    else .error eventIdentifier
  | _ => .error valueSize

/-- The digits of a date from `offset` on. -/
def numberAt (date : List UInt8) (offset length : Nat) : Nat :=
  ((date.drop offset).take length).foldl (fun number digit => number * 10 + (digit.toNat - 48)) 0

/-- `year_month_day::ok()` -/
def calendarDateOk (year month day : Nat) : Bool :=
  let leap := year % 4 = 0 && (year % 100 ≠ 0 || year % 400 = 0)
  let last := if month = 2 then (if leap then 29 else 28) else if month ∈ [4, 6, 9, 11] then 30 else 31
  1 ≤ month && month ≤ 12 && 1 ≤ day && day ≤ last

def isValidAncsDate (date : List UInt8) : Bool :=
  date.length = 15 && date[8]? = some 84 &&
    (date.eraseIdx 8).all (fun digit => 48 ≤ digit && digit ≤ 57) &&
    calendarDateOk (numberAt date 0 4) (numberAt date 4 2) (numberAt date 6 2) &&
    numberAt date 9 2 < 24 && numberAt date 11 2 < 60 && numberAt date 13 2 < 60

def isBeforeCutoff (date : Option (List UInt8)) (cutoff : List UInt8) : Bool :=
  cutoff.isEmpty ||
    match date with
    | none => true
    | some date => !isValidAncsDate date || decide (date < cutoff)

def makeAttributeRequest (uid : UInt32) : List UInt8 :=
  let bytes (n : Nat) (shifts : List Nat) : List UInt8 := shifts.map fun shift => UInt8.ofNat (n >>> shift)
  0 :: bytes uid.toNat [0, 8, 16, 24] ++
    (List.range kRequestedAttributeIds.length).flatMap fun index =>
      (kRequestedAttributeIds[index]?).toList ++
        if 1 ≤ index ∧ index ≤ 3 then bytes (kMaximumAttributeSizes[index]?.getD 0) [0, 8] else []

/-- The loops over the services: the last characteristic of each kind. -/
def requiredCharacteristic (services : List Service) (uuid : String) : Option Characteristic :=
  ((services.filter (·.uuid = kAncsServiceUuid)).flatMap (·.characteristics)).reverse.find? (·.uuid = uuid)

/-- What `start` makes of the services: the identifier of the Control Point. -/
def controlPointOf (services : List Service) : Except Error String :=
  if services.all (·.uuid ≠ kAncsServiceUuid) then .error serviceNotFound
  else
    match requiredCharacteristic services kNotificationSourceUuid,
      requiredCharacteristic services kControlPointUuid,
      requiredCharacteristic services kDataSourceUuid with
    | some notificationSource, some controlPoint, some dataSource =>
      if "notify" ∈ notificationSource.flags ∧ "notify" ∈ dataSource.flags ∧ "write" ∈ controlPoint.flags then
        .ok controlPoint.id
      else .error operationMissing
    | _, _, _ => .error characteristicMissing

-- ---------------------------------------------------------------------------
-- Members
-- ---------------------------------------------------------------------------

structure NotificationRecord where
  notification : Notification
  addedNotReported : Bool := true
  unavailable : Bool := false
  ignoredBeforeStart : Bool := false

structure GattPacket where
  dataSource : Bool
  event : GattEvent

structure ControlPointJob where
  uid : UInt32
  deviceId : String
  characteristicId : String
  value : List UInt8
  timeout : Int
  -- Not in the source: the request it is for.
  number : Nat

structure ControlPointResult where
  uid : UInt32
  error : Option Error
  number : Nat

structure ActiveRequest where
  notification : Notification
  reassembler : Reassembler
  -- `none` is `time_point::max()`.
  deadline : Option Nat := none
  writePending : Bool := true
  removed : Bool := false
  number : Nat

/-- What happens in a session. -/
inductive Entry
  -- A Notification Source event has been processed.
  | event (notification : Notification)
  -- A request for the attributes has become the active one.
  | started (uid : UInt32)
  -- An event has been queued for the application.
  | emitted (event : Event)
  -- A pending request has been discarded.
  | dropped (uid : UInt32)
  | unavailable (uid : UInt32)
  -- The session data have been cleared, by a failure or by `stop`.
  | cleared
  deriving DecidableEq

-- ---------------------------------------------------------------------------
-- Threads
-- ---------------------------------------------------------------------------

/-- What the worker has taken from its queues. -/
inductive Item
  | event (event : Event)
  | packet (packet : GattPacket)
  | result (result : ControlPointResult)
  | nothing

/-- What comes after an event has been queued. -/
inductive After
  | next
  | complete
  | fail (error : Error)

/-- Where the event worker is. -/
inductive WorkerPc
  | off
  | waits
  | picked (item : Item)
  -- From here on it has `m_worker_work_mutex`.
  | works (item : Item)
  | notification (notification : Notification)
  | dataSource (value : List UInt8)
  -- The response is complete.
  | record (uid : UInt32) (attributes : AttributeSet)
  | unavailable (uid : UInt32) (error : Error) (after : After)
  | enqueue (event : Event) (after : After)
  | complete
  | timedOut
  | fail (error : Error)
  | cleanup (error : Error)
  | report (error : Error)
  | next
  | queues (job : ControlPointJob)

def After.pc : After → WorkerPc
  | .next => .next
  | .complete => .complete
  | .fail error => .fail error

/-- `m_worker_work_mutex` is held by the worker. -/
def WorkerPc.working : WorkerPc → Bool
  | .off | .waits | .picked _ => false
  | _ => true

/-- Where the Control Point writer is. -/
inductive WriterPc
  | off
  | waits
  | has (job : ControlPointJob)
  | writes (job : ControlPointJob)
  | publishes (result : ControlPointResult)

/-- Where the call of `start` or `stop` is that has `m_api_mutex`. -/
inductive ApiPc
  | idle
  -- `start`
  | execWorker
  | execControlPointWorker
  | starting
  | resolvingServices
  | waitForServicesResolved
  | resolved
  | discoveringANCS
  | discover
  | controlPoint (id : String)
  | subscribingDataSource
  | startNotifyData
  | dataSubscription
  | dataSubscribed
  | subscribingNotificationSource
  | startNotifyNotification
  | notificationSubscription
  | notificationSubscribed
  | ready
  -- `failStartup`
  | failStartup (error : Error)
  | failCleanup (error : Error)
  | failed
  -- `stop`
  | stop
  | clear
  | lockWork
  | clearAgain
  | stopping
  | stopSubscriptions
  | stopped
  | shutdown
  | waitWorker
  | waitControlPointWorker
  | cleanupError (error : Error)
  | stopFailed
  deriving DecidableEq

/-- `stop` has `m_worker_work_mutex`. -/
def ApiPc.working : ApiPc → Bool
  | .clearAgain | .stopping | .stopSubscriptions | .stopped | .shutdown | .cleanupError _ | .stopFailed => true
  | _ => false

/-- `stop` has `m_operation_mutex`. -/
def ApiPc.operating : ApiPc → Bool
  | .cleanupError _ | .stopFailed => true
  | _ => false

end Dmn.Ancs.Client

namespace Dmn.Ancs

open Client

/-- `Dmn_AncsClient::Impl` -/
structure Client where
  state : SessionState := .stopped
  config : Config := {}
  deviceId : String := ""
  controlPointId : String := ""
  notificationDateCutoff : List UInt8 := []
  eventQueue : List Event := []
  gattQueue : List GattPacket := []
  controlPointJobs : List ControlPointJob := []
  controlPointResults : List ControlPointResult := []
  records : UInt32 → Option NotificationRecord := fun _ => none
  pendingRequests : List UInt32 := []
  queuedUids : UInt32 → Bool := fun _ => false
  activeRequest : Option ActiveRequest := none
  dataSourceSubscription : Bool := false
  notificationSourceSubscription : Bool := false
  ready : Bool := false
  acceptGattEvents : Bool := false
  shutdown : Bool := false
  controlPointShutdown : Bool := false
  workerStarted : Bool := false
  controlPointWorkerStarted : Bool := false
  backlogLimitReported : Bool := false
  cancelRequested : Bool := false
  -- `steady_clock::now()`
  now : Nat := 0
  api : ApiPc := .idle
  -- The calls of `stop` that wait for `m_api_mutex`.
  stops : Nat := 0
  worker : WorkerPc := .off
  writer : WriterPc := .off
  -- How many requests have become active.
  requests : Nat := 0
  -- Since the last `start`, from the last one.
  log : List Entry := []

namespace Client

/-- What a GATT call returns. `other` is about the second subscription of a cleanup. -/
structure Outcome where
  error : Option Error := none
  other : Option Error := none
  services : List Service := []

inductive Action
  | start (deviceId : String) (config : Config)
  -- `stop` is called, and sets `m_cancel_requested`.
  | callStop
  | stop
  -- The next step of the call that has `m_api_mutex`.
  | api (outcome : Outcome)
  | worker (outcome : Outcome)
  | writer (outcome : Outcome)
  | gattEvent (dataSource : Bool) (event : GattEvent)
  | tick

-- ---------------------------------------------------------------------------
-- Sections
-- ---------------------------------------------------------------------------

def note (c : Client) (entry : Entry) : Client := { c with log := entry :: c.log }

def enqueueEvent (c : Client) (event : Event) : Client :=
  { c with eventQueue := c.eventQueue ++ [event], log := .emitted event :: c.log }

def setState (c : Client) (state : SessionState) : Client := { c with state }.enqueueEvent (.stateChanged state)

def clearSessionData (c : Client) : Client :=
  { c with
    gattQueue := [], controlPointJobs := [], controlPointResults := [], records := fun _ => none,
      pendingRequests := [],
    queuedUids := fun _ => false, activeRequest := none, controlPointId := "", deviceId := "",
    log := .cleared :: c.log }

/-- The section of `stop` and of the failures. -/
def close (c : Client) : Client := { c with ready := false, acceptGattEvents := false }.clearSessionData

/-- An error is about a subscription that is held, and the first one is returned. -/
def stopSubscriptions (c : Client) (outcome : Outcome) : Client × Option Error :=
  let notification := if c.notificationSourceSubscription then outcome.error else none
  let dataSource := if c.dataSourceSubscription then outcome.other else none
  ({ c with
    notificationSourceSubscription := notification.isSome, dataSourceSubscription := dataSource.isSome },
    notification.or dataSource)

def setRecord (c : Client) (uid : UInt32) (record : Option NotificationRecord) : Client :=
  { c with records := Function.update c.records uid record }

/-- The section about a Removed event, and whether it is reported. -/
def removeNotification (c : Client) (notification : Notification) : Client × Bool :=
  let ignoredBeforeStart := c.config.notificationDateCutoff.isSome &&
    match c.records notification.uid with
    | none => true
    | some record => record.ignoredBeforeStart || record.addedNotReported
  let c := { c.setRecord notification.uid none with
    pendingRequests := c.pendingRequests.filter (· ≠ notification.uid)
    queuedUids := Function.update c.queuedUids notification.uid false
    activeRequest := c.activeRequest.map fun (active : ActiveRequest) =>
      if active.notification.uid = notification.uid then { active with removed := true } else active }
  (c.note (.event notification), !ignoredBeforeStart)

/-- The record of a uid after an Added or Updated event. -/
def recordOf (c : Client) (notification : Notification) : NotificationRecord :=
  match c.records notification.uid with
  | none => { notification }
  | some record =>
    { record with notification := { notification with attributes := record.notification.attributes } }

/-- At the limit the oldest pending request is discarded; whether that is reported. -/
def dropPending (c : Client) : Client × Bool :=
  let maximum := c.config.maximumPendingNotifications
  if maximum ≠ 0 ∧ maximum ≤ c.pendingRequests.length then
    match c.pendingRequests with
    | [] => (c, false)
    | droppedUid :: pendingRequests =>
      ({ c.setRecord droppedUid none with
        pendingRequests, queuedUids := Function.update c.queuedUids droppedUid false
        backlogLimitReported := true }.note (.dropped droppedUid), !c.backlogLimitReported)
  else ({ c with backlogLimitReported := false }, false)

def pushPending (c : Client) (uid : UInt32) : Client :=
  { c with
    pendingRequests := c.pendingRequests ++ [uid], queuedUids := Function.update c.queuedUids uid true }

/-- A request for the uid is active. -/
def requesting (c : Client) (uid : UInt32) : Bool :=
  match c.activeRequest with
  | none => false
  | some active => active.notification.uid = uid

/-- The section about an Added or Updated event, and whether the backlog limit is reported. -/
def addNotification (c : Client) (notification : Notification) : Client × Bool :=
  let record := c.recordOf notification
  let c := (c.setRecord notification.uid (some record)).note (.event notification)
  if !record.unavailable && !c.queuedUids notification.uid && !c.requesting notification.uid then
    let (c, reported) := c.dropPending
    (c.pushPending notification.uid, reported)
  else (c, false)

/-- The section that takes the attributes over, and the event about it. -/
def recordAttributes (c : Client) (uid : UInt32) (attributes : AttributeSet) : Client × Option Event :=
  match c.records uid with
  | none => (c, none)
  | some record =>
    let notification := { record.notification with attributes }
    let ignoredBeforeStart :=
      c.config.notificationDateCutoff.isSome && isBeforeCutoff attributes.date c.notificationDateCutoff
    let event :=
      if record.addedNotReported then .notificationAdded notification else .notificationUpdated notification
    (c.setRecord uid (some { record with notification, ignoredBeforeStart, addedNotReported := false }),
      if ignoredBeforeStart then none else some event)

/-- The section of `emitAttributesUnavailable`, and the event about it. -/
def markUnavailable (c : Client) (uid : UInt32) (error : Error) : Client × Event :=
  match c.records uid with
  | some record =>
    ((c.setRecord uid (some { record with unavailable := true })).note (.unavailable uid),
      .attributesUnavailable (some record.notification) error)
  | none =>
    (c.note (.unavailable uid),
      .attributesUnavailable (if c.requesting uid then c.activeRequest.map (·.notification) else none) error)

def requestTimedOut (c : Client) : Bool :=
  match c.activeRequest with
  | none => false
  | some active => !active.writePending && active.deadline.any (· ≤ c.now)

/-- The section of `failTimedOutRequest`: the uid that is given up. -/
def failTimedOutRequest (c : Client) : Client × Option UInt32 :=
  match c.activeRequest with
  | none => (c, none)
  | some active =>
    if active.deadline.any (· ≤ c.now) then
      let uid := active.notification.uid
      let record := (c.records uid).map fun (record : NotificationRecord) => { record with unavailable := true }
      ({ c.setRecord uid record with activeRequest := none }.note (.unavailable uid), some uid)
    else (c, none)

def acknowledgeControlPointWrite (c : Client) (uid : UInt32) : Client :=
  match c.activeRequest with
  | none => c
  | some active =>
    if active.notification.uid = uid then
      { c with activeRequest := some { active with
          writePending := false, deadline := some (c.now + c.config.attributeResponseTimeout.toNat) } }
    else c

/-- The first section of `startNextRequest`, and the job that is then queued. -/
def startNextRequest (c : Client) : Client × Option ControlPointJob :=
  match c.ready, c.activeRequest, c.pendingRequests with
  | true, none, uid :: pendingRequests =>
    let c := { c with pendingRequests, queuedUids := Function.update c.queuedUids uid false }
    match c.records uid with
    | none => (c, none)
    | some record =>
      if record.unavailable then (c, none)
      else
        let active : ActiveRequest :=
          { notification := record.notification,
            reassembler := .fresh record.notification.uid,
            number := c.requests }
        ({ c with activeRequest := some active, requests := c.requests + 1 }.note (.started uid),
          some {
            uid := record.notification.uid, deviceId := c.deviceId, characteristicId := c.controlPointId
            value := makeAttributeRequest record.notification.uid, timeout := c.config.gattOperationTimeout
            number := c.requests })
  | _, _, _ => (c, none)

-- ---------------------------------------------------------------------------
-- Steps
-- ---------------------------------------------------------------------------

/-- `start` up to its first section. -/
def start (c : Client) (deviceId : String) (config : Config) : Client :=
  if !validConfig config || deviceId.isEmpty then c
  else if c.state ≠ .stopped then c
  else
    { c with
      cancelRequested := false, acceptGattEvents := true, ready := false, shutdown := false
      controlPointShutdown := false, deviceId, config
      notificationDateCutoff := config.notificationDateCutoff.getD [], api := .execWorker, log := [] }

/-- A call into the GATT client that fails the startup or goes on. -/
def goOn (c : Client) (outcome : Outcome) (pc : ApiPc) : Client :=
  { c with
    api := match outcome.error with
      | some error => .failStartup error
      | none => pc }

def checkCancelled (c : Client) (pc : ApiPc) : Client :=
  { c with api := if c.cancelRequested then .failStartup startupCancelled else pc }

/-- The next step of `start` or `stop`. -/
def runApi (c : Client) (outcome : Outcome) : Option Client :=
  match c.api with
  | .idle => none
  | .execWorker =>
    some <| if c.workerStarted then { c with api := .execControlPointWorker }
      else
        match outcome.error with
        | some _ => { c with api := .failStartup eventWorker }
        | none => { c with workerStarted := true, worker := .waits, api := .execControlPointWorker }
  | .execControlPointWorker =>
    some <| if c.controlPointWorkerStarted then { c with api := .starting }
      else
        match outcome.error with
        | some _ => { c with api := .failStartup controlPointWorker }
        | none => { c with controlPointWorkerStarted := true, writer := .waits, api := .starting }
  | .starting => some { c.setState .starting with api := .resolvingServices }
  | .resolvingServices => some { c.setState .resolvingServices with api := .waitForServicesResolved }
  | .waitForServicesResolved => some (c.goOn outcome .resolved)
  | .resolved => some (c.checkCancelled .discoveringANCS)
  | .discoveringANCS => some { c.setState .discoveringANCS with api := .discover }
  | .discover =>
    -- The backend gives a characteristic an identifier that is not empty.
    if outcome.services.any fun service => service.characteristics.any fun characteristic =>
      characteristic.id.isEmpty then
      none
    else
      some <| match outcome.error, controlPointOf outcome.services with
        | some error, _ | none, .error error => { c with api := .failStartup error }
        | none, .ok id => { c with api := .controlPoint id }
  | .controlPoint id => some { c with controlPointId := id, api := .subscribingDataSource }
  | .subscribingDataSource => some { c.setState .subscribingDataSource with api := .startNotifyData }
  | .startNotifyData => some (c.goOn outcome .dataSubscription)
  | .dataSubscription => some { c with dataSourceSubscription := true, api := .dataSubscribed }
  | .dataSubscribed => some (c.checkCancelled .subscribingNotificationSource)
  | .subscribingNotificationSource =>
    some { c.setState .subscribingNotificationSource with api := .startNotifyNotification }
  | .startNotifyNotification => some (c.goOn outcome .notificationSubscription)
  | .notificationSubscription =>
    some { c with notificationSourceSubscription := true, api := .notificationSubscribed }
  | .notificationSubscribed => some (c.checkCancelled .ready)
  | .ready => some { { c with ready := true }.setState .ready with api := .idle }
  | .failStartup error => some { c.close.enqueueEvent (.error error) with api := .failCleanup error }
  | .failCleanup _ => some { (c.stopSubscriptions outcome).1 with api := .failed }
  | .failed => some { c.setState .failed with api := .idle }
  | .stop =>
    some <| if c.state = .stopped ∧ ¬c.dataSourceSubscription ∧ ¬c.notificationSourceSubscription then
        { c with api := .idle }
      else { c with api := .clear }
  | .clear => some { c.close with api := .lockWork }
  | .lockWork => if c.worker.working then none else some { c with api := .clearAgain }
  | .clearAgain => some { c.clearSessionData with api := .stopping }
  | .stopping => some { c.setState .stopping with api := .stopSubscriptions }
  | .stopSubscriptions =>
    match c.writer with
    | .writes _ => none
    | _ =>
      let (c, error) := c.stopSubscriptions outcome
      some { c with
        api := match error with
          | some error => .cleanupError { error with kind := .cleanup }
          | none => .stopped }
  | .stopped => some { c.setState .stopped with api := .shutdown }
  | .shutdown =>
    some { c with shutdown := true, controlPointShutdown := true, controlPointJobs := [], api := .waitWorker }
  | .waitWorker =>
    if c.workerStarted then
      match c.worker with
      | .off => some { c with workerStarted := false, api := .waitControlPointWorker }
      | _ => none
    else some { c with api := .waitControlPointWorker }
  | .waitControlPointWorker =>
    if c.controlPointWorkerStarted then
      match c.writer with
      | .off => some { c with controlPointWorkerStarted := false, api := .idle }
      | _ => none
    else some { c with api := .idle }
  | .cleanupError error => some { c.enqueueEvent (.error error) with api := .stopFailed }
  | .stopFailed => some { c.setState .failed with api := .idle }

/-- Waiting is over: what is taken, if the worker goes on. -/
def take (c : Client) : Option Client :=
  if c.shutdown && c.eventQueue.isEmpty then some { c with worker := .off }
  else
    match c.eventQueue, c.ready, c.gattQueue, c.controlPointResults with
    | event :: eventQueue, _, _, _ => some { c with eventQueue, worker := .picked (.event event) }
    | [], true, packet :: gattQueue, _ => some { c with gattQueue, worker := .picked (.packet packet) }
    | [], true, [], result :: controlPointResults | [], false, _, result :: controlPointResults =>
      some { c with controlPointResults, worker := .picked (.result result) }
    | [], true, [], [] | [], false, _, [] =>
      -- The deadline has passed, perhaps that of a request which has been cleared since.
      if c.activeRequest.all (·.deadline.any (· ≤ c.now)) then some { c with worker := .picked .nothing }
        else none

/-- `processGattPacket` up to the value. -/
def processGattPacket (c : Client) (packet : GattPacket) : WorkerPc :=
  if !c.ready then .next
  else
    match packet.event with
    | .invalidated message => .fail (sessionInvalidated message)
    | .error message => .fail (notificationFailed message)
    | .valueChanged value =>
      if packet.dataSource then .dataSource value
      else
        match parseAncsNotificationSource value with
        | .error error =>
          if error.kind = .unsupported ∧ !error.fatal then .enqueue (.error error) .next else .fail error
        | .ok notification => .notification notification

/-- `processDataSourceValue` up to the attributes. -/
def processDataSourceValue (c : Client) (value : List UInt8) : Client :=
  match c.activeRequest with
  | none => { c with worker := .next }
  | some active =>
    let uid := active.notification.uid
    let (parsed, reassembler) := active.reassembler.consume value
    { c with
      activeRequest := some { active with reassembler }
      worker := match parsed with
        | .error error => if error.fatal then .fail error else .unavailable uid error .complete
        | .ok none => .next
        | .ok (some attributes) => if active.removed then .complete else .record uid attributes }

/-- The next step of the event worker. -/
def runWorker (c : Client) (outcome : Outcome) : Option Client :=
  match c.worker with
  | .off => none
  | .waits => c.take
  | .picked item => if c.api.working then none else some { c with worker := .works item }
  | .works (.event _) => some { c with worker := .next }
  | .works (.packet packet) => some { c with worker := c.processGattPacket packet }
  | .works (.result result) =>
    some <| match result.error with
      | some error => { c with worker := .fail error }
      | none => { c.acknowledgeControlPointWrite result.uid with worker := .next }
  | .works .nothing => some { c with worker := if c.requestTimedOut then .timedOut else .next }
  | .notification notification =>
    some <| if notification.kind = .removed then
        let (c, reported) := c.removeNotification notification
        { c with worker := if reported then .enqueue (.notificationRemoved notification) .next else .next }
      else
        let (c, reported) := c.addNotification notification
        { c with worker := if reported then .enqueue (.error backlogLimit) .next else .next }
  | .dataSource value => some (c.processDataSourceValue value)
  | .record uid attributes =>
    let (c, event) := c.recordAttributes uid attributes
    some { c with
      worker := match event with
        | some event => .enqueue event .complete
        | none => .complete }
  | .unavailable uid error after =>
    let (c, event) := c.markUnavailable uid error
    some { c with worker := .enqueue event after }
  | .enqueue event after => some { c.enqueueEvent event with worker := after.pc }
  | .complete => some { c with activeRequest := none, worker := .next }
  | .timedOut =>
    let (c, uid) := c.failTimedOutRequest
    some { c with
      worker := match uid with
        | some uid => .unavailable uid responseTimeout (.fail responseTimeout)
        | none => .next }
  | .fail error =>
    some <| if c.state = .failed ∨ c.state = .stopped then { c with worker := .next }
      else { c.close with state := .failed, worker := .cleanup error }
  | .cleanup error =>
    match c.writer with
    | .writes _ => none
    | _ =>
      if c.api.operating then none
      else
        let (c, cleanup) := c.stopSubscriptions outcome
        some { c with
          worker := .report (match cleanup with
            | some cleanup => cleanupFailed error cleanup
            | none => error) }
  | .report error =>
    some { (c.enqueueEvent (.error error)).enqueueEvent (.stateChanged .failed) with worker := .next }
  | .next =>
    let (c, job) := c.startNextRequest
    some { c with
      worker := match job with
        | some job => .queues job
        | none => .waits }
  | .queues job =>
    some <| if !c.ready || c.controlPointShutdown then { c with worker := .waits }
      else { c with controlPointJobs := c.controlPointJobs ++ [job], worker := .waits }

def WorkerPc.operating : WorkerPc → Bool
  | .report _ => true
  | _ => false

/-- The next step of the Control Point writer. -/
def runControlPointWrites (c : Client) (outcome : Outcome) : Option Client :=
  match c.writer with
  | .off => none
  | .waits =>
    if c.controlPointShutdown then some { c with writer := .off }
    else
      match c.controlPointJobs with
      | [] => none
      | job :: controlPointJobs => some { c with controlPointJobs, writer := .has job }
  | .has job =>
    if c.api.operating || WorkerPc.operating c.worker then none else some { c with writer := .writes job }
  | .writes job => some { c with writer := .publishes ⟨job.uid, outcome.error, job.number⟩ }
  | .publishes result =>
    some <| if c.controlPointShutdown then { c with writer := .off }
      else { c with controlPointResults := c.controlPointResults ++ [result], writer := .waits }

/-- A subscription calls back from `startNotify` until it is stopped. -/
def subscribed (c : Client) (dataSource : Bool) : Bool :=
  match dataSource, c.api with
  | true, .startNotifyData | true, .dataSubscription | false, .startNotifyNotification
  | false, .notificationSubscription => true
  | true, _ => c.dataSourceSubscription
  | false, _ => c.notificationSourceSubscription

def step (c : Client) : Action → Option Client
  | .start deviceId config =>
    match c.api with
    | .idle => some (c.start deviceId config)
    | _ => none
  | .callStop => some { c with cancelRequested := true, stops := c.stops + 1 }
  | .stop =>
    match c.api, c.stops with
    | .idle, stops + 1 => some { c with stops, api := .stop }
    | _, _ => none
  | .api outcome => c.runApi outcome
  | .worker outcome => c.runWorker outcome
  | .writer outcome => c.runControlPointWrites outcome
  | .gattEvent dataSource event =>
    if c.subscribed dataSource then
      some <| if c.acceptGattEvents then { c with gattQueue := c.gattQueue ++ [⟨dataSource, event⟩] } else c
    else none
  | .tick => some { c with now := c.now + 1 }

end Client
end Dmn.Ancs
