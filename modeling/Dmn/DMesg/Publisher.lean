import Dmn.DMesg.Message
import Dmn.Lib.Transition
import Mathlib.Data.List.Sort
import Mathlib.Data.List.Nodup

/-!
# The publisher and its handlers

`Dmn_DMesg` with the handlers opened on it. The publisher's tasks run one after
the other in its own context; each handler has a context of its own, with an
inbox of the tasks that the publisher scheduled there. A write runs in the
handler's context, stamps the message and queues it for the publisher.

Tasks that a client posts and waits for are single actions. The conflict
callback is client code and has no place here; the async-process callback and
the read buffer are one list of what was handed over.
-/

namespace Dmn.DMesg

open Dmn.Lib

-- ---------------------------------------------------------------------------
-- Data
-- ---------------------------------------------------------------------------

/-- What a handler is opened with. `filterFn` says what is handed over; of what is
not, `filterThrows` says where the filter threw. The publisher then goes on to the
next handler, and the write that waits for the publication is told. A replay that a
filter cuts short has no place here. -/
structure HandlerSpec where
  name : String
  topic : String := ""
  filterFn : DMesgPb → Bool := fun _ => true
  filterThrows : DMesgPb → Bool := fun _ => false
  includeDMesgPbSys : Bool := false
  noTopicFilter : Bool := false

def HandlerSpec.subscribes (spec : HandlerSpec) (topic : String) : Bool :=
  spec.noTopicFilter || spec.topic == "" || topic == spec.topic

inductive HandlerEventType
  | kMessage
  | kConflictEntered
  | kConflictResolved
  deriving DecidableEq, Repr

structure HandlerEvent where
  type : HandlerEventType
  topic : String
  handlerRunningCounter : Nat
  conflictGeneration : UInt64
  message : Option DMesgPb
  deriving DecidableEq

/-- A task that the publisher scheduled in a handler's context. -/
inductive HandlerTask
  | event (e : HandlerEvent) (notifyObserver : Bool)
  | setAfterInitialPlayback
  deriving DecidableEq

/-- The publisher's record of a handler, `m_handler_states`. -/
structure HandlerState where
  topicRunningCounter : String → Option Nat := fun _ => none
  topicInConflict : List String := []
  conflictGeneration : UInt64 := 0

/-- The members of a handler that its own context writes. -/
structure Mirror where
  topicRunningCounter : String → Nat := fun _ => 0
  topicInConflict : List String := []
  conflictGeneration : UInt64 := 0
  afterInitialPlayback : Bool := false

structure Handler where
  state : Option HandlerState := none
  inbox : List HandlerTask := []
  mirror : Mirror := {}
  -- A write of its own that the context waits for.
  waiting : Bool := false
  -- Pushed to the read buffer or handed to the async-process callback.
  delivered : List DMesgPb := []
  -- The events handed to `m_handler_event_fn`.
  observed : List HandlerEvent := []
  -- History: the messages that events run in this context carried.
  seen : List DMesgPb := []
  -- History: how many messages were accepted before the registration.
  registeredAt : Nat := 0

/-- History of a write: what its context had seen, and how many of its conflicts
on the topic it knew to be resolved. -/
structure Stamp where
  seen : List DMesgPb
  resolved : Nat

inductive PublisherTask (ι : Type)
  | publish (i : ι) (m : DMesgPb) (wait : Bool) (stamp : Stamp)
  | setHandlerTopicRunningCounter (i : ι) (topic : String) (runningCounter : Nat)

structure State (ι : Type) where
  subscribers : List ι := []
  handlers : List ι := []
  opened : List ι := []
  handler : ι → Handler := fun _ => {}
  topicRunningCounter : String → Nat := fun _ => 0
  topicLastDMesgPb : String → Option DMesgPb := fun _ => none
  -- The keys of the last-message cache.
  topics : List String := []
  queue : List (PublisherTask ι) := []
  -- History: the messages of the accepting branch that no force put there.
  accepted : List DMesgPb := []

/-- Counters are taken not to wrap. -/
def incrementByOne (v : Nat) : Nat := v + 1

-- ---------------------------------------------------------------------------
-- One handler, in the publisher's context
-- ---------------------------------------------------------------------------

namespace Handler

/-- The handlers and their states are registered and erased together; `listed`
says that the handler is among `m_handlers`. -/
def enqueueHandlerEvent (h : Handler) (listed : Bool) (type : HandlerEventType) (topic : String)
    (message : Option DMesgPb) (notifyObserver : Bool) : Handler :=
  match h.state with
  | none => h
  | some state =>
    if listed then
      { h with
        inbox := h.inbox ++ [.event
          { type, topic
            handlerRunningCounter := (state.topicRunningCounter topic).getD 0
            conflictGeneration := state.conflictGeneration
            message } notifyObserver] }
    else h

/-- `std::set` keeps its topics in order. -/
def insertTopic (topic : String) (topics : List String) : List String :=
  if topic ∈ topics then topics else topics.orderedInsert (· ≤ ·) topic

def throwHandlerConflict (h : Handler) (listed : Bool) (message : DMesgPb) : Handler :=
  match h.state with
  | none => h
  | some state =>
    let inserted := decide (message.topic ∉ state.topicInConflict)
    let state := { state with
      topicInConflict := insertTopic message.topic state.topicInConflict
      conflictGeneration := state.conflictGeneration + if inserted then 1 else 0 }
    { h with state := some state }.enqueueHandlerEvent listed .kConflictEntered message.topic
      (some message) inserted

/-- The resolution of one topic; the loop over all topics takes the first each time. -/
def resolveTopicConflict (h : Handler) (listed : Bool) (topic : String)
    (message : Option DMesgPb) : Handler :=
  match h.state with
  | none => h
  | some state =>
    let resolved := decide (topic ∈ state.topicInConflict)
    let state := { state with
      topicInConflict := state.topicInConflict.erase topic
      conflictGeneration := state.conflictGeneration + if resolved then 1 else 0 }
    if resolved || message.isSome then
      { h with state := some state }.enqueueHandlerEvent listed .kConflictResolved topic message
        resolved
    else { h with state := some state }

def resolveHandlerConflict (h : Handler) (listed : Bool) (topic : String)
    (message : Option DMesgPb) : Handler :=
  match h.state with
  | none => h
  | some state =>
    if topic = "" then
      state.topicInConflict.foldl (fun h t => h.resolveTopicConflict listed t message) h
    else h.resolveTopicConflict listed topic message

def setStateCounter (h : Handler) (topic : String) (runningCounter : Nat) : Handler :=
  { h with state := h.state.map fun state => { state with
      topicRunningCounter :=
        Function.update state.topicRunningCounter topic (some runningCounter) } }

def notify (h : Handler) (spec : HandlerSpec) (listed : Bool) (m : DMesgPb) : Handler :=
  match h.state with
  | none => h
  | some state =>
    if m.conflict then
      if m.sourceWriteHandlerIdentifier ≠ spec.name ∧ spec.subscribes m.topic ∧
          (state.topicRunningCounter m.topic).isSome then
        h.throwHandlerConflict listed m
      else h
    else if m.runningCounter > (state.topicRunningCounter m.topic).getD 0 ∨ m.force then
      if m.force then
        (h.setStateCounter m.topic m.runningCounter).resolveHandlerConflict listed m.topic (some m)
      else if m.sourceWriteHandlerIdentifier ≠ spec.name ∨ m.type = .sys then
        if (m.type ≠ .sys ∨ spec.includeDMesgPbSys) ∧ spec.subscribes m.topic ∧ spec.filterFn m then
          let h := (h.setStateCounter m.topic m.runningCounter).resolveHandlerConflict listed
            m.topic (some m)
          let h := h.enqueueHandlerEvent listed .kMessage m.topic (some m) true
          { h with delivered := h.delivered ++ [m] }
        else h
      else h
    else h

/-- The filter that the publisher gives `Dmn_Pub`. -/
def accepts (h : Handler) (spec : HandlerSpec) (m : DMesgPb) : Bool :=
  (!m.playback || !h.mirror.afterInitialPlayback) && spec.subscribes m.topic

-- ---------------------------------------------------------------------------
-- One handler, in its own context
-- ---------------------------------------------------------------------------

/-- The counter that an event leaves: a forced message sets it, others never lower it. -/
def eventCounter (e : HandlerEvent) (counter : Nat) : Nat :=
  match e.type with
  | .kConflictEntered => counter
  | .kMessage | .kConflictResolved =>
    if (e.message.map DMesgPb.force).getD false then e.handlerRunningCounter
    else max counter e.handlerRunningCounter

def runEvent (h : Handler) (e : HandlerEvent) (notifyObserver : Bool) : Handler :=
  { h with
    mirror := { h.mirror with
      topicRunningCounter := Function.update h.mirror.topicRunningCounter e.topic
        (eventCounter e (h.mirror.topicRunningCounter e.topic))
      topicInConflict := match e.type with
        | .kMessage => h.mirror.topicInConflict
        | .kConflictEntered => insertTopic e.topic h.mirror.topicInConflict
        | .kConflictResolved => h.mirror.topicInConflict.erase e.topic
      conflictGeneration := e.conflictGeneration }
    observed := if notifyObserver then h.observed ++ [e] else h.observed
    seen := if e.type = .kConflictEntered then h.seen else h.seen ++ e.message.toList }

def run (h : Handler) : HandlerTask → Handler
  | .event e notifyObserver => h.runEvent e notifyObserver
  | .setAfterInitialPlayback => { h with mirror := { h.mirror with afterInitialPlayback := true } }

/-- The conflicts on a topic that the observer saw resolved. -/
def resolvedTopic (topic : String) (events : List HandlerEvent) : Nat :=
  events.countP fun e => e.type = .kConflictResolved ∧ e.topic = topic

end Handler

-- ---------------------------------------------------------------------------
-- The publisher
-- ---------------------------------------------------------------------------

namespace State

variable {ι : Type} [DecidableEq ι] (specs : ι → HandlerSpec)

def update (s : State ι) (i : ι) (h : Handler) : State ι :=
  { s with handler := Function.update s.handler i h }

def listed (s : State ι) (i : ι) : Bool := i ∈ s.handlers

/-- `Dmn_Pub::publishInternal`: every accepted subscriber is notified in turn. -/
def notifyAll (s : State ι) (m : DMesgPb) : State ι :=
  s.subscribers.foldl (fun s i =>
    if (s.handler i).accepts (specs i) m then
      s.update i ((s.handler i).notify (specs i) (s.listed i) m)
    else s) s

/-- The handler that a message names as its source. -/
def source (s : State ι) (m : DMesgPb) : Option ι :=
  s.handlers.find? fun i => (specs i).name = m.sourceWriteHandlerIdentifier

/-- The publisher's counter of the source follows every message of it. -/
def noteSource (s : State ι) (m : DMesgPb) : State ι :=
  match s.source specs m with
  | none => s
  | some i => s.update i ((s.handler i).setStateCounter m.topic m.runningCounter)

/-- The source is in conflict on the topic. -/
def sourceInConflict (s : State ι) (m : DMesgPb) : Bool :=
  match s.source specs m with
  | none => false
  | some i =>
    match (s.handler i).state with
    | none => false
    | some state => m.topic ∈ state.topicInConflict

def nextRunningCounter (s : State ι) (m : DMesgPb) : Nat :=
  if m.force then m.runningCounter else incrementByOne (s.topicRunningCounter m.topic)

/-- Out of date, or marked already. -/
def conflicting (s : State ι) (m : DMesgPb) : Bool :=
  m.runningCounter < s.nextRunningCounter m || m.conflict

def throwSource (s : State ι) (m : DMesgPb) : State ι :=
  match s.source specs m with
  | none => s
  | some i => s.update i ((s.handler i).throwHandlerConflict (s.listed i) m)

def cache (s : State ι) (m : DMesgPb) : State ι :=
  { s with
    topicRunningCounter := Function.update s.topicRunningCounter m.topic m.runningCounter
    topicLastDMesgPb := Function.update s.topicLastDMesgPb m.topic (some m)
    topics := if m.topic ∈ s.topics then s.topics else s.topics ++ [m.topic]
    accepted := if m.force then s.accepted else s.accepted ++ [m] }

def publishInternal (s : State ι) (m : DMesgPb) : State ι :=
  if m.playback then s.notifyAll specs m
  else
    let s := s.noteSource specs m
    if s.sourceInConflict specs m ∧ ¬ m.force then s
    else if s.conflicting m then
      let m := { m with conflict := true }
      (s.throwSource specs m).notifyAll specs m
    else
      let m := { m with runningCounter := s.nextRunningCounter m }
      (s.cache m).notifyAll specs m

/-- The cache is replayed in an order of its own. -/
def playbackLastTopicDMesgPbInternal (s : State ι) (order : List String) : State ι :=
  order.foldl (fun s topic =>
    match s.topicLastDMesgPb topic with
    | none => s
    | some m => s.publishInternal specs { m with playback := true }) s

def resetConflictStateWithLastTopicMessageInternal (s : State ι) (topic : String) : State ι :=
  match s.topicLastDMesgPb topic with
  | none => s
  | some m => s.publishInternal specs { m with force := true }

def scheduleAfterInitialPlayback (s : State ι) (i : ι) : State ι :=
  s.update i { s.handler i with inbox := (s.handler i).inbox ++ [.setAfterInitialPlayback] }

/-- The registration task of `finalizeHandlerRegistration`. -/
def register (s : State ι) (i : ι) (order : List String) : State ι :=
  let s := { s with handlers := s.handlers ++ [i] }
  let s := s.update i { s.handler i with state := some {}, registeredAt := s.accepted.length }
  (s.playbackLastTopicDMesgPbInternal specs order).scheduleAfterInitialPlayback i

-- ---------------------------------------------------------------------------
-- Writing
-- ---------------------------------------------------------------------------

/-- The message as `write` and `writeDMesgInternal` complete it. -/
def stamped (s : State ι) (i : ι) (m : DMesgPb) (force : Bool) : DMesgPb :=
  let topic := if m.topic = "" ∧ (specs i).topic ≠ "" then (specs i).topic else m.topic
  { m with
    topic
    force := m.force || force
    runningCounter := incrementByOne ((s.handler i).mirror.topicRunningCounter topic)
    sourceWriteHandlerIdentifier := (specs i).name
    sourceIdentifier := if m.sourceIdentifier = "" then (specs i).name else m.sourceIdentifier }

/-- `writeDMesgInternal`; in conflict it throws and changes nothing. -/
def writeDMesgInternal (s : State ι) (i : ι) (m : DMesgPb) (block force : Bool) : State ι :=
  let h := s.handler i
  let m := s.stamped specs i m force
  if m.topic ∈ h.mirror.topicInConflict ∧ ¬ m.force then s
  else
    let wait := block || m.force
    let s := s.update i { h with
      mirror := { h.mirror with
        topicRunningCounter :=
          Function.update h.mirror.topicRunningCounter m.topic m.runningCounter }
      waiting := wait }
    { s with queue := s.queue ++
        [.publish i m wait ⟨h.seen, Handler.resolvedTopic m.topic h.observed⟩] }

def setTopicRunningCounterInternal (s : State ι) (i : ι) (topic : String) (runningCounter : Nat) :
    State ι :=
  let h := s.handler i
  let s := s.update i { h with
    mirror := { h.mirror with
      topicRunningCounter :=
        Function.update h.mirror.topicRunningCounter topic runningCounter }
    waiting := true }
  { s with queue := s.queue ++ [.setHandlerTopicRunningCounter i topic runningCounter] }

-- ---------------------------------------------------------------------------
-- Runs
-- ---------------------------------------------------------------------------

/-- The context that waited for a task of the publisher goes on. -/
def release (s : State ι) (i : ι) (wait : Bool) : State ι :=
  if wait then s.update i { s.handler i with waiting := false } else s

def runPublisher (s : State ι) : PublisherTask ι → State ι
  | .publish i m wait _ => (s.publishInternal specs m).release i wait
  | .setHandlerTopicRunningCounter i topic runningCounter =>
    (s.update i ((s.handler i).setStateCounter topic runningCounter)).release i true

inductive Action (ι : Type)
  | subscribe (i : ι)
  | register (i : ι) (order : List String)
  | write (i : ι) (m : DMesgPb) (block force : Bool)
  | publish
  | resolveConflict (i : ι) (topic : String)
  | resetConflictStateWithLastTopicMessage (topic : String)
  | setTopicRunningCounter (i : ι) (topic : String) (runningCounter : Nat)
  | run (i : ι)
  | unsubscribe (i : ι)
  | erase (i : ι)

/-- The calls of an open handler wait for its initial playback; its context may
wait for the publisher. -/
def ready (s : State ι) (i : ι) : Bool :=
  s.listed i && (s.handler i).mirror.afterInitialPlayback && !(s.handler i).waiting

def step (s : State ι) : Action ι → Option (State ι)
  | .subscribe i =>
    if i ∈ s.opened then none
    else some { s with opened := s.opened ++ [i], subscribers := s.subscribers ++ [i] }
  | .register i order =>
    if i ∈ s.subscribers ∧ i ∉ s.handlers ∧ order.Perm s.topics then some (s.register specs i order)
    else none
  | .write i m block force =>
    if s.ready i then some (s.writeDMesgInternal specs i m block force) else none
  | .publish =>
    match s.queue with
    | [] => none
    | task :: queue => some ({ s with queue }.runPublisher specs task)
  | .resolveConflict i topic =>
    if s.listed i ∧ (s.handler i).mirror.afterInitialPlayback then
      some (s.update i ((s.handler i).resolveHandlerConflict (s.listed i) topic none))
    else none
  | .resetConflictStateWithLastTopicMessage topic =>
    some (s.resetConflictStateWithLastTopicMessageInternal specs topic)
  | .setTopicRunningCounter i topic runningCounter =>
    if s.ready i then some (s.setTopicRunningCounterInternal i topic runningCounter) else none
  | .run i =>
    match (s.handler i).inbox with
    | [] => none
    | task :: inbox =>
      if (s.handler i).waiting then none
      else some (s.update i ({ s.handler i with inbox }.run task))
  | .unsubscribe i =>
    if i ∈ s.subscribers ∧ i ∈ s.handlers then
      some { s with subscribers := s.subscribers.erase i }
    else none
  | .erase i =>
    if i ∈ s.handlers ∧ i ∉ s.subscribers then
      some ({ s with handlers := s.handlers.erase i }.update i
        { s.handler i with state := none })
    else none

end State
end Dmn.DMesg
