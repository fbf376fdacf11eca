import Dmn.DMesg.Message
import Dmn.Lib.Transition

/-!
# A node of the message network

`Dmn_DMesgNet` with both endpoints, in its publisher context: the tasks that
run there are the heartbeat, the reconciliation of a system message of another
node, and the forwarding of a message published locally. A task ends with
`none` when one of its assertions fails. A write throws before the sys handler
is opened, or when the output fails, and the task ends there. An `unordered_map`
is a function with the list of its keys; the order in which a loop visits them
is an argument.
-/

namespace Dmn.DMesgNet

open Dmn.DMesg

def DMN_DMESGNET_MASTERPENDING_MAX_COUNTER : Nat := 3

def DMN_DMESGNET_MASTERSYNC_MAX_COUNTER : Nat := 5

/-- Wall-clock time. -/
structure Timestamp where
  seconds : Int := 0
  nanos : Int := 0
  deriving DecidableEq, Repr

def Timestamp.before (a b : Timestamp) : Bool :=
  a.seconds < b.seconds ∨ a.seconds = b.seconds ∧ a.nanos < b.nanos

inductive DMesgStatePb
  | invalid
  | initialized
  | masterPending
  | ready
  | destroyed
  deriving DecidableEq, Repr

structure DMesgSysNodePb where
  initializedTimestamp : Timestamp
  updatedTimestamp : Timestamp
  identifier : String
  state : DMesgStatePb
  masterIdentifier : String
  deriving DecidableEq, Repr

structure DMesgSysPb where
  self : DMesgSysNodePb
  nodeList : List DMesgSysNodePb := []
  deriving DecidableEq, Repr

/-- The messages that go out by the forwarding path. -/
structure Outbound where
  topicLast : List (String × DMesgPb) := []
  pendingTopics : List String := []
  pending : String → List DMesgPb := fun _ => []
  -- The ordinary messages handed to the forwarding task, and those it or a
  -- flush has written to the output.
  handed : List DMesgPb := []
  forwarded : List DMesgPb := []
  -- What the heartbeat has sent again.
  resent : List DMesgPb := []

structure Node where
  name : String
  sys : DMesgSysPb
  -- `m_sys_handler` is open
  sysHandler : Bool := false
  masterPendingCounter : Nat := 0
  masterSyncPendingCounter : Nat := 0
  lastRemoteMasterTimestamp : Timestamp := {}
  ready : Bool := false
  isMaster : Bool := false
  numberOfNeighbor : Nat := 0
  out : Outbound := {}

/-- The copies of `m_sys` that a task has written through the sys handler, and
whether a write has thrown. -/
structure Written where
  sent : List DMesgSysPb := []
  thrown : Bool := false

/-- A task's effect: the node after it and what it has written. `none`: an
assertion has failed. -/
abbrev Outcome := Option (Node × Written)

namespace Outbound

def cacheLast (out : Outbound) (m : DMesgPb) : Outbound :=
  { out with topicLast := (m.topic, m) :: out.topicLast.filter (·.1 ≠ m.topic) }

/-- The message is written to the output. -/
def write (out : Outbound) (m : DMesgPb) : Outbound :=
  { out with forwarded := out.forwarded ++ [m] }

/-- The inner loop of the flush. -/
def sendMessages (out : Outbound) : List DMesgPb → Outbound
  | [] => out
  | m :: rest =>
    let out := out.write m
    sendMessages (if m.type ≠ .sys then out.cacheLast m else out) rest

def sendTopic (out : Outbound) (topic : String) : Outbound :=
  let out := out.sendMessages (out.pending topic)
  { out with pending := Function.update out.pending topic [] }

/-- What a flush of some topics writes. -/
def parked (out : Outbound) (order : List String) : Nat :=
  (order.map fun topic => (out.pending topic).length).sum

/-- The flush up to a write that throws, after `written` others: the topic that
it is at is not cleared. -/
def sendUntil (out : Outbound) : List String → Nat → Outbound
  | [], _ => out
  | topic :: order, written =>
    if written < (out.pending topic).length then
      out.sendMessages ((out.pending topic).take written)
    else (out.sendTopic topic).sendUntil order (written - (out.pending topic).length)

def push (out : Outbound) (m : DMesgPb) : Outbound :=
  { out with
    pendingTopics :=
      if m.topic ∈ out.pendingTopics then out.pendingTopics else m.topic :: out.pendingTopics
    pending := Function.update out.pending m.topic (out.pending m.topic ++ [m]) }

end Outbound

namespace Node

/-- `Dmn_DMesgNet(name, input, output)` at a time of day. -/
def new (name : String) (now : Timestamp) : Node :=
  { name
    sys := { self := {
      initializedTimestamp := now, updatedTimestamp := now, identifier := name,
      state := .masterPending, masterIdentifier := "" } } }

def setSelf (n : Node) (self : DMesgSysNodePb) : Node := { n with sys := { n.sys with self } }

-- ---------------------------------------------------------------------------
-- Outbound messages
-- ---------------------------------------------------------------------------

/-- `order` is the order in which the loop meets the topics; `fails` is how many
writes succeed before one throws. The answer says whether one has. -/
def sendPendingOutboundQueueMessage (n : Node) (order : List String) (fails : Option Nat) :
    Option (Node × Bool) :=
  if ¬ n.ready then none
  else
    match fails.filter (· < n.out.parked order) with
    | some written => some ({ n with out := n.out.sendUntil order written }, true)
    | none => some ({ n with out := order.foldl Outbound.sendTopic n.out }, false)

/-- A flush is about the forwarding path. -/
theorem flush_eq {n n' : Node} {order : List String} {fails : Option Nat} {thrown : Bool}
    (h : n.sendPendingOutboundQueueMessage order fails = some (n', thrown)) :
    ∃ out, n' = { n with out } := by
  unfold sendPendingOutboundQueueMessage at h
  split at h
  · cases h
  · split at h <;> cases h <;> exact ⟨_, rfl⟩

/-- The task of `createSubscriptHandler` for one message published locally. -/
def forward (n : Node) (m : DMesgPb) (order : List String) (fails : Option Nat) : Outcome :=
  let m := { m with sourceWriteHandlerIdentifier := n.name }
  let n := if m.type ≠ .sys then { n with out.handed := n.out.handed ++ [m] } else n
  if n.ready ∨ m.type = .sys then
    if m.type ≠ .sys then
      let parked := n.out.parked order
      (n.sendPendingOutboundQueueMessage order fails).map fun (n, thrown) =>
        if thrown ∨ fails = some parked then (n, { thrown := true })
        else ({ n with out := (n.out.write m).cacheLast m }, {})
    else if fails = some 0 then some (n, { thrown := true })
    else if n.ready then
      (n.sendPendingOutboundQueueMessage order (fails.map Nat.pred)).map fun (n, thrown) =>
        (n, { thrown })
    else some (n, {})
  else some ({ n with out := n.out.push m }, {})

/-- And so is the task. -/
theorem forward_eq {n n' : Node} {m : DMesgPb} {order : List String} {fails : Option Nat}
    {written : Written} (h : n.forward m order fails = some (n', written)) :
    ∃ out, n' = { n with out } := by
  unfold forward at h
  by_cases sys : m.type = .sys
  · simp only [sys, ne_eq, not_true_eq_false, if_false, or_true, if_true] at h
    split at h
    · cases h
      exact ⟨_, rfl⟩
    · split at h
      · obtain ⟨⟨flushed, thrown⟩, flush, eq⟩ := Option.map_eq_some_iff.mp h
        cases eq
        exact flush_eq flush
      · cases h
        exact ⟨_, rfl⟩
  · simp only [sys, ne_eq, not_false_eq_true, if_true, or_false] at h
    split at h
    · obtain ⟨⟨flushed, thrown⟩, flush, eq⟩ := Option.map_eq_some_iff.mp h
      obtain ⟨out, rfl⟩ := flush_eq flush
      simp only at eq
      split at eq <;> cases eq <;> exact ⟨_, rfl⟩
    · cases h
      exact ⟨_, rfl⟩

-- ---------------------------------------------------------------------------
-- The heartbeat
-- ---------------------------------------------------------------------------

/-- The state machine of the timer task. -/
def elect (n : Node) (now : Timestamp) : Node :=
  let self := n.sys.self
  if self.state = .masterPending then
    let n := { n with masterPendingCounter := n.masterPendingCounter + 1 }
    if n.masterPendingCounter ≥ DMN_DMESGNET_MASTERPENDING_MAX_COUNTER then
      { n.setSelf { self with
          state := .ready, masterIdentifier := n.name, updatedTimestamp := now } with
        masterPendingCounter := 0, ready := true }
    else n
  else if self.state = .ready then
    if self.masterIdentifier ≠ self.identifier then
      let n := { n with masterSyncPendingCounter := n.masterSyncPendingCounter + 1 }
      if n.masterSyncPendingCounter ≥ DMN_DMESGNET_MASTERSYNC_MAX_COUNTER then
        { n.setSelf { self with masterIdentifier := "", state := .masterPending } with
          masterSyncPendingCounter := 0, lastRemoteMasterTimestamp := {}, ready := false }
      else n
    else n
  else n

/-- The last messages that are sent again. -/
def repeats (n : Node) : List DMesgPb :=
  n.out.topicLast.map fun p =>
    { p.2 with playback := true, sourceWriteHandlerIdentifier := n.name }

/-- The timer is started after the sys handler is opened. -/
def heartbeat (n : Node) (now : Timestamp) (fails : Option Nat) : Outcome :=
  let n := n.elect now
  let sent := [n.sys]
  let master := n.sys.self.masterIdentifier = n.sys.self.identifier
  let repeats := if master ∧ n.numberOfNeighbor < n.sys.nodeList.length then n.repeats else []
  match fails.filter (· < repeats.length) with
  | some written =>
    some ({ n with out.resent := n.out.resent ++ repeats.take written }, { sent, thrown := true })
  | none =>
    some ({ n with
      out.resent := n.out.resent ++ repeats
      numberOfNeighbor := n.sys.nodeList.length
      isMaster := master }, { sent })

-- ---------------------------------------------------------------------------
-- Reconciliation
-- ---------------------------------------------------------------------------

/-- The master of a more senior node, or any master while this one is pending. -/
def adopts (n : Node) (other : DMesgSysNodePb) : Bool :=
  let self := n.sys.self
  other.state = .ready ∧
    (self.state = .masterPending ∨
      self.state = .ready ∧ other.identifier ≠ self.masterIdentifier ∧
        other.masterIdentifier ≠ self.masterIdentifier ∧
        other.initializedTimestamp.before self.initializedTimestamp)

/-- `m_sys_handler->write` in the middle of a task. -/
def writeSys (n : Node) (rest : Node → Outcome) : Outcome :=
  if n.sysHandler then
    (rest n).map fun (n', written) => (n', { written with sent := n.sys :: written.sent })
  else some (n, { thrown := true })

def reconciliateMaster (n : Node) (other : DMesgSysNodePb) (now : Timestamp)
    (order : List String) (fails : Option Nat) : Outcome :=
  let self := n.sys.self
  if self.state = .masterPending ∧ other.state = .ready then
    if self.masterIdentifier ≠ "" ∨ other.masterIdentifier = "" then none
    else
      let n := { n.setSelf { self with
          state := .ready, masterIdentifier := other.masterIdentifier,
          updatedTimestamp := now } with
        lastRemoteMasterTimestamp := now, masterPendingCounter := 0,
        masterSyncPendingCounter := 0 }
      n.writeSys fun n =>
        (sendPendingOutboundQueueMessage { n with ready := true } order fails).map
          fun (n, thrown) => (n, { thrown })
  else if self.state = .ready then
    if self.masterIdentifier = "" ∨ n.masterPendingCounter ≠ 0 then none
    else if other.identifier = self.masterIdentifier then
      if other.state = .ready then
        some ({ n with masterSyncPendingCounter := 0, lastRemoteMasterTimestamp := now }, {})
      else if other.masterIdentifier ≠ "" then none
      else
        let n := { n.setSelf { self with
            state := .masterPending, masterIdentifier := "", updatedTimestamp := now } with
          lastRemoteMasterTimestamp := {}, masterPendingCounter := 0,
          masterSyncPendingCounter := 0 }
        n.writeSys fun n => some ({ n with ready := false }, {})
    else if other.state = .ready ∧ other.masterIdentifier ≠ self.masterIdentifier then
      if other.masterIdentifier = "" then none
      else if other.initializedTimestamp.before self.initializedTimestamp then
        let n := { n.setSelf { self with
            masterIdentifier := other.masterIdentifier, updatedTimestamp := now } with
          lastRemoteMasterTimestamp := now, masterPendingCounter := 0,
          masterSyncPendingCounter := 0 }
        n.writeSys fun n => some (n, {})
      else some (n, {})
    else some (n, {})
  else some (n, {})

def reconciliateNodeList (nodeList : List DMesgSysNodePb) (other : DMesgSysNodePb) :
    List DMesgSysNodePb :=
  match nodeList.findIdx? (·.identifier = other.identifier) with
  | none => if other.state = .destroyed then nodeList else nodeList ++ [other]
  | some index =>
    if other.state = .destroyed then nodeList.eraseIdx index else nodeList.set index other

/-- A write that throws ends the task before the node list. -/
def reconciliateDMesgPbSys (n : Node) (other : DMesgSysNodePb) (now : Timestamp)
    (order : List String) (fails : Option Nat) : Outcome :=
  (n.reconciliateMaster other now order fails).map fun (n, written) =>
    if written.thrown then (n, written)
    else ({ n with
      sys := { n.sys with nodeList := reconciliateNodeList n.sys.nodeList other } }, written)

-- ---------------------------------------------------------------------------
-- The tasks of a node
-- ---------------------------------------------------------------------------

/-- `fails`: a write to the output throws after so many. -/
inductive Task
  | openSysHandler
  | heartbeat (now : Timestamp) (fails : Option Nat := none)
  | reconciliate (other : DMesgSysNodePb) (now : Timestamp) (order : List String)
      (fails : Option Nat := none)
  | forward (m : DMesgPb) (order : List String) (fails : Option Nat := none)

/-- The loop over the pending queues meets every topic of the map once. -/
def Task.enabled (n : Node) : Task → Prop
  | .openSysHandler => n.sysHandler = false
  | .heartbeat _ _ => n.sysHandler = true
  | .reconciliate _ _ order _ | .forward _ order _ => order.Perm n.out.pendingTopics

instance (n : Node) (t : Task) : Decidable (t.enabled n) := by
  unfold Task.enabled; split <;> infer_instance

def run (n : Node) : Task → Outcome
  | .openSysHandler => some ({ n with sysHandler := true }, {})
  | .heartbeat now fails => n.heartbeat now fails
  | .reconciliate other now order fails => n.reconciliateDMesgPbSys other now order fails
  | .forward m order fails => n.forward m order fails

/-- One task after the other, by a node whose assertions hold. -/
def step (n : Node) (t : Task) : Option Node :=
  if t.enabled n then (n.run t).map Prod.fst else none

end Node
end Dmn.DMesgNet
