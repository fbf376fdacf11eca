import Dmn.DMesgNet.Node
import Dmn.DMesg.Growth

/-!
# The input loop

A node of the network with its publisher: the input worker reads a frame, looks
up the last message of its topic, writes the frame through the handler that the
node keeps for it, and asks that handler whether it is in conflict. Lookups are
tasks of the publisher's context, writes and questions are tasks of the
handler's: each waits there behind what was scheduled before it.

System frames go to the reconciliation of `Node` and are not read here. A task
of `Node` is taken when its assertions hold.
-/

namespace Dmn.DMesgNet

open Dmn.DMesg Dmn.Lib

/-- The handlers of a node: three of its own, and those of its clients. -/
inductive Party (ι : Type)
  | write
  | sub
  | sys
  | client (i : ι)
  deriving DecidableEq

/-- `createSubscriptHandler` and `createInputHandlerProc` open the node's own. -/
def partySpecs {ι : Type} (name : String) (clients : ι → HandlerSpec) : Party ι → HandlerSpec
  | .write => { name, filterFn := fun _ => false }
  | .sub =>
    { name := name ++ "_sub"
      filterFn := fun m => m.sourceWriteHandlerIdentifier ≠ name
      includeDMesgPbSys := true
      noTopicFilter := true }
  | .sys => { name := name ++ "_sys", filterFn := fun _ => false }
  | .client i => clients i

inductive Branch
  | forcePlayback
  | ordinary (last : Option DMesgPb)
  deriving DecidableEq

/-- A frame that is being written, and the branch of the loop it is in. -/
structure Job where
  frame : DMesgPb
  branch : Branch

inductive Failure
  | noLastMessage
  | handlerInConflict
  | forcePlaybackFails
  | filterThrows
  deriving DecidableEq

/-- Where the worker is. `writing` and `checking` wait behind so many tasks of the
write handler's inbox, `waiting` for the publisher. -/
inductive Phase
  | reading
  | looked (job : Job)
  | writing (job : Job) (ahead : Nat)
  | waiting (job : Job)
  | checking (job : Job) (ahead : Nat)
  | failed (why : Failure)

/-- What the worker leaves to the publisher's context. -/
inductive Posted
  | cache (m : DMesgPb)
  | force (last : DMesgPb)
  | report (m last : DMesgPb)

structure Station (ι : Type) where
  publisher : DMesg.State (Party ι) := {}
  node : Node
  -- How many messages of the subscript handler were forwarded.
  forwards : Nat := 0
  posted : List Posted := []
  -- Written to the output by the tasks of the input worker.
  answers : List DMesgPb := []
  phase : Phase := .reading

/-- The network layer's own cache. -/
def Node.getTopicLastMessage (n : Node) (topic : String) : Option DMesgPb :=
  n.out.topicLast.lookup topic

/-- The copy that settles a conflict. -/
def forced (last : DMesgPb) : DMesgPb := { last with playback := true, force := true }

namespace Station

variable {ι : Type} [DecidableEq ι] (clients : ι → HandlerSpec)

def specs (s : Station ι) : Party ι → HandlerSpec := partySpecs s.node.name clients

def writeHandler (s : Station ι) : Handler := s.publisher.handler .write

-- ---------------------------------------------------------------------------
-- A filter that throws
-- ---------------------------------------------------------------------------

section

variable (specs : Party ι → HandlerSpec)

/-- `notify` asks the handler's filter, and it throws. -/
def notifyThrows (h : Handler) (spec : HandlerSpec) (m : DMesgPb) : Bool :=
  match h.state with
  | none => false
  | some state =>
    !m.conflict && !m.force && m.runningCounter > (state.topicRunningCounter m.topic).getD 0 &&
      (m.sourceWriteHandlerIdentifier ≠ spec.name || m.type = .sys) &&
      (m.type ≠ .sys || spec.includeDMesgPbSys) && spec.subscribes m.topic &&
      !spec.filterFn m && spec.filterThrows m

/-- Every subscriber is notified; then the first exception is thrown again. -/
def notifyAllThrows (p : DMesg.State (Party ι)) (m : DMesgPb) : Bool :=
  p.subscribers.any fun i =>
    (p.handler i).accepts (specs i) m && notifyThrows (p.handler i) (specs i) m

/-- A marked message is offered to no filter. -/
def publishThrows (p : DMesg.State (Party ι)) (m : DMesgPb) : Bool :=
  match p.verdict specs m with
  | .replayed => notifyAllThrows specs p m
  | .accepted => notifyAllThrows specs (p.noteSource specs m) (p.renumbered m)
  | .dropped | .marked => false

end

/-- The publication that the worker waits for throws. -/
def rethrows (s : Station ι) : DMesg.State.Action (Party ι) → Bool
  | .publish =>
    match s.publisher.queue with
    | .publish .write m _ _ :: _ => publishThrows (s.specs clients) s.publisher m
    | _ => false
  | _ => false

-- ---------------------------------------------------------------------------
-- The worker
-- ---------------------------------------------------------------------------

/-- The loop up to the write: the branches on a parsed frame. -/
def read (s : Station ι) (m : DMesgPb) : Option (Station ι) :=
  if m.sourceWriteHandlerIdentifier = s.node.name then some s
  else if m.conflict then
    if s.posted = [] then
      match s.node.getTopicLastMessage m.topic with
      | none => some { s with phase := .failed .noLastMessage }
      | some last => some { s with posted := s.posted ++ [.force last] }
    else none
  else if m.force ∧ m.playback then some { s with phase := .looked ⟨m, .forcePlayback⟩ }
  else if s.posted = [] then
    let m := { m with sourceWriteHandlerIdentifier := s.node.name }
    let last := s.node.getTopicLastMessage m.topic
    let m :=
      match last with
      | none => m
      | some last =>
        if last.runningCounter ≥ m.runningCounter then { m with conflict := true } else m
    some { s with phase := .looked ⟨m, .ordinary last⟩ }
  else none

/-- `writeAndCheckConflict`: the write is scheduled. -/
def post (s : Station ι) (job : Job) : Option (Station ι) :=
  if s.publisher.listed .write ∧ s.writeHandler.mirror.afterInitialPlayback then
    some { s with phase := .writing job s.writeHandler.inbox.length }
  else none

/-- The write runs in the handler's context; in conflict it throws. -/
def write (s : Station ι) (job : Job) : Option (Station ι) :=
  if job.frame.topic ∈ s.writeHandler.mirror.topicInConflict ∧ ¬ job.frame.force then
    some { s with phase := .failed .handlerInConflict }
  else
    (s.publisher.step (s.specs clients) (.write .write job.frame true false)).map fun publisher =>
      { s with publisher, phase := .waiting job }

/-- The write has returned, and the question is scheduled. -/
def ask (s : Station ι) (job : Job) : Option (Station ι) :=
  if s.writeHandler.waiting then none
  else some { s with phase := .checking job s.writeHandler.inbox.length }

/-- `isInConflictInternal`; the empty topic asks for any. -/
def isInConflict (topic : String) (topicInConflict : List String) : Bool :=
  if topic = "" then topicInConflict ≠ [] else topic ∈ topicInConflict

/-- The answer comes, and the loop goes on. -/
def check (s : Station ι) (job : Job) : Station ι :=
  if isInConflict job.frame.topic s.writeHandler.mirror.topicInConflict then
    match job.branch with
    | .forcePlayback => { s with phase := .failed .forcePlaybackFails }
    | .ordinary none => { s with phase := .failed .noLastMessage }
    | .ordinary (some last) =>
      { s with phase := .reading, posted := s.posted ++ [.report job.frame last] }
  else { s with phase := .reading, posted := s.posted ++ [.cache job.frame] }

/-- A task that the worker left. -/
def runPosted (s : Station ι) : Posted → Station ι
  | .cache m => { s with node := { s.node with out := s.node.out.cacheLast m } }
  | .force last =>
    if s.node.isMaster then { s with answers := s.answers ++ [forced last] } else s
  | .report m last =>
    { s with answers := s.answers ++ [{ m with conflict := true }, forced last] }

-- ---------------------------------------------------------------------------
-- The rest of the node
-- ---------------------------------------------------------------------------

/-- The write handler is the worker's alone, and stays open. -/
def reserved : DMesg.State.Action (Party ι) → Bool
  | .write .write _ _ _ | .resolveConflict .write _ | .setTopicRunningCounter .write _ _
  | .unsubscribe .write | .erase .write => true
  | _ => false

/-- The write handler's context takes its tasks in the order they were scheduled. -/
def nextPhase (phase : Phase) : DMesg.State.Action (Party ι) → Option Phase
  | .run .write =>
    match phase with
    | .writing job (ahead + 1) => some (.writing job ahead)
    | .checking job (ahead + 1) => some (.checking job ahead)
    | .writing _ 0 | .checking _ 0 => none
    | phase => some phase
  | _ => some phase

/-- A step of the publisher or of a handler's context. What a filter throws on the
worker's write goes through the write handler's context and leaves the worker. -/
def publish (s : Station ι) (a : DMesg.State.Action (Party ι)) : Option (Station ι) :=
  if reserved a then none
  else
    (nextPhase s.phase a).bind fun phase =>
      (s.publisher.step (s.specs clients) a).map fun publisher =>
        { s with publisher, phase := if s.rethrows clients a then .failed .filterThrows else phase }

inductive Action (ι : Type)
  | read (m : DMesgPb)
  | post
  | write
  | ask
  | check
  | posted
  | publisher (a : DMesg.State.Action (Party ι))
  | openSysHandler
  | heartbeat (now : Timestamp) (fails : Option Nat := none)
  | reconciliate (other : DMesgSysNodePb) (now : Timestamp) (order : List String)
      (fails : Option Nat := none)
  | forward (order : List String) (fails : Option Nat := none)

/-- The worker is started when its write handler is open. -/
def step (s : Station ι) (a : Action ι) : Option (Station ι) :=
  match a, s.phase with
  | .read m, .reading => if m.type = .sys ∨ s.publisher.listed .write = false then none else s.read m
  | .post, .looked job => s.post job
  | .write, .writing job 0 => s.write clients job
  | .ask, .waiting job => s.ask job
  | .check, .checking job 0 => some (s.check job)
  | .posted, _ =>
    match s.posted with
    | [] => none
    | task :: posted => some ({ s with posted }.runPosted task)
  | .publisher a, _ => s.publish clients a
  | .openSysHandler, _ => (s.node.step .openSysHandler).map fun node => { s with node }
  | .heartbeat now fails, _ => (s.node.step (.heartbeat now fails)).map fun node => { s with node }
  | .reconciliate other now order fails, _ =>
    (s.node.step (.reconciliate other now order fails)).map fun node => { s with node }
  | .forward order fails, _ =>
    match (s.publisher.handler .sub).delivered[s.forwards]? with
    | none => none
    | some m => (s.node.step (.forward m order fails)).map fun node =>
      { s with node, forwards := s.forwards + 1 }
  | _, _ => none

end Station
end Dmn.DMesgNet
