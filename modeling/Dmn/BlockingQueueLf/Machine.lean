import Dmn.Lib.Transition
import Mathlib.Data.Fintype.Basic

/-!
# The lock-free queue under any schedule

`Dmn_BlockingQueue_Lf` step by step: every atomic load, store, exchange and
add of a call is one step of its thread. The queue is not shut down, and the
address of a node is not used again. What the code does not keep is recorded
in a history, which no step reads.
-/

namespace Dmn.BlockingQueueLf

abbrev Address := Nat

def epochTimeScale : UInt64 := 500

def epochIdScale : UInt64 := 2

/-- An index into the `s_epochDataSize` buckets. -/
abbrev EpochIndex := Fin 50

structure EpochData where
  inFlightTotal : UInt64 := 0
  id : UInt64 := 0
  deriving DecidableEq

def calcEpochIndex (epochId : UInt64) : EpochIndex := Fin.ofNat 50 (epochId / epochIdScale).toNat

-- ---------------------------------------------------------------------------
-- Places
-- ---------------------------------------------------------------------------

/-- A pop in its loop: `popOptional`, or `pop` of several items. -/
inductive Popping (T : Type) where
  | optional (wait : Bool)
  | many (count : Nat) (timed : Bool) (res : List T)
  deriving DecidableEq

def Popping.wait {T : Type} : Popping T → Bool
  | .optional wait => wait
  | .many _ _ _ => false

inductive Operation (T : Type) where
  | push (item : T)
  | pop (popping : Popping T)
  deriving DecidableEq

/-- In `enterInflightGuardFnc`. -/
inductive EnterPc where
  | total
  | load (total : UInt64)
  | swap (total : UInt64) (ep : EpochData)
  -- At an index of the sweep.
  | sweep (epochIndex : EpochIndex) (index : Nat)
  | sweepLoad (epochIndex index : EpochIndex)
  | sweepDetach (epochIndex index : EpochIndex) (ptr : Address)
  | sweepFree (epochIndex index : EpochIndex) (node : Option Address)
  | count (epochIndex : EpochIndex)
  deriving DecidableEq

/-- In `pushImpl`. -/
inductive PushPc where
  | count
  | loadTail (new : Address)
  | loadNext (new last : Address)
  | recheck (new last : Address) (next : Option Address)
  | link (new last : Address)
  | help (new last next : Address)
  -- The node is linked, the tail is to follow.
  | swing (new last : Address)
  | total
  deriving DecidableEq

/-- In `popOptional`, with `retireNode` inside, or in the loop around it. -/
inductive PopPc where
  | loadTail
  | loadHead (last : Address)
  | loadNext (last : Address) (first : Option Address)
  | recheck (last first : Address) (next : Option Address)
  -- The queue was empty; the tail has not moved yet.
  | spin (last : Address)
  | help (last next : Address)
  | swing (first : Address) (next : Option Address)
  | retireLoad (first : Address) (next : Option Address)
  | retireStore (first : Address) (next top : Option Address)
  | retireSwap (first : Address) (next top : Option Address)
  | countDown (next : Option Address)
  | take (next : Option Address)
  -- At the condition of the loop of `pop(count, timeout)`.
  | again
  deriving DecidableEq

/-- In `leaveInflightGuardFnc`. -/
inductive LeavePc where
  | count
  | load
  | take
  | detach (ptr : Address)
  | free (node : Option Address)
  deriving DecidableEq

/-- Where a thread is; `ticket` is the epoch index of its call. -/
inductive Pc (T : Type) where
  | idle
  | enter (op : Operation T) (at_ : EnterPc)
  | push (ticket : EpochIndex) (item : T) (at_ : PushPc)
  | pop (ticket : EpochIndex) (popping : Popping T) (at_ : PopPc)
  | leave (ticket : EpochIndex) (at_ : LeavePc)
  -- It followed a null pointer.
  | crashed (ticket : EpochIndex)
  deriving DecidableEq

def Operation.start {T : Type} (ticket : EpochIndex) : Operation T → Pc T
  | .push item => .push ticket item .count
  | .pop popping => .pop ticket popping .loadTail

-- ---------------------------------------------------------------------------
-- State
-- ---------------------------------------------------------------------------

/-- The chain of nodes, its two ends and the counters of the items. -/
structure Queue (T : Type) [Inhabited T] where
  head : Option Address := some 0
  tail : Address := 0
  next : Address → Option Address := fun _ => none
  data : Address → T := fun _ => default
  -- The nodes that have been allocated; the dummy is the first.
  allocated : Nat := 1
  outstandingItemCount : Int := 0
  totalPushCount : UInt64 := 0

/-- The epoch and the buckets of retired nodes. -/
structure Epochs where
  inFlightTotal : UInt64 := 0
  epochData : EpochData := {}
  inFlightCount : EpochIndex → Nat := fun _ => 0
  reclaimNode : EpochIndex → Option Address := fun _ => none
  retiredNext : Address → Option Address := fun _ => none

/-- Where a node is on its way out. -/
inductive Place (ι : Type) where
  -- Not unlinked.
  | live
  -- Unlinked by a thread that has not parked it yet.
  | held (t : ι)
  | bucket (index : EpochIndex)
  -- On a list that a thread has detached.
  | detached (t : ι)
  | freed
  deriving DecidableEq

structure History (ι T : Type) where
  -- The nodes that were linked, with their items, in order.
  links : List (Address × T) := []
  -- The nodes that were unlinked, in order.
  unlinked : List Address := []
  -- The removals of items: by which thread, and from which node.
  removals : List (ι × Address) := []
  -- The items that were handed to callers.
  delivered : List (ι × Address × T) := []
  -- The nodes a call has read a pointer to before they were unlinked.
  seen : ι → List Address := fun _ => []
  -- The nodes that were unlinked while a call was in its guard.
  during : ι → List Address := fun _ => []
  -- The buckets of the pops that unlinked a node while a call was in its guard.
  removing : ι → List EpochIndex := fun _ => []
  place : Address → Place ι := fun _ => .live
  freed : List Address := []

structure State (ι T : Type) [Inhabited T] where
  queue : Queue T := {}
  epochs : Epochs := {}
  pc : ι → Pc T := fun _ => .idle
  history : History ι T := {}

inductive Call (T : Type) where
  | push (item : T)
  | pop
  | popNoWait
  | popMany (count : Nat) (timeout : Int)

inductive Action (ι T : Type) where
  | call (t : ι) (call : Call T)
  | run (t : ι)
  -- A weak exchange fails spuriously.
  | casFails (t : ι)
  -- The time of a pop of several items is over.
  | timeout (t : ι)

/-- Between the count of `enterInflightGuardFnc` and that of `leaveInflightGuardFnc`. -/
def Pc.inGuard {T : Type} : Pc T → Bool
  | .push _ _ _ | .pop _ _ _ | .leave _ .count | .crashed _ => true
  | _ => false

-- ---------------------------------------------------------------------------
-- Steps
-- ---------------------------------------------------------------------------

section
variable {ι T : Type} [DecidableEq ι] [Inhabited T]

namespace State

def goto (s : State ι T) (t : ι) (pc : Pc T) : State ι T :=
  { s with pc := Function.update s.pc t pc }

/-- The thread reads a pointer to a node. -/
def see (s : State ι T) (t : ι) (ptr : Option Address) : State ι T :=
  let seen := ptr.toList.filter (· ∉ s.history.unlinked) ++ s.history.seen t
  { s with history := { s.history with seen := Function.update s.history.seen t seen } }

/-- The list of a bucket becomes a thread's own. -/
def detach (s : State ι T) (t : ι) (index : EpochIndex) : State ι T :=
  let place node := if s.history.place node = .bucket index then .detached t else s.history.place node
  { s with
    epochs := { s.epochs with reclaimNode := Function.update s.epochs.reclaimNode index none }
    history := { s.history with place } }

/-- `delete` of a retired node. -/
def free (s : State ι T) (node : Address) : State ι T :=
  { s with history := { s.history with
      freed := s.history.freed ++ [node]
      place := Function.update s.history.place node .freed } }

/-- `m_tail.compare_exchange_strong(last, next)` -/
def moveTail (s : State ι T) (last next : Address) : State ι T :=
  if s.queue.tail = last then { s with queue := { s.queue with tail := next } } else s

def runEnter (s : State ι T) (t : ι) (op : Operation T) : EnterPc → State ι T
  | .total =>
    { s with epochs := { s.epochs with inFlightTotal := s.epochs.inFlightTotal + 1 } }.goto t
      (.enter op (.load s.epochs.inFlightTotal))
  | .load total =>
    let ep := s.epochs.epochData
    s.goto t <|
      if epochTimeScale ≤ total - ep.inFlightTotal ∨ total < ep.inFlightTotal then
        .enter op (.swap total ep)
      else .enter op (.count (calcEpochIndex ep.id))
  | .swap total ep =>
    if s.epochs.epochData = ep then
      { s with epochs := { s.epochs with epochData := ⟨total, ep.id + 1⟩ } }.goto t
        (.enter op (.sweep (calcEpochIndex (ep.id + 1)) 0))
    else s.goto t (.enter op (.load total))
  | .sweep epochIndex index =>
    s.goto t <|
      if h : index < 50 then
        if epochIndex ≠ ⟨index, h⟩ ∧ s.epochs.inFlightCount ⟨index, h⟩ = 0 then
          .enter op (.sweepLoad epochIndex ⟨index, h⟩)
        else .enter op (.sweep epochIndex (index + 1))
      else .enter op (.count epochIndex)
  | .sweepLoad epochIndex index =>
    s.goto t <| match s.epochs.reclaimNode index with
      | none => .enter op (.sweep epochIndex (index + 1))
      | some ptr => .enter op (.sweepDetach epochIndex index ptr)
  | .sweepDetach epochIndex index ptr =>
    if s.epochs.reclaimNode index = some ptr then
      (s.detach t index).goto t (.enter op (.sweepFree epochIndex index (some ptr)))
    else s.goto t (.enter op (.sweep epochIndex index))
  | .sweepFree epochIndex index none => s.goto t (.enter op (.sweep epochIndex (index + 1)))
  | .sweepFree epochIndex index (some node) =>
    (s.free node).goto t (.enter op (.sweepFree epochIndex index (s.epochs.retiredNext node)))
  | .count epochIndex =>
    { s with epochs := { s.epochs with
        inFlightCount := Function.update s.epochs.inFlightCount epochIndex
          (s.epochs.inFlightCount epochIndex + 1) } }.goto t (op.start epochIndex)

def runPush (s : State ι T) (t : ι) (ticket : EpochIndex) (item : T) : PushPc → State ι T
  | .count =>
    { s with queue := { s.queue with
        data := Function.update s.queue.data s.queue.allocated item
        allocated := s.queue.allocated + 1
        outstandingItemCount := s.queue.outstandingItemCount + 1 } }.goto t
      (.push ticket item (.loadTail s.queue.allocated))
  | .loadTail new =>
    (s.see t s.queue.tail).goto t (.push ticket item (.loadNext new s.queue.tail))
  | .loadNext new last =>
    (s.see t (s.queue.next last)).goto t (.push ticket item (.recheck new last (s.queue.next last)))
  | .recheck new last next =>
    s.goto t <| .push ticket item <|
      if last = s.queue.tail then
        match next with
        | none => .link new last
        | some next => .help new last next
      else .loadTail new
  | .link new last =>
    if s.queue.next last = none then
      { s with
        queue := { s.queue with next := Function.update s.queue.next last (some new) }
        history := { s.history with links := s.history.links ++ [(new, item)] } }.goto t
        (.push ticket item (.swing new last))
    else s.goto t (.push ticket item (.loadTail new))
  | .help new last next => (s.moveTail last next).goto t (.push ticket item (.loadTail new))
  | .swing new last => (s.moveTail last new).goto t (.push ticket item .total)
  | .total =>
    { s with queue := { s.queue with totalPushCount := s.queue.totalPushCount + 1 } }.goto t
      (.leave ticket .count)

/-- Where `popOptional` returns to. -/
def popped (ticket : EpochIndex) (result : Option T) : Popping T → Pc T
  | .optional _ => .leave ticket .count
  | .many count timed res => .pop ticket (.many count timed (res ++ result.toList)) .again

/-- The head moves on, and its node is unlinked. -/
def unlink (s : State ι T) (t : ι) (ticket : EpochIndex) (first : Address) (next : Option Address) :
    State ι T :=
  let during u := if (s.pc u).inGuard then first :: s.history.during u else s.history.during u
  let removing u := if (s.pc u).inGuard then ticket :: s.history.removing u else s.history.removing u
  { s with
    queue := { s.queue with head := next }
    history := { s.history with
      unlinked := s.history.unlinked ++ [first]
      removals := s.history.removals ++ (next.map fun node => (t, node)).toList
      during
      removing
      place := Function.update s.history.place first (.held t) } }

def runPop (s : State ι T) (t : ι) (ticket : EpochIndex) (popping : Popping T) : PopPc → State ι T
  | .loadTail => (s.see t s.queue.tail).goto t (.pop ticket popping (.loadHead s.queue.tail))
  | .loadHead last => (s.see t s.queue.head).goto t (.pop ticket popping (.loadNext last s.queue.head))
  | .loadNext _ none => s.goto t (.crashed ticket)
  | .loadNext last (some first) =>
    (s.see t (s.queue.next first)).goto t
      (.pop ticket popping (.recheck last first (s.queue.next first)))
  | .recheck last first next =>
    s.goto t <|
      if s.queue.head = some first then
        if first = last then
          match next with
          | none => if popping.wait then .pop ticket popping (.spin last) else popped ticket none popping
          | some next => .pop ticket popping (.help last next)
        else .pop ticket popping (.swing first next)
      else .pop ticket popping .loadTail
  | .spin last => if s.queue.tail = last then s else s.goto t (.pop ticket popping .loadTail)
  | .help last next => (s.moveTail last next).goto t (.pop ticket popping .loadTail)
  | .swing first next =>
    if s.queue.head = some first then
      (s.unlink t ticket first next).goto t (.pop ticket popping (.retireLoad first next))
    else s.goto t (.pop ticket popping .loadTail)
  | .retireLoad first next =>
    s.goto t (.pop ticket popping (.retireStore first next (s.epochs.reclaimNode ticket)))
  | .retireStore first next top =>
    { s with epochs := { s.epochs with
        retiredNext := Function.update s.epochs.retiredNext first top } }.goto t
      (.pop ticket popping (.retireSwap first next top))
  | .retireSwap first next top =>
    if s.epochs.reclaimNode ticket = top then
      { s with
        epochs := { s.epochs with
          reclaimNode := Function.update s.epochs.reclaimNode ticket (some first) }
        history := { s.history with
          place := Function.update s.history.place first (.bucket ticket) } }.goto t
        (.pop ticket popping (.countDown next))
    else s.goto t (.pop ticket popping (.retireLoad first next))
  | .countDown next =>
    { s with queue := { s.queue with
        outstandingItemCount := s.queue.outstandingItemCount - 1 } }.goto t
      (.pop ticket popping (.take next))
  | .take none => s.goto t (.crashed ticket)
  | .take (some node) =>
    { s with history := { s.history with
        delivered := s.history.delivered ++ [(t, node, s.queue.data node)] } }.goto t
      (popped ticket (some (s.queue.data node)) popping)
  | .again =>
    s.goto t <| match popping with
      | .optional _ => .leave ticket .count
      | .many count _ res =>
        if res.length < count then .pop ticket popping .loadTail else .leave ticket .count

def runLeave (s : State ι T) (t : ι) (ticket : EpochIndex) : LeavePc → State ι T
  | .count =>
    { s with
      epochs := { s.epochs with
        inFlightCount := Function.update s.epochs.inFlightCount ticket
          (s.epochs.inFlightCount ticket - 1) }
      history := { s.history with
        seen := Function.update s.history.seen t []
        during := Function.update s.history.during t []
        removing := Function.update s.history.removing t [] } }.goto t <|
      if s.epochs.inFlightCount ticket = 1 then .leave ticket .load else .idle
  | .load =>
    s.goto t (if calcEpochIndex s.epochs.epochData.id ≠ ticket then .leave ticket .take else .idle)
  | .take =>
    s.goto t <| match s.epochs.reclaimNode ticket with
      | none => .idle
      | some ptr => .leave ticket (.detach ptr)
  | .detach ptr =>
    if s.epochs.reclaimNode ticket = some ptr then
      (s.detach t ticket).goto t (.leave ticket (.free (some ptr)))
    else s.goto t (.leave ticket .take)
  | .free none => s.goto t .idle
  | .free (some node) => (s.free node).goto t (.leave ticket (.free (s.epochs.retiredNext node)))

/-- The next step of a thread. -/
def run (s : State ι T) (t : ι) : Option (State ι T) :=
  match s.pc t with
  | .idle | .crashed _ => none
  | .enter op at_ => some (s.runEnter t op at_)
  | .push ticket item at_ => some (s.runPush t ticket item at_)
  | .pop ticket popping at_ => some (s.runPop t ticket popping at_)
  | .leave ticket at_ => some (s.runLeave t ticket at_)

/-- `pop(count, timeout)` asserts that the count is positive. -/
def operation : Call T → Option (Operation T)
  | .push item => some (.push item)
  | .pop => some (.pop (.optional true))
  | .popNoWait => some (.pop (.optional false))
  | .popMany count timeout =>
    if 0 < count then some (.pop (.many count (decide (timeout ≠ 0)) [])) else none

def step (s : State ι T) : Action ι T → Option (State ι T)
  | .call t call =>
    match s.pc t with
    | .idle => (operation call).map fun op => s.goto t (.enter op .total)
    | _ => none
  | .run t => s.run t
  | .casFails t =>
    match s.pc t with
    | .pop ticket popping (.swing _ _) => some (s.goto t (.pop ticket popping .loadTail))
    | _ => none
  | .timeout t =>
    match s.pc t with
    | .pop ticket (.many _ true _) .again => some (s.goto t (.leave ticket .count))
    | _ => none

-- ---------------------------------------------------------------------------
-- The destructor
-- ---------------------------------------------------------------------------

/-- The nodes that `freeNodeChain` frees. -/
def freeNodeChain (next : Address → Option Address) : Nat → Option Address → List Address
  | 0, _ | _, none => []
  | fuel + 1, some node => node :: freeNodeChain next fuel (next node)

/-- The nodes that the destructor frees, once every call has left. -/
def destroy (s : State ι T) : List Address :=
  freeNodeChain s.queue.next s.queue.allocated s.queue.head ++
  (List.finRange 50).flatMap fun index =>
    freeNodeChain s.epochs.retiredNext s.queue.allocated (s.epochs.reclaimNode index)

end State
end
end Dmn.BlockingQueueLf
