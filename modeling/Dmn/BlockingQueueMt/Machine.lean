import Dmn.Lib.Transition
import Mathlib.Data.Fintype.Basic

/-!
# The mutex queue under any schedule

`Dmn_BlockingQueue_Mt` with its mutex, its two condition variables, the atomic
shutdown flag and the in-flight gate. A call of a thread is cut where it locks
the mutex, reads the flag, waits or notifies; `run t` is the next step of a
thread, and `notify t pick` the next step where it is a `notify_one` that
removes `pick`.
-/

namespace Dmn.BlockingQueueMt

/-- What a call on `m_not_empty_cond` waits for. -/
inductive Wanted where
  | one
  | many (count : Nat) (timeout : Int)
  deriving DecidableEq

def Wanted.count : Wanted → Nat
  | .one => 1
  | .many count _ => count

def Wanted.timed : Wanted → Bool
  | .one => false
  | .many _ timeout => 0 < timeout

/-- What a call returns or throws. -/
inductive Reply (T : Type) where
  | pushed
  | item (ret : Option T)
  | items (ret : List T)
  | inbound (count : UInt64)
  | shutDown
  -- `pop` without data.
  | interrupted
  -- The gate is closed.
  | closed
  deriving DecidableEq

/-- The calls that take a ticket of the in-flight gate. -/
inductive Guarded (T : Type) where
  | push (item : T)
  | popOptional (wait : Bool)
  | popMany (count : Nat) (timeout : Int)
  deriving DecidableEq

/-- Where a thread is. -/
inductive Pc (T : Type) where
  | idle
  -- In the constructor of the ticket, at the first test of the flag.
  | gateTest (call : Guarded T)
  | gateCount (call : Guarded T)
  | gateRetest (call : Guarded T)
  | gateUndo (call : Guarded T)
  -- Before it locks `m_mutex`.
  | lock (call : Guarded T)
  -- In `popOptional`, with the mutex and the ticket.
  | popFront (wait : Bool)
  -- At the predicate of the wait.
  | check (wanted : Wanted) (woken : Bool)
  -- The predicate was false, the mutex is still held.
  | wait (wanted : Wanted)
  | waiting (wanted : Wanted)
  -- Notified or timed out, before it locks `m_mutex` again.
  | relock (wanted : Wanted) (timedOut : Bool)
  | take (wanted : Wanted)
  -- Past the unlock, before it notifies.
  | notify (empty : Bool) (reply : Reply T)
  -- Before the ticket is given back.
  | leave (reply : Reply T)
  | emptyLock
  | emptyCheck
  | emptyWait
  | emptyWaiting
  | shutdownSet
  | shutdownNotifyEmpty
  | shutdownNotify
  | shutdownDrain
  -- It read the front of an empty queue.
  | crashed
  deriving DecidableEq

structure State (ι T : Type) where
  queue : List T := []
  mutex : Option ι := none
  shutdownFlag : Bool := false
  pushCount : UInt64 := 0
  popCount : UInt64 := 0
  -- The tickets that are held.
  inflightCount : Nat := 0
  pc : ι → Pc T := fun _ => .idle
  -- The assertion of `waitForEmpty` has failed.
  assertFailed : Bool := false
  -- What the calls returned, in order.
  returned : List (ι × Reply T) := []

inductive Call (T : Type) where
  | push (item : T)
  | pop
  | popNoWait
  | popMany (count : Nat) (timeout : Int)
  | waitForEmpty
  | shutdown

inductive Action (ι T : Type) where
  | call (t : ι) (call : Call T)
  | run (t : ι)
  | notify (t : ι) (pick : Option ι)
  | timeout (t : ι)
  | spuriousWakeUp (t : ι)

namespace Pc

variable {T : Type}

/-- In the wait set of `m_not_empty_cond`. -/
def isWaiting : Pc T → Bool
  | .waiting _ => true
  | _ => false

/-- Removed from the wait set of `m_not_empty_cond`. -/
def wakeNotEmpty : Pc T → Pc T
  | .waiting wanted => .relock wanted false
  | pc => pc

/-- Removed from the wait set of `m_empty_cond`. -/
def wakeEmpty : Pc T → Pc T
  | .emptyWaiting => .emptyLock
  | pc => pc

end Pc

section
variable {ι T : Type} [DecidableEq ι]

namespace State

def goto (s : State ι T) (t : ι) (pc : Pc T) : State ι T :=
  { s with pc := Function.update s.pc t pc }

/-- `m_empty_cond.notify_all()` -/
def notifyAllEmpty (s : State ι T) : State ι T := { s with pc := fun t => (s.pc t).wakeEmpty }

/-- `m_not_empty_cond.notify_all()` -/
def notifyAllNotEmpty (s : State ι T) : State ι T :=
  { s with pc := fun t => (s.pc t).wakeNotEmpty }

/-- `m_not_empty_cond.notify_one()`: a waiter, or no one if no one waits. -/
def notifyOne [Fintype ι] (s : State ι T) : Option ι → Option (State ι T)
  | some u => if (s.pc u).isWaiting then some (s.goto u (s.pc u).wakeNotEmpty) else none
  | none => if ∃ u, (s.pc u).isWaiting then none else some s

def unlock (s : State ι T) : State ι T := { s with mutex := none }

def return_ (s : State ι T) (t : ι) (reply : Reply T) : State ι T :=
  { s with returned := s.returned ++ [(t, reply)] }.goto t .idle

/-- The constructor of the ticket throws; `popOptional` unlocks on the way out. -/
def refuse (s : State ι T) (t : ι) : Guarded T → State ι T
  | .push _ | .popMany _ _ => s.return_ t .closed
  | .popOptional _ => s.unlock.return_ t .closed

/-- The end of a pop: the mutex is unlocked once it is known whether the queue is empty. -/
def finish (s : State ι T) (t : ι) (reply : Reply T) : State ι T :=
  s.unlock.goto t (.notify s.queue.isEmpty reply)

/-- `pop` throws when it gets no data. -/
def itemReply (wait : Bool) (ret : Option T) : Reply T :=
  if wait && ret.isNone then .interrupted else .item ret

/-- `m_queue.front()` and `pop_front()`. -/
def popped (s : State ι T) (rest : List T) : State ι T :=
  { s with queue := rest, popCount := s.popCount + 1 }

/-- The next step of a thread, if it is not a `notify_one`. -/
def run (s : State ι T) (t : ι) : Option (State ι T) :=
  match s.pc t with
  | .idle => none
  | .gateTest call => some (if s.shutdownFlag then s.refuse t call else s.goto t (.gateCount call))
  | .gateCount call =>
    some ({ s with inflightCount := s.inflightCount + 1 }.goto t (.gateRetest call))
  | .gateRetest call =>
    some (s.goto t <|
      if s.shutdownFlag then .gateUndo call
      else match call with
        | .push _ | .popMany _ _ => .lock call
        | .popOptional wait => .popFront wait)
  | .gateUndo call => some ({ s with inflightCount := s.inflightCount - 1 }.refuse t call)
  | .lock call =>
    if s.mutex.isSome then none
    else some <| match call with
      | .push item =>
        { s with queue := s.queue ++ [item], pushCount := s.pushCount + 1 }.goto t
          (.notify false .pushed)
      | .popOptional _ => { s with mutex := some t }.goto t (.gateTest call)
      | .popMany count timeout => { s with mutex := some t }.goto t (.check (.many count timeout) false)
  | .popFront wait =>
    some <| match s.queue with
      | x :: rest => (s.popped rest).finish t (itemReply wait (some x))
      | [] => if wait then s.goto t (.check .one false) else s.finish t (itemReply wait none)
  | .check wanted _ =>
    some (s.goto t <| if wanted.count ≤ s.queue.length ∨ s.shutdownFlag then .take wanted else .wait wanted)
  | .wait wanted => some (s.unlock.goto t (.waiting wanted))
  | .waiting _ => none
  | .relock wanted timedOut =>
    if s.mutex.isSome then none
    else some ({ s with mutex := some t }.goto t <|
      if timedOut then .take wanted else .check wanted true)
  | .take .one =>
    some <| if s.shutdownFlag then s.finish t (itemReply true none)
      else match s.queue with
        | x :: rest => (s.popped rest).finish t (itemReply true (some x))
        | [] => s.goto t .crashed
  | .take (.many count _) =>
    let ret := s.queue.take count
    some ({ s with
      queue := s.queue.drop count
      popCount := s.popCount + UInt64.ofNat ret.length }.finish t (.items ret))
  | .notify true reply => some (s.notifyAllEmpty.goto t (.leave reply))
  | .notify false _ => none
  | .leave reply => some ({ s with inflightCount := s.inflightCount - 1 }.return_ t reply)
  | .emptyLock =>
    if s.mutex.isSome then none else some ({ s with mutex := some t }.goto t .emptyCheck)
  | .emptyCheck =>
    some <| if s.queue.isEmpty ∨ s.shutdownFlag then
        { s with assertFailed := s.assertFailed || s.popCount != s.pushCount }.unlock.return_ t
          (.inbound s.popCount)
      else s.goto t .emptyWait
  | .emptyWait => some (s.unlock.goto t .emptyWaiting)
  | .emptyWaiting => none
  | .shutdownSet => some ({ s with shutdownFlag := true }.goto t .shutdownNotifyEmpty)
  | .shutdownNotifyEmpty => some (s.notifyAllEmpty.goto t .shutdownNotify)
  | .shutdownNotify => some (s.notifyAllNotEmpty.goto t .shutdownDrain)
  | .shutdownDrain => if s.inflightCount = 0 then some (s.return_ t .shutDown) else none
  | .crashed => none

/-- The step of a thread that is a `notify_one`. -/
def notify [Fintype ι] (s : State ι T) (t : ι) (pick : Option ι) : Option (State ι T) :=
  match s.pc t with
  | .notify false reply => (s.notifyOne pick).map fun s => s.goto t (.leave reply)
  | _ => none

/-- `pop(count, timeout)` asserts that the count is positive. -/
def entry : Call T → Option (Pc T)
  | .push item => some (.gateTest (.push item))
  | .pop => some (.lock (.popOptional true))
  | .popNoWait => some (.lock (.popOptional false))
  | .popMany count timeout => if 0 < count then some (.gateTest (.popMany count timeout)) else none
  | .waitForEmpty => some .emptyLock
  | .shutdown => some .shutdownSet

def step [Fintype ι] (s : State ι T) : Action ι T → Option (State ι T)
  | .call t call =>
    match s.pc t with
    | .idle => (entry call).map (s.goto t)
    | _ => none
  | .run t => s.run t
  | .notify t pick => s.notify t pick
  | .timeout t =>
    match s.pc t with
    | .waiting wanted | .relock wanted false =>
      if wanted.timed then some (s.goto t (.relock wanted true)) else none
    | _ => none
  | .spuriousWakeUp t =>
    match s.pc t with
    | .waiting wanted => some (s.goto t (.relock wanted false))
    | .emptyWaiting => some (s.goto t .emptyLock)
    | _ => none

end State
end
end Dmn.BlockingQueueMt
