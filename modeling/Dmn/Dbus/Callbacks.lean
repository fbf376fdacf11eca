import Dmn.Lib.Transition
import Mathlib

/-!
# The queue of signal callbacks

`filterMessage` on the dispatch worker, `callbackLoop`, `drainSignalCallbacks`
and the end of `shutdown`, step by step. A section under `m_callbackMutex` is
one step, but for a wait: a thread has the mutex between its look at the
predicate and its way into the wait set. Whom `notify_one` wakes is open, and
so is what the dispatch worker receives. A callback that throws ends like any
other one.
-/

namespace Dmn.Dbus

open Dmn.Lib

/-- A signal that is decoded, and who gets it. -/
structure Signal (κ α : Type) where
  callbacks : List κ
  matched : callbacks ≠ []
  content : α
  bytes : Nat

/-- A `QueuedSignal` without a completion. -/
structure Entry (κ α : Type) where
  callback : κ
  content : α
  bytes : Nat

def Signal.entries {κ α : Type} (signal : Signal κ α) : List (Entry κ α) :=
  signal.callbacks.map fun callback => ⟨callback, signal.content, signal.bytes⟩

/-- The promise of a call of `drainSignalCallbacks`, and how many callbacks had been queued before it. -/
structure Promise where
  id : Nat
  mark : Nat
  deriving DecidableEq

/-- `QueuedSignal` -/
inductive QueuedSignal (κ α : Type)
  | signal (entry : Entry κ α)
  | marker (completion : Promise)

def signals {κ α : Type} : List (QueuedSignal κ α) → List (Entry κ α)
  | [] => []
  | .signal entry :: queue => entry :: signals queue
  | .marker _ :: queue => signals queue

def markers {κ α : Type} : List (QueuedSignal κ α) → List Promise
  | [] => []
  | .signal _ :: queue => markers queue
  | .marker completion :: queue => completion :: markers queue

structure SignalLimits where
  maxSignalMessages : Nat := 256
  maxSignalBytes : Nat := 16 * 1024 * 1024

/-- Where the callback worker is. -/
inductive WorkerPc (κ α : Type)
  | locks
  -- Its predicate was false, and it has the mutex.
  | parks
  | waits
  | runs (entry : Entry κ α)
  | completes (completion : Promise)
  | done

inductive DispatchPc (κ α : Type)
  -- It is going to look at `m_stopping`.
  | loops
  | dispatches
  | admits (signal : Signal κ α)
  | done

/-- Where a caller of `drainSignalCallbacks` is. -/
inductive CallerPc
  | idle
  | calls
  -- It wants `m_callbackDrainMutex`.
  | wants
  | locks
  | parks
  | waits
  | notifies (completion : Promise)
  | awaits (completion : Promise)
  -- With success, or because of the shutdown.
  | returned (drained : Option Promise)
  deriving DecidableEq

/-- Where the first call of `shutdown` is, from `m_stopping` on. -/
inductive ShutdownPc
  | idle
  | stores
  | notifies
  | joinsDispatch
  | joinsCallbacks
  | returned
  deriving DecidableEq

namespace WorkerPc

variable {κ α : Type}

def waiting : WorkerPc κ α → Bool
  | .waits => true
  | _ => false

def parking : WorkerPc κ α → Bool
  | .parks => true
  | _ => false

def isDone : WorkerPc κ α → Bool
  | .done => true
  | _ => false

def running : WorkerPc κ α → Nat
  | .runs _ => 1
  | _ => 0

def wake : WorkerPc κ α → WorkerPc κ α
  | .waits => .locks
  | pc => pc

end WorkerPc

namespace CallerPc

/-- It has `m_callbackDrainMutex`. -/
def draining : CallerPc → Bool
  | .locks | .parks | .waits | .notifies _ | .awaits _ => true
  | _ => false

def wake : CallerPc → CallerPc
  | .waits => .locks
  | pc => pc

end CallerPc

/-- A thread that waits for `m_callbackCondition`. -/
inductive Waiter (ι : Type)
  | worker
  | caller (call : ι)

structure Callbacks (ι κ α : Type) where
  queue : List (QueuedSignal κ α) := []
  queuedSignalBytes : Nat := 0
  droppedSignalMessages : Nat := 0
  droppedSignalBytes : Nat := 0
  shutdownDiscardedSignalMessages : Nat := 0
  shutdownDiscardedSignalBytes : Nat := 0
  stopping : Bool := false
  completed : List Promise := []
  nextPromise : Nat := 0
  worker : WorkerPc κ α := .locks
  dispatch : DispatchPc κ α := .loops
  caller : ι → CallerPc := fun _ => .idle
  shutdown : ShutdownPc := .idle
  -- The signals that have been decoded, and whether they were queued.
  arrived : List (Signal κ α × Bool) := []
  -- What the callback worker has taken out.
  handed : List (Entry κ α) := []
  -- How many callbacks have returned.
  finished : Nat := 0

namespace Callbacks

variable {ι κ α : Type}

inductive Action (ι κ α : Type)
  | worker
  -- The loop of the dispatch worker.
  | loop
  -- Nothing is dispatched that is decoded and matches.
  | poll
  | receive (signal : Signal κ α)
  | disconnect
  | enter (woken : Option (Waiter ι))
  -- `drainSignalCallbacks` is called.
  | call (call : ι)
  | drain (call : ι)
  | notify (call : ι) (woken : Option (Waiter ι))
  -- A thread wakes by itself.
  | spurious (waiter : Waiter ι)
  -- The first call of `shutdown`.
  | shutdown
  | stop

/-- The entries of every signal that was queued, in order. -/
def queued (s : Callbacks ι κ α) : List (Entry κ α) := (s.arrived.filter (·.2)).flatMap (·.1.entries)

/-- The signals that were not queued. -/
def dropped (s : Callbacks ι κ α) : List (Signal κ α) := (s.arrived.filter (!·.2)).map (·.1)

-- ---------------------------------------------------------------------------
-- The condition variable
-- ---------------------------------------------------------------------------

def isWaiting (s : Callbacks ι κ α) : Waiter ι → Bool
  | .worker => s.worker.waiting
  | .caller call => s.caller call = .waits

def wakeAll (s : Callbacks ι κ α) : Callbacks ι κ α :=
  { s with worker := s.worker.wake, caller := fun call => (s.caller call).wake }

variable [DecidableEq ι]

def move (s : Callbacks ι κ α) (call : ι) (pc : CallerPc) : Callbacks ι κ α :=
  { s with caller := Function.update s.caller call pc }

def wake (s : Callbacks ι κ α) : Waiter ι → Callbacks ι κ α
  | .worker => { s with worker := s.worker.wake }
  | .caller call => s.move call (s.caller call).wake

variable [Fintype ι]

/-- `notify_one` wakes a thread that waits, if there is one. -/
def notifyOne (s : Callbacks ι κ α) : Option (Waiter ι) → Option (Callbacks ι κ α)
  | none => if s.worker.waiting = false ∧ ∀ call, s.caller call ≠ .waits then some s else none
  | some waiter => if s.isWaiting waiter then some (s.wake waiter) else none

/-- `m_callbackMutex` is free. -/
def Unlocked (s : Callbacks ι κ α) : Prop := s.worker.parking = false ∧ ∀ call, s.caller call ≠ .parks

instance (s : Callbacks ι κ α) : Decidable s.Unlocked :=
  inferInstanceAs (Decidable (s.worker.parking = false ∧ ∀ call, s.caller call ≠ .parks))

-- ---------------------------------------------------------------------------
-- Sections
-- ---------------------------------------------------------------------------

/-- The admission test of `filterMessage`. -/
def rejects (limits : SignalLimits) (s : Callbacks ι κ α) (signal : Signal κ α) : Bool :=
  limits.maxSignalMessages - min (signals s.queue).length limits.maxSignalMessages < signal.callbacks.length ||
    (limits.maxSignalBytes - min s.queuedSignalBytes limits.maxSignalBytes) / signal.callbacks.length <
    signal.bytes

def drop (s : Callbacks ι κ α) (signal : Signal κ α) : Callbacks ι κ α :=
  { s with
    droppedSignalMessages := s.droppedSignalMessages + 1
    droppedSignalBytes := s.droppedSignalBytes + signal.bytes
    arrived := s.arrived ++ [(signal, false)] }

def enqueue (s : Callbacks ι κ α) (signal : Signal κ α) : Callbacks ι κ α :=
  { s with
    queue := s.queue ++ signal.entries.map .signal
    queuedSignalBytes := s.queuedSignalBytes + (signal.entries.map (·.bytes)).sum
    arrived := s.arrived ++ [(signal, true)] }

/-- The callback worker ends. -/
def discard (s : Callbacks ι κ α) : Callbacks ι κ α :=
  { s with
    shutdownDiscardedSignalMessages := s.shutdownDiscardedSignalMessages + (signals s.queue).length
    shutdownDiscardedSignalBytes := s.shutdownDiscardedSignalBytes + s.queuedSignalBytes
    queuedSignalBytes := 0, completed := s.completed ++ markers s.queue, queue := [], worker := .done }

/-- The callback worker takes the front of the queue, and notifies all. -/
def pop (s : Callbacks ι κ α) (queue : List (QueuedSignal κ α)) : QueuedSignal κ α → Callbacks ι κ α
  | .signal entry =>
    { s.wakeAll with
      queue, queuedSignalBytes := s.queuedSignalBytes - entry.bytes, worker := .runs entry, handed :=
        s.handed ++ [entry] }
  | .marker completion => { s.wakeAll with queue, worker := .completes completion }

/-- The marker of a call is queued. -/
def push (s : Callbacks ι κ α) (call : ι) : Callbacks ι κ α :=
  let completion : Promise := ⟨s.nextPromise, s.queued.length⟩
  { s.move call (.notifies completion) with
    queue := s.queue ++ [.marker completion], nextPromise := s.nextPromise + 1 }

-- ---------------------------------------------------------------------------
-- Steps
-- ---------------------------------------------------------------------------

/-- The next step of `callbackLoop`. -/
def runWorker (s : Callbacks ι κ α) : Option (Callbacks ι κ α) :=
  match s.worker with
  | .locks =>
    if s.Unlocked then
      if s.stopping then some s.discard
      else
        match s.queue with
        | [] => some { s with worker := .parks }
        | signal :: queue => some (s.pop queue signal)
    else none
  | .parks => some { s with worker := .waits }
  | .waits => none
  | .runs _ => some { s with worker := .locks, finished := s.finished + 1 }
  | .completes completion => some { s with worker := .locks, completed := s.completed ++ [completion] }
  | .done => none

/-- The next step of `drainSignalCallbacks`. -/
def runCaller (limits : SignalLimits) (s : Callbacks ι κ α) (call : ι) : Option (Callbacks ι κ α) :=
  match s.caller call with
  | .calls => if s.Unlocked then some (s.move call .wants) else none
  | .wants => if ∀ other, (s.caller other).draining = false then some (s.move call .locks) else none
  | .locks =>
    if s.Unlocked then
      if s.stopping then some (s.move call (.returned none))
      else if (signals s.queue).length < limits.maxSignalMessages ∨
          (signals s.queue).length = 0 ∧ limits.maxSignalMessages = 0 then some (s.push call)
      else some (s.move call .parks)
    else none
  | .parks => some (s.move call .waits)
  | .awaits completion =>
    if completion ∈ s.completed then
      some (s.move call (.returned (if s.stopping then none else some completion)))
    else none
  | .idle | .waits | .notifies _ | .returned _ => none

/-- The next step of `shutdown`. -/
def runShutdown (s : Callbacks ι κ α) : Option (Callbacks ι κ α) :=
  match s.shutdown with
  | .stores => some { s with stopping := true, shutdown := .notifies }
  | .notifies => some { s.wakeAll with shutdown := .joinsDispatch }
  | .joinsDispatch => match s.dispatch with
    | .done => some { s with shutdown := .joinsCallbacks }
    | _ => none
  | .joinsCallbacks => if s.worker.isDone then some { s with shutdown := .returned } else none
  | .idle | .returned => none

/-- The admission of a signal. -/
def runAdmit (limits : SignalLimits) (s : Callbacks ι κ α) (woken : Option (Waiter ι)) :
    Option (Callbacks ι κ α) :=
  match s.dispatch with
  | .admits signal =>
    if s.Unlocked then
      if s.rejects limits signal then some { s.drop signal with dispatch := .loops }
      else { s.enqueue signal with dispatch := .loops }.notifyOne woken
    else none
  | _ => none

def step (limits : SignalLimits) (s : Callbacks ι κ α) : Action ι κ α → Option (Callbacks ι κ α)
  | .worker => s.runWorker
  | .loop => match s.dispatch with
    | .loops => some { s with dispatch := if s.stopping then .done else .dispatches }
    | _ => none
  | .poll => match s.dispatch with
    | .dispatches => some { s with dispatch := .loops }
    | _ => none
  | .receive signal => match s.dispatch with
    | .dispatches => some { s with dispatch := .admits signal }
    | _ => none
  | .disconnect => match s.dispatch with
    | .dispatches => some { s with dispatch := .done }
    | _ => none
  | .enter woken => s.runAdmit limits woken
  | .call call => match s.caller call with
    | .idle | .returned _ => some (s.move call .calls)
    | _ => none
  | .drain call => s.runCaller limits call
  | .notify call woken => match s.caller call with
    | .notifies completion => (s.move call (.awaits completion)).notifyOne woken
    | _ => none
  | .spurious waiter => if s.isWaiting waiter then some (s.wake waiter) else none
  | .shutdown => match s.shutdown with
    | .idle => some { s with shutdown := .stores }
    | _ => none
  | .stop => s.runShutdown

end Callbacks
end Dmn.Dbus
