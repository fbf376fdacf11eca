import Dmn.DLock.Table
import Dmn.Lib.Transition

/-!
# The lock under any schedule

`Dmn_DLock` with its two mutexes, its condition variable and its atomic
shutdown flag. A thread is a client or the worker of an asynchronous request;
`run t` is the next step of a thread, `none` when it is blocked or idle. What
a thread does under `m_mutex` is cut where the code reads the flag or waits.
The wait set of `m_cv` is the set of threads whose place is `waiting`.
-/

namespace Dmn.DLock

inductive Tid (ι : Type) where
  | client (c : ι)
  | worker (n : Nat)
  deriving DecidableEq

structure Request where
  range : Range
  options : RequestOptions
  deriving DecidableEq

/-- An `acquireLock` past the generation of its request id. `derivedAt` is the
value of `m_next_sequence` at that time. -/
structure Acquire extends Request where
  requestId : String
  derivedAt : Nat
  deriving DecidableEq

/-- What the future of an asynchronous request receives. -/
inductive FutureResult where
  | value (result : Result)
  | exception
  deriving DecidableEq

/-- Where a thread is. -/
inductive Pc where
  | idle
  -- `acquireLock`, before it locks `m_mutex`.
  | acquire (r : Request)
  -- At the condition of the loop.
  | check (a : Acquire)
  -- In the loop, at the load of the flag.
  | flag (a : Acquire)
  -- At `m_cv.wait`, the mutex still held.
  | wait (a : Acquire)
  | waiting (a : Acquire)
  -- Notified, before it locks `m_mutex` again.
  | relock (a : Acquire)
  -- Past the loop, at the load of the flag.
  | flagAfter (a : Acquire)
  | grant (a : Acquire)
  | release (requestId : String)
  | asyncLock (r : Request)
  | asyncFlag (r : Request)
  -- In `reapCompletedAsyncWorkers`, at a worker.
  | asyncReap (r : Request) (index : Nat)
  | asyncJoin (r : Request) (index : Nat)
  | asyncSpawn (r : Request)
  -- A worker whose `acquireLock` returned, before it sets the promise.
  | promise (result : Result)
  -- Before it sets the completion.
  | complete
  | exiting
  | exited
  | destroyStore
  | destroyNotify
  | destroyLock
  | destroyWait (index : Nat)
  | destroyJoin (index : Nat)
  deriving DecidableEq

/-- A grant as its caller knows it. -/
structure Grant where
  requestId : String
  range : Range
  sequence : Nat
  fence : Nat
  deriving DecidableEq

structure State (ι : Type) where
  -- `m_config.m_domain`
  domain : String
  table : TableSnapshot
  shuttingDown : Bool := false
  mutex : Option (Tid ι) := none
  workersMutex : Option (Tid ι) := none
  -- The workers that have not been joined.
  asyncWorkers : List Nat := []
  pc : Tid ι → Pc := fun _ => .idle
  -- The destructor has been called.
  destroying : Bool := false
  -- The grants of the run, in order.
  grants : List Grant := []
  -- What the calls of `acquireLock` returned.
  returned : List Result := []
  -- The results each future received; a worker has the number of its future.
  futures : List (List FutureResult) := []

inductive Call where
  | acquireLock (r : Request)
  | acquireLockAsync (r : Request)
  | releaseLock (requestId : String)
  | destroy

inductive Action (ι : Type) where
  | call (c : ι) (call : Call)
  | run (t : Tid ι)
  -- `acquireLockAsync` fails to start its worker.
  | execFails (t : Tid ι)
  | spuriousWakeUp (t : Tid ι)

section
variable {ι : Type} [DecidableEq ι]

namespace State

def construct (domain : String) : State ι where
  domain := domain
  table := { domain := domain, schemaVersion := 1, protocolVersion := 1 }

def goto (s : State ι) (t : Tid ι) (pc : Pc) : State ι :=
  { s with pc := Function.update s.pc t pc }

def wake : Pc → Pc
  | .waiting a => .relock a
  | pc => pc

/-- `m_cv.notify_all()` -/
def notifyAll (s : State ι) : State ι := { s with pc := fun t => wake (s.pc t) }

/-- `acquireLock` returns; a worker goes on to its promise. -/
def return_ (s : State ι) (t : Tid ι) (result : Result) : State ι :=
  { s with returned := s.returned ++ [result] }.goto t <|
    match t with
    | .client _ => .idle
    | .worker _ => .promise result

def unlock (s : State ι) : State ι := { s with mutex := none }

def requestIdFor (s : State ι) (r : Request) : String :=
  if r.options.requestId = "" then "req-" ++ toString (next s.table.nextSequence)
  else r.options.requestId

def grantedEntry (s : State ι) (a : Acquire) : Entry where
  domain := s.domain
  requestId := a.requestId
  sessionId := "session-" ++ a.requestId
  ownerId := a.requestId
  range := a.range
  priority := 1
  sequence := next s.table.nextSequence
  fence := next s.table.nextFencingToken
  state := .granted
  terminalReason := .none
  acquireDeadlineTicks := 0
  leaseDeadlineTicks := a.options.leaseTicks
  waiting := false
  granted := true

/-- The end of `acquireLock`: the entry goes into the table. -/
def grant (s : State ι) (t : Tid ι) (a : Acquire) : State ι :=
  let entry := s.grantedEntry a
  let candidate := s.table.withCandidate entry
  if candidate.entries.isEmpty then
    s.unlock.return_ t ⟨.conflict, a.range, a.requestId, "range already unavailable"⟩
  else
    { s with
      table := { candidate with nextSequence := entry.sequence, nextFencingToken := entry.fence }
      grants := s.grants ++ [Grant.mk a.requestId a.range entry.sequence entry.fence]
      }.notifyAll.unlock.return_ t ⟨.ok, a.range, a.requestId, "granted"⟩

/-- The entry `releaseLock` finds, and the entries it leaves. -/
def removeRequest (requestId : String) (entries : List Entry) : Option (Entry × List Entry) :=
  (entries.find? (·.requestId == requestId)).map fun e =>
    (e, entries.eraseP (·.requestId == requestId))

def setEntries (s : State ι) (entries : List Entry) : State ι :=
  { s with table := { s.table with entries } }

def release (s : State ι) (t : Tid ι) (requestId : String) : State ι :=
  match removeRequest requestId s.table.entries with
  | none => s.goto t .idle
  | some (_, entries) => (s.setEntries entries).notifyAll.goto t .idle

def resolve (s : State ι) (n : Nat) (result : FutureResult) : State ι :=
  { s with futures := s.futures.modify n (· ++ [result]) }

/-- The worker's completion future is ready. -/
def completed (s : State ι) (n : Nat) : Bool :=
  match s.pc (.worker n) with
  | .exiting | .exited => true
  | _ => false

/-- The next step of a thread. -/
def run (s : State ι) (t : Tid ι) : Option (State ι) :=
  match s.pc t with
  | .idle => none
  | .acquire r =>
    if !r.range.isValid then
      some (s.return_ t ⟨.invalidRange, r.range, r.options.requestId, "invalid range"⟩)
    else if s.mutex.isSome then none
    else some ({ s with mutex := some t }.goto t
      (.check ⟨r, s.requestIdFor r, s.table.nextSequence⟩))
  | .check a =>
    some (s.goto t (if s.table.isGrantedForRange a.range then .flag a else .flagAfter a))
  | .flag a =>
    if s.shuttingDown then
      some (s.unlock.return_ t ⟨.shutdown, a.range, a.requestId, "lock is shutting down"⟩)
    else if !a.options.wait || a.options.noWait then
      some (s.unlock.return_ t ⟨.noWait, a.range, a.requestId, "range is already granted"⟩)
    else some (s.goto t (.wait a))
  | .wait a => some (s.unlock.goto t (.waiting a))
  | .waiting _ => none
  | .relock a => if s.mutex.isSome then none else some ({ s with mutex := some t }.goto t (.check a))
  | .flagAfter a =>
    if s.shuttingDown then
      some (s.unlock.return_ t ⟨.shutdown, a.range, a.requestId, "lock is shutting down"⟩)
    else some (s.goto t (.grant a))
  | .grant a => some (s.grant t a)
  | .release requestId => if s.mutex.isSome then none else some (s.release t requestId)
  | .asyncLock r =>
    if s.workersMutex.isSome then none
    else some ({ s with workersMutex := some t }.goto t (.asyncFlag r))
  | .asyncFlag r =>
    if s.shuttingDown then
      some ({ s with
        workersMutex := none
        futures := s.futures ++ [[FutureResult.value
          ⟨.shutdown, r.range, r.options.requestId, "lock is shutting down"⟩]] }.goto t .idle)
    else some (s.goto t (.asyncReap r 0))
  | .asyncReap r index =>
    match s.asyncWorkers[index]? with
    | none => some (s.goto t (.asyncSpawn r))
    | some n => some (s.goto t (if s.completed n then .asyncJoin r index else .asyncReap r (index + 1)))
  | .asyncJoin r index =>
    match s.asyncWorkers[index]? with
    | none => none
    | some n =>
      if s.pc (.worker n) = .exited then
        some ({ s with asyncWorkers := s.asyncWorkers.eraseIdx index }.goto t (.asyncReap r index))
      else none
  | .asyncSpawn r =>
    some (({ s with
      workersMutex := none
      asyncWorkers := s.asyncWorkers ++ [s.futures.length]
      futures := s.futures ++ [[]] }.goto (.worker s.futures.length) (.acquire r)).goto t .idle)
  | .promise result =>
    match t with
    | .client _ => none
    | .worker n => some ((s.resolve n (.value result)).goto t .complete)
  | .complete => some (s.goto t .exiting)
  | .exiting => some (s.goto t .exited)
  | .exited => none
  | .destroyStore => some ({ s with shuttingDown := true }.goto t .destroyNotify)
  | .destroyNotify => some (s.notifyAll.goto t .destroyLock)
  | .destroyLock =>
    if s.workersMutex.isSome then none
    else some ({ s with workersMutex := some t }.goto t (.destroyWait 0))
  | .destroyWait index =>
    match s.asyncWorkers[index]? with
    | none => some ({ s with workersMutex := none, asyncWorkers := [] }.goto t .idle)
    | some n => if s.completed n then some (s.goto t (.destroyJoin index)) else none
  | .destroyJoin index =>
    match s.asyncWorkers[index]? with
    | none => none
    | some n =>
      if s.pc (.worker n) = .exited then some (s.goto t (.destroyWait (index + 1))) else none

/-- `acquireLockAsync` takes its worker back and fails the future. -/
def execFails (s : State ι) (t : Tid ι) : Option (State ι) :=
  match s.pc t with
  | .asyncSpawn _ =>
    some ({ s with workersMutex := none, futures := s.futures ++ [[FutureResult.exception]] }.goto t .idle)
  | _ => none

/-- A client between two calls makes the next one; none does once the
destructor has been called. -/
def call (s : State ι) (c : ι) : Call → Option (State ι)
  | .acquireLock r => enter (.acquire r)
  | .acquireLockAsync r => enter (.asyncLock r)
  | .releaseLock requestId => enter (.release requestId)
  | .destroy => (enter .destroyStore).map fun s => { s with destroying := true }
where
  enter (pc : Pc) : Option (State ι) :=
    if s.pc (.client c) = .idle ∧ s.destroying = false then some (s.goto (.client c) pc) else none

def step (s : State ι) : Action ι → Option (State ι)
  | .call c op => s.call c op
  | .run t => s.run t
  | .execFails t => s.execFails t
  | .spuriousWakeUp t =>
    match s.pc t with
    | .waiting a => some (s.goto t (.relock a))
    | _ => none

end State
end
end Dmn.DLock
