import Dmn.Lib.Transition

/-!
# Runtime states

`Dmn_Runtime_State` and `Dmn_Runtime_State_Manager` step by step: `run`,
`cancel` and `shutdown` on any threads, and `executeStateStep` on the async
thread. A section under a mutex is one step, and so are a hook, a callback and
the posting of a job, which may throw. Which of the posted jobs is dispatched
next is open, since they have priorities and delays.
-/

namespace Dmn.RuntimeState

open Dmn.Lib

inductive TerminalState
  | kCompleted
  | kFailed
  | kCancelled
  deriving DecidableEq

/-- The members of a state. -/
structure Life where
  -- How many user callbacks there are; `m_states` has one more slot.
  callbacks : Nat
  next : Nat := 0
  initialized : Bool := false
  finalized : Bool := false
  queued : Bool := false
  running : Bool := false
  started : Bool := false
  completed : Bool := false
  failed : Bool := false
  cancelled : Bool := false
  terminal : Bool := false
  deriving DecidableEq

namespace Life

-- ---------------------------------------------------------------------------
-- Dmn_State
-- ---------------------------------------------------------------------------

/-- `m_states.size()` -/
def size (l : Life) : Nat := l.callbacks + 1

def hasStateFncs (l : Life) : Bool := decide (1 < l.size)

def init (l : Life) : Life := { l with next := 1, initialized := true }

def finalize (l : Life) : Life := { l with finalized := true }

def setEnd (l : Life) : Life := { l with next := l.size }

/-- `runNext` up to the callback, and whether it calls one. -/
def runNext (l : Life) : Life × Bool :=
  if l.finalized then (l, false)
  else if l.size ≤ l.next then (l.finalize, false)
  else
    let l := if l.initialized then l else l.init
    if l.size ≤ l.next then (l.finalize, false) else (l, true)

/-- `runNext` after its callback has returned, with what the callback has selected. -/
def runNextReturn (l : Life) (next : Nat) : Life × Bool :=
  let l := { l with next }
  let l := if l.size ≤ l.next then l.finalize else l
  (l, l.hasStateFncs && !l.finalized)

-- ---------------------------------------------------------------------------
-- Dmn_Runtime_State
-- ---------------------------------------------------------------------------

/-- The section of `run`. -/
def submit (l : Life) : Option Life :=
  if !l.hasStateFncs then none
  else if l.terminal || l.cancelled || l.queued then none
  else some { l with queued := true }

/-- The section of `cancel`, and `completeNow`. -/
def cancel (l : Life) : Option (Life × Bool) :=
  if l.terminal || l.cancelled then none else some ({ l with cancelled := true }, !l.queued)

/-- The section of `beginStep`, and `callOnStarted`. -/
def beginStep (l : Life) : Option (Life × Bool) :=
  if l.terminal || l.cancelled then none
  else some ({ l with running := true, started := true }, !l.started)

/-- The section of `complete`, and the hook that is called. -/
def complete (l : Life) (terminalState : TerminalState) : Option (Life × TerminalState) :=
  if l.terminal then none
  else
    let terminalState := if terminalState = .kCompleted ∧ l.cancelled then .kCancelled else terminalState
    let l := { l with terminal := true, queued := false, running := false }
    some <| match terminalState with
      | .kCompleted => ({ l with completed := true }, .kCompleted)
      | .kFailed => ({ l with failed := true }, .kFailed)
      | .kCancelled => ({ l with cancelled := true }, .kCancelled)

/-- The section of `resetQueuedAfterSubmission`, and `completeNow`. -/
def resetQueuedAfterSubmission (l : Life) : Life × Bool :=
  ({ l with queued := false }, l.cancelled && !l.terminal)

end Life

-- ---------------------------------------------------------------------------
-- Places
-- ---------------------------------------------------------------------------

/-- A thread in `run`, `cancel` or `shutdown`. -/
inductive Pc (σ : Type)
  | idle
  | submit (x : σ)
  -- In `enqueueState`.
  | retain (x : σ)
  | post (x : σ)
  | unretain (x : σ)
  | reset (x : σ)
  -- The states left to cancel, and the states `shutdown` then waits for.
  | cancels (xs : List σ) (pending : Option (List σ))
  | complete (x : σ) (xs : List σ) (pending : Option (List σ))
  | hook (x : σ) (terminalState : TerminalState) (xs : List σ) (pending : Option (List σ))
  | waits (xs pending : List σ)

/-- The async thread, in `executeStateStep` or between its jobs. -/
inductive ExecPc (σ : Type)
  | idle
  | begin (x : σ)
  | onStarted (x : σ)
  | runNext (x : σ)
  | callback (x : σ)
  -- The cancellation has been observed.
  | setEnd (x : σ)
  -- In `complete`, before `releaseState` or not.
  | complete (x : σ) (terminalState : TerminalState) (releases : Bool)
  | hook (x : σ) (terminalState : TerminalState) (releases : Bool)
  | release (x : σ)
  -- In `enqueueState`.
  | retain (x : σ)
  | post (x : σ)
  | unretain (x : σ)
  | reset (x : σ)

/-- What happens to a state. -/
inductive Event
  | onStarted
  | callback
  -- The promise is set.
  | outcome (terminalState : TerminalState)
  | hook (terminalState : TerminalState)
  deriving DecidableEq

structure Dispatch (σ : Type) where
  state : σ
  -- `cancel` came before `beginStep`.
  cancelled : Bool
  callbacks : Nat := 0

structure State (ι σ : Type) where
  life : σ → Life
  pendingStates : List σ := []
  shutdown : Bool := false
  -- The jobs that are posted.
  jobs : List σ := []
  exec : ExecPc σ := .idle
  pc : ι → Pc σ := fun _ => .idle
  log : σ → List Event := fun _ => []
  -- From the last one.
  dispatches : List (Dispatch σ) := []
  -- How often `run` has returned true.
  submissions : σ → Nat := fun _ => 0
  -- What the calls of `shutdown` that have returned had to wait for.
  returned : List (List σ) := []

inductive Action (ι σ : Type)
  | run (t : ι) (x : σ)
  | cancel (t : ι) (x : σ)
  | shutdown (t : ι)
  -- The next step of a caller; `throws` is about `addJob`.
  | thread (t : ι) (throws : Bool)
  | dispatch (x : σ)
  -- The next step of the async thread; `throws` is about `onStarted`, the callback and `addJob`, and
  -- `next` is what the callback has selected.
  | exec (throws : Bool) (next : Nat)

namespace State

variable {ι σ : Type} [DecidableEq σ]

/-- States that have been configured and not submitted. -/
def init (callbacks next : σ → Nat) : State ι σ :=
  { life := fun x => { callbacks := callbacks x, next := next x } }

-- ---------------------------------------------------------------------------
-- Steps
-- ---------------------------------------------------------------------------

def setLife (s : State ι σ) (x : σ) (l : Life) : State ι σ := { s with life := Function.update s.life x l }

def record (s : State ι σ) (x : σ) (e : Event) : State ι σ :=
  { s with log := Function.update s.log x (s.log x ++ [e]) }

def goto [DecidableEq ι] (s : State ι σ) (t : ι) (pc : Pc σ) : State ι σ :=
    { s with pc := Function.update s.pc t pc }

/-- The section of `enqueueState`; `none` is a submission that is rejected. -/
def enqueueState (s : State ι σ) (x : σ) : Option (State ι σ) :=
  if x ∈ s.pendingStates then some s
  else if s.shutdown then none
  else some { s with pendingStates := s.pendingStates ++ [x] }

def addJob (s : State ι σ) (x : σ) : State ι σ := { s with jobs := s.jobs ++ [x] }

def releaseState (s : State ι σ) (x : σ) : State ι σ := { s with pendingStates := s.pendingStates.erase x }

/-- The next step of a caller. -/
def thread [DecidableEq ι] (s : State ι σ) (t : ι) (throws : Bool) : Option (State ι σ) :=
  match s.pc t with
  | .idle => none
  | .submit x =>
    some <| match (s.life x).submit with
      | none => s.goto t .idle
      | some l => (s.setLife x l).goto t (.retain x)
  | .retain x =>
    some <| match s.enqueueState x with
      | none => s.goto t (.reset x)
      | some s => s.goto t (.post x)
  | .post x =>
    some <| if throws then s.goto t (.unretain x)
      else { s.addJob x with submissions := Function.update s.submissions x (s.submissions x + 1) }.goto t .idle
  | .unretain x => some ((s.releaseState x).goto t (.reset x))
  | .reset x =>
    let (l, completeNow) := (s.life x).resetQueuedAfterSubmission
    some ((s.setLife x l).goto t (if completeNow then .complete x [] none else .idle))
  | .cancels [] none => some (s.goto t .idle)
  | .cancels [] (some pending) => some (s.goto t (.waits pending pending))
  | .cancels (x :: xs) pending =>
    some <| match (s.life x).cancel with
      | none => s.goto t (.cancels xs pending)
      | some (l, completeNow) =>
        (s.setLife x l).goto t (if completeNow then .complete x xs pending else .cancels xs pending)
  | .complete x xs pending =>
    some <| match (s.life x).complete .kCancelled with
      | none => s.goto t (.cancels xs pending)
      | some (l, terminalState) =>
        ((s.setLife x l).record x (.outcome terminalState)).goto t (.hook x terminalState xs pending)
  | .hook x terminalState xs pending => some ((s.record x (.hook terminalState)).goto t (.cancels xs pending))
  | .waits [] pending => some ({ s with returned := s.returned ++ [pending] }.goto t .idle)
  | .waits (x :: xs) pending => if (s.life x).terminal then some (s.goto t (.waits xs pending)) else none

/-- A callback is called, or not. -/
def call (s : State ι σ) (x : σ) (called : Bool) : State ι σ :=
  if called then
    { s.record x .callback with
      dispatches := match s.dispatches with
        | [] => []
        | d :: ds => { d with callbacks := d.callbacks + 1 } :: ds }
  else s

/-- The next step of `executeStateStep`. -/
def executeStateStep (s : State ι σ) (throws : Bool) (next : Nat) : Option (State ι σ) :=
  match s.exec with
  | .idle => none
  | .begin x =>
    let s := { s with dispatches := ⟨x, (s.life x).cancelled, 0⟩ :: s.dispatches }
    some <| match (s.life x).beginStep with
      | none => { s with exec := .setEnd x }
      | some (l, true) => { (s.setLife x l).record x .onStarted with exec := .onStarted x }
      | some (l, false) => { s.setLife x l with exec := .runNext x }
  | .onStarted x => some { s with exec := if throws then .complete x .kFailed true else .runNext x }
  | .runNext x =>
    let (l, called) := (s.life x).runNext
    some { (s.setLife x l).call x called with
      exec := if called then .callback x else .complete x .kCompleted true }
  | .callback x =>
    if next = 0 then none
    else if throws then
      some { s.setLife x { s.life x with next } with exec := .complete x .kFailed true }
    else
      let (l, more) := (s.life x).runNextReturn next
      some { s.setLife x l with exec := if more then .retain x else .complete x .kCompleted true }
  | .setEnd x =>
    let (l, called) := (s.life x).setEnd.runNext
    some { (s.setLife x l).call x called with exec := .complete x .kCancelled true }
  | .complete x terminalState releases =>
    some <| match (s.life x).complete terminalState with
      | none => { s with exec := if releases then .release x else .idle }
      | some (l, terminalState) =>
        { (s.setLife x l).record x (.outcome terminalState) with exec := .hook x terminalState releases }
  | .hook x terminalState releases =>
    some { s.record x (.hook terminalState) with exec := if releases then .release x else .idle }
  | .release x => some { s.releaseState x with exec := .idle }
  | .retain x =>
    some <| match s.enqueueState x with
      | none => { s with exec := .idle }
      | some s => { s with exec := .post x }
  | .post x => some <| if throws then { s with exec := .unretain x } else { s.addJob x with exec := .idle }
  | .unretain x => some { s.releaseState x with exec := .reset x }
  | .reset x =>
    let (l, completeNow) := (s.life x).resetQueuedAfterSubmission
    some { s.setLife x l with exec := if completeNow then .complete x .kCancelled false else .idle }

def step [DecidableEq ι] (s : State ι σ) : Action ι σ → Option (State ι σ)
  | .run t x =>
    match s.pc t with
    | .idle => some (s.goto t (.submit x))
    | _ => none
  | .cancel t x =>
    match s.pc t with
    | .idle => some (s.goto t (.cancels [x] none))
    | _ => none
  | .shutdown t =>
    match s.pc t with
    | .idle => some ({ s with shutdown := true }.goto t (.cancels s.pendingStates (some s.pendingStates)))
    | _ => none
  | .thread t throws => s.thread t throws
  | .dispatch x =>
    match s.exec with
    | .idle => if x ∈ s.jobs then some { s with jobs := s.jobs.erase x, exec := .begin x } else none
    | _ => none
  | .exec throws next => s.executeStateStep throws next

end State
end Dmn.RuntimeState
