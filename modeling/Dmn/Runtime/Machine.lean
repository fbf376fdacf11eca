import Dmn.Lib.Transition
import Mathlib.Data.Fintype.Basic
import Mathlib.Data.Int.Order.Basic

/-!
# The job executor of the runtime manager

`Dmn_Runtime_Manager` step by step: `addJob`, `enterMainLoop` and
`exitMainLoop` on any threads, and `execRuntimeJobInternal` on the async
thread, which runs the tasks that are posted to it one after the other. An
access to a queue, a counter or a flag is one step. The scheduler's stacks
belong to the async thread. Assertions are recorded where they fail, and the
run goes on as it does in a release build.

The count of jobs is a `size_t`: below zero it stands for a value that has
wrapped around.
-/

namespace Dmn.Runtime

open Dmn.Lib

inductive Priority
  | kSched
  | kHigh
  | kMedium
  | kLow
  deriving DecidableEq

def Priority.toNat : Priority → Nat
  | .kSched => 0
  | .kHigh => 1
  | .kMedium => 2
  | .kLow => 3

structure Job where
  priority : Priority := .kMedium
  -- How often the coroutine suspends before it ends.
  suspensions : Nat := 0
  -- `m_fnc` throws instead of returning a task.
  throws : Bool := false
  deriving DecidableEq

/-- A job in a queue or on the stack; jobs are numbered as they are pushed. -/
structure Entry where
  number : Nat
  job : Job
  deriving DecidableEq

/-- A coroutine of the scheduler. -/
structure Task where
  number : Nat
  -- How often it suspends from now on.
  remaining : Nat
  deriving DecidableEq

-- ---------------------------------------------------------------------------
-- Places
-- ---------------------------------------------------------------------------

/-- The async thread, in `execRuntimeJobInternal` or between its tasks. -/
inductive ExecPc
  | idle
  -- At the queue of a priority; `state` is the priority of the top job.
  | high (state : Priority)
  | medium (state : Priority)
  | low
  -- At `runRuntimeCoroutineScheduler`.
  | schedule
  -- The top job is done.
  | done
  | post
  -- At the assertions of the idle branch.
  | check
  -- In the catch block.
  | caught
  deriving DecidableEq

/-- A thread in `addJob`, `enterMainLoop` or `exitMainLoop`. -/
inductive Pc
  | idle
  | push (job : Job)
  | count (number : Nat)
  | test
  | post
  | load
  | enter (startJobExecutor : Bool)
  | clear (startJobExecutor : Bool)
  | start
  -- In the main loop.
  | wait
  | exit
  | leave
  deriving DecidableEq

/-- What the code does not keep. -/
structure History where
  enqueued : List Entry := []
  dequeued : List Entry := []
  -- The jobs that have ended, normally or by an exception.
  finished : List Entry := []
  -- How often a job has been resumed.
  resumed : Nat → Nat := fun _ => 0
  -- How many jobs had been pushed when the dispatch found a queue empty.
  looked : Priority → Option Nat := fun _ => none
  -- An assertion has failed.
  failed : Bool := false

structure State (ι : Type) where
  highQueue : List Entry := []
  mediumQueue : List Entry := []
  lowQueue : List Entry := []
  jobsCount : Int := 0
  mainEnter : Bool := false
  mainExit : Bool := false
  -- The tasks `execRuntimeJobInternal` that are posted to the async thread.
  tasks : Nat := 0
  -- The stacks, from the top.
  schedJob : List Entry := []
  schedTask : List Task := []
  exec : ExecPc := .idle
  pc : ι → Pc := fun _ => .idle
  history : History := {}

inductive Action (ι : Type)
  | addJob (t : ι) (job : Job)
  | enterMainLoop (t : ι)
  | exitMainLoop (t : ι)
  | run (t : ι)
  -- A step of the async thread.
  | exec

namespace State

variable {ι : Type}

def queue (s : State ι) : Priority → List Entry
  | .kSched => []
  | .kHigh => s.highQueue
  | .kMedium => s.mediumQueue
  | .kLow => s.lowQueue

def queued (s : State ι) : List Entry := s.highQueue ++ s.mediumQueue ++ s.lowQueue

-- ---------------------------------------------------------------------------
-- Callers
-- ---------------------------------------------------------------------------

/-- The push of `addJob` into the queue of the job's priority. -/
def push (s : State ι) (job : Job) : State ι :=
  let entry : Entry := ⟨s.history.enqueued.length, job⟩
  let s := { s with history := { s.history with enqueued := s.history.enqueued ++ [entry] } }
  match job.priority with
  | .kHigh => { s with highQueue := s.highQueue ++ [entry] }
  | .kMedium => { s with mediumQueue := s.mediumQueue ++ [entry] }
  | .kLow => { s with lowQueue := s.lowQueue ++ [entry] }
  | .kSched => s

def goto [DecidableEq ι] (s : State ι) (t : ι) (pc : Pc) : State ι := { s with pc := Function.update s.pc t pc }

/-- The next step of a caller. -/
def run [DecidableEq ι] (s : State ι) (t : ι) : Option (State ι) :=
  match s.pc t with
  | .idle => none
  | .push job => some ((s.push job).goto t (.count s.history.enqueued.length))
  | .count _ =>
    some ({ s with jobsCount := s.jobsCount + 1 }.goto t (if s.jobsCount = 0 then .test else .idle))
  | .test => some (s.goto t (if s.mainEnter then .post else .idle))
  | .post => some ({ s with tasks := s.tasks + 1 }.goto t .idle)
  | .load => some (s.goto t (.enter (decide (s.jobsCount ≠ 0))))
  | .enter startJobExecutor =>
    some <| if s.mainEnter then s.goto t .idle
      else { s with mainEnter := true }.goto t (.clear startJobExecutor)
  | .clear startJobExecutor =>
    some ({ s with mainExit := false }.goto t (if startJobExecutor then .start else .wait))
  | .start => some ({ s with tasks := s.tasks + 1 }.goto t .wait)
  | .wait => if s.mainExit then some (s.goto t .idle) else none
  | .exit => some ({ s with mainExit := true }.goto t (if s.mainExit then .idle else .leave))
  | .leave => some ({ s with mainEnter := false }.goto t .idle)

-- ---------------------------------------------------------------------------
-- The async thread
-- ---------------------------------------------------------------------------

def look (s : State ι) (priority : Priority) : State ι :=
  { s with history := { s.history with
      looked := Function.update s.history.looked priority (some s.history.enqueued.length) } }

/-- `addRuntimeJobToCoroutineSchedulerContext` with a job from a queue. -/
def addToContext (s : State ι) (entry : Entry) : State ι :=
  let s := { s with history := { s.history with dequeued := s.history.dequeued ++ [entry] } }
  if entry.job.throws then
    { s with
      exec := .caught
      history := { s.history with finished := s.history.finished ++ [entry] } }
  else
    { s with
      exec := .schedule
      schedJob := entry :: s.schedJob
      schedTask := ⟨entry.number, entry.job.suspensions⟩ :: s.schedTask }

/-- `runRuntimeCoroutineScheduler` resumes the top task. -/
def resume (s : State ι) (entry : Entry) (jobs : List Entry) (task : Task) (tasks : List Task) : State ι :=
  let resumed := Function.update s.history.resumed task.number (s.history.resumed task.number + 1)
  let s := { s with history := { s.history with resumed } }
  match task.remaining with
  | remaining + 1 => { s with exec := .post, schedTask := { task with remaining } :: tasks }
  | 0 =>
    { s with
      exec := .done
      schedJob := jobs
      schedTask := tasks
      history := { s.history with finished := s.history.finished ++ [entry] } }

/-- The priority of the top job. -/
def top (s : State ι) : Priority :=
  match s.schedJob with
  | [] => .kSched
  | entry :: _ => entry.job.priority

/-- `m_jobs_count.fetch_sub(1) > 1` -/
def moreJobs (s : State ι) : Bool := decide (s.jobsCount < 0 ∨ 1 < s.jobsCount)

/-- The next step of `execRuntimeJobInternal`. -/
def execRuntimeJobInternal (s : State ι) : Option (State ι) :=
  match s.exec with
  | .idle =>
    if 0 < s.tasks then
      some { s with
        tasks := s.tasks - 1
        exec := if s.top = .kHigh then .schedule else .high s.top
        history := { s.history with looked := fun _ => none } }
    else none
  | .high state =>
    some <| match s.highQueue with
      | entry :: highQueue => { s with highQueue }.addToContext entry
      | [] => { s.look .kHigh with exec := if state = .kMedium then .schedule else .medium state }
  | .medium state =>
    some <| match s.mediumQueue with
      | entry :: mediumQueue => { s with mediumQueue }.addToContext entry
      | [] => { s.look .kMedium with exec := if state = .kLow then .schedule else .low }
  | .low =>
    some <| match s.lowQueue with
      | entry :: lowQueue => { s with lowQueue }.addToContext entry
      | [] => { s.look .kLow with exec := .schedule }
  | .schedule =>
    some <| match s.schedJob, s.schedTask with
      | entry :: jobs, task :: tasks => s.resume entry jobs task tasks
      | _, _ => { s with exec := .idle }
  | .done =>
    some { s with
      jobsCount := s.jobsCount - 1
      exec := if s.moreJobs then .post else .check }
  | .post => some { s with tasks := s.tasks + 1, exec := .idle }
  | .check =>
    some { s with
      exec := .idle
      history := { s.history with
        failed := s.history.failed ||
          !(s.schedJob.isEmpty && s.schedTask.isEmpty && decide (s.jobsCount = 0)) } }
  | .caught =>
    some { s with
      jobsCount := s.jobsCount - 1
      exec := if s.moreJobs then .post else .idle }

def step [DecidableEq ι] (s : State ι) : Action ι → Option (State ι)
  | .addJob t job =>
    match s.pc t with
    | .idle => if job.priority = .kSched then some s else some (s.goto t (.push job))
    | _ => none
  | .enterMainLoop t =>
    match s.pc t with
    | .idle => some (s.goto t .load)
    | _ => none
  | .exitMainLoop t =>
    match s.pc t with
    | .idle => some (s.goto t .exit)
    | _ => none
  | .run t => s.run t
  | .exec => s.execRuntimeJobInternal

end State
end Dmn.Runtime
