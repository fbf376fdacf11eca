import Dmn.Lib.Mutex
import Dmn.Runtime.Machine
import Mathlib.Data.List.Sort

/-!
# The timer of the runtime manager

`Dmn_Runtime_Manager` has one one-shot timer, for all timed jobs and for the
end of the signal-wait thread. `addTimedJob`, `enterMainLoop` and
`exitMainLoop` are called on any threads; the signal-wait thread turns a
`SIGALRM` into a task; the async thread runs the tasks. An access to the timer,
a flag or a queue is one step. Times are in nanoseconds.

Rounds follow one another: `m_signalWaitProc` is not guarded, so the start of a
main loop and the call of `exitMainLoop` that ends one do not overlap. Other
calls of `exitMainLoop` come at any time.
-/

namespace Dmn.Runtime.Timer

open Dmn.Lib

structure TimedJob where
  number : Nat
  priority : Priority
  due : Int
  deriving DecidableEq

/-- What is posted to the async thread. -/
inductive Task
  | insert (job : TimedJob)
  -- `execSignalHandlerHookInternal` for `SIGALRM`.
  | alarm
  deriving DecidableEq

structure Armed where
  -- The time that is asked for.
  target : Int
  -- The time at which it goes off.
  fires : Int
  deriving DecidableEq

-- ---------------------------------------------------------------------------
-- Places
-- ---------------------------------------------------------------------------

/-- The async thread. -/
inductive ExecPc
  | idle
  | alarm
  -- In the loop of the hook, with the time it has read.
  | loop (tp : Int)
  -- In `setNextTimerAt`.
  | arm (tp : Int)
  | settime (tp diff : Int)
  deriving DecidableEq

/-- The signal-wait thread. -/
inductive WaitPc
  | none
  | waiting
  -- It has taken a signal.
  | got
  | ended
  deriving DecidableEq

/-- A thread in `addTimedJob`, `enterMainLoop` or `exitMainLoop`. -/
inductive Pc
  | idle
  | post (priority : Priority) (due : Int)
  | enter
  | clear
  | spawn
  -- In the main loop.
  | wait
  | exit
  | unenter
  | wake
  | join
  | disarm (first : Bool)
  deriving DecidableEq

structure State (ι : Type) where
  clock : Int := 0
  timer : Option Armed := none
  -- A `SIGALRM` is pending.
  pending : Bool := false
  signalWaitProc : WaitPc := .none
  tasks : List Task := []
  exec : ExecPc := .idle
  timedQueue : List TimedJob := []
  mainEnter : Bool := false
  mainExit : Bool := false
  -- The thread that starts or ends a main loop.
  owner : Option ι := none
  pc : ι → Pc := fun _ => .idle
  -- The jobs that have been added, and those moved to the priority queues and when.
  added : List TimedJob := []
  moved : List (TimedJob × Int) := []

inductive Action (ι : Type)
  | tick (elapsed : Nat)
  | addTimedJob (t : ι) (priority : Priority) (duration : Int)
  | enterMainLoop (t : ι)
  | exitMainLoop (t : ι)
  | run (t : ι)
  | expire
  -- A step of the signal-wait thread.
  | signal
  -- A step of the async thread.
  | exec

namespace State

variable {ι : Type}

-- ---------------------------------------------------------------------------
-- Steps
-- ---------------------------------------------------------------------------

def goto [DecidableEq ι] (s : State ι) (t : ι) (pc : Pc) : State ι := { s with pc := Function.update s.pc t pc }

/-- `setNextTimer(sec, nsec)` with a time that is not zero. -/
def setNextTimer (s : State ι) (target nsec : Int) : State ι :=
    { s with timer := some ⟨target, s.clock + nsec⟩ }

/-- The push into the min-heap, as a list by due time. -/
def pushTimed (job : TimedJob) (queue : List TimedJob) : List TimedJob :=
  queue.orderedInsert (fun a b => a.due ≤ b.due) job

/-- The next step of a caller. -/
def run [DecidableEq ι] (s : State ι) (t : ι) : Option (State ι) :=
  match s.pc t with
  | .idle => none
  | .post priority due =>
    let job : TimedJob := ⟨s.added.length, priority, due⟩
    some ({ s with tasks := s.tasks ++ [Task.insert job], added := s.added ++ [job] }.goto t .idle)
  | .enter =>
    match s.owner with
    | some _ => none
    | none => some <| if s.mainEnter then s.goto t .idle
      else { s with mainEnter := true, owner := some t }.goto t .clear
  | .clear => some ({ s with mainExit := false }.goto t .spawn)
  | .spawn => some ({ s with signalWaitProc := .waiting, owner := none }.goto t .wait)
  | .wait => if s.mainExit then some (s.goto t .idle) else none
  | .exit =>
    if s.mainExit then some (s.goto t (.disarm false))
    else match s.owner with
      | some _ => none
      | none => some ({ s with mainExit := true, owner := some t }.goto t .unenter)
  | .unenter => some ({ s with mainEnter := false }.goto t .wake)
  | .wake => some ((s.setNextTimer (s.clock + 10000) 10000).goto t .join)
  | .join =>
    match s.signalWaitProc with
    | .none | .ended => some ({ s with signalWaitProc := .none }.goto t (.disarm true))
    | .waiting | .got => none
  | .disarm first =>
    some ({ s with timer := none, owner := if first then none else s.owner }.goto t .idle)

def expire (s : State ι) : Option (State ι) :=
  match s.timer with
  | some armed => if armed.fires ≤ s.clock then some { s with timer := none, pending := true } else none
  | none => none

/-- The next step of the signal-wait thread. -/
def signal (s : State ι) : Option (State ι) :=
  match s.signalWaitProc with
  | .waiting => if s.pending then some { s with pending := false, signalWaitProc := .got } else none
  | .got =>
    some <| if s.mainExit then { s with signalWaitProc := .ended }
      else { s with signalWaitProc := .waiting, tasks := s.tasks ++ [Task.alarm] }
  | .none | .ended => none

/-- The next step of the async thread. -/
def execTask (s : State ι) : Option (State ι) :=
  match s.exec with
  | .idle =>
    match s.tasks with
    | [] => none
    | .insert job :: tasks =>
      let timedQueue := pushTimed job s.timedQueue
      some { s with
        tasks, timedQueue
        exec := match timedQueue with
          | top :: _ => .arm top.due
          | [] => .idle }
    | .alarm :: tasks => some { s with tasks, exec := .alarm }
  | .alarm => some { s with exec := if s.timedQueue.isEmpty then .idle else .loop s.clock }
  | .loop tp =>
    some <| match s.timedQueue with
      | [] => { s with exec := .idle }
      | job :: timedQueue =>
        if job.due ≤ tp then
          -- `addJob` throws and the job stays.
          if job.priority = .kSched then { s with exec := .idle }
          else { s with timedQueue, moved := s.moved ++ [(job, tp)] }
        else { s with exec := .arm job.due }
  | .arm tp => some { s with exec := .settime tp (tp - s.clock) }
  | .settime tp diff => some { s.setNextTimer tp (if diff ≤ 0 then 10000 else diff) with exec := .idle }

def step [DecidableEq ι] (s : State ι) : Action ι → Option (State ι)
  | .tick elapsed => some { s with clock := s.clock + elapsed }
  | .addTimedJob t priority duration =>
    match s.pc t with
    | .idle => some (s.goto t (.post priority (s.clock + duration)))
    | _ => none
  | .enterMainLoop t =>
    match s.pc t with
    | .idle => some (s.goto t .enter)
    | _ => none
  | .exitMainLoop t =>
    match s.pc t with
    | .idle => some (s.goto t .exit)
    | _ => none
  | .run t => s.run t
  | .expire => s.expire
  | .signal => s.signal
  | .exec => s.execTask

end State
end Dmn.Runtime.Timer
