import Dmn.Lib.Transition
import Mathlib

/-!
# The generations of a timer

`Dmn_Timer` with its mutex. The calls come from any threads: one that has the mutex is cut where it
writes to the pipe. The worker of the pipe takes the queued ticks in any order, each once and not
before its deadline, and runs the callback without the mutex. A deadline, a write and the copy of
the callback can fail at any time.
-/

namespace Dmn.Timer

open Lib

/-- The identity of a `Generation`; they are numbered in the order of their calls. -/
abbrev Generation := Nat

structure Tick where
  generation : Generation
  deadline : Nat
  deriving DecidableEq

/-- What is stored for `rethrowFailure`. -/
inductive Failure where
  | copy
  -- An exception of the callback that is not a `std::exception`.
  | callback
  | deadline
  | writeAt
  deriving DecidableEq

inductive Outcome where
  | returned
  | stdException
  | otherException
  deriving DecidableEq

/-- What fails in a call that schedules a tick. -/
inductive Fault where
  | deadline
  | writeAt
  deriving DecidableEq

/-- What the mutex protects. -/
structure Protected (C : Type) where
  fn : Option C
  interval : Nat
  generation : Option Generation := none
  active : Bool := false
  failure : Option Failure := none
  deriving DecidableEq

/-- Who has the mutex, and how far it is. -/
inductive Section (C : Type) where
  | free
  -- In `start`, before `writeAt`.
  | start (interval : Nat) (fn : Option C) (generation : Generation)
  | started (interval : Nat) (fn : Option C) (generation : Generation)
  -- In `resume`, before `writeAt`.
  | resume (generation : Generation)
  | resumed (generation : Generation)
  -- In `processTick`, after the second check.
  | reschedule (tick : Tick)
  deriving DecidableEq

/-- The worker of the pipe, in `processTick`. -/
inductive Worker (C : Type) where
  | idle
  | taken (tick : Tick)
  | calling (tick : Tick) (callback : C)
  | finished (tick : Tick)
  -- At `storeFailure`.
  | failed (tick : Tick) (failure : Failure)
  deriving DecidableEq

structure State (C : Type) where
  timer : Protected C
  sect : Section C := .free
  queue : List Tick := []
  worker : Worker C := .idle
  now : Nat := 0
  nextGeneration : Generation := 0
  -- History: the callbacks that have begun and not ended.
  running : Nat := 0
  -- History: what was protected when the call that has the mutex got it.
  entered : Protected C := timer
  -- History: what was protected when a call got the mutex, and when it threw.
  threw : List (Protected C × Protected C) := []
  -- History: the generation of the tick whose failure is stored.
  failedBy : Option Generation := none

inductive Action (C : Type) where
  -- `start`, with what `toClockDuration` returns, up to its deadline.
  | start (interval : Option Nat) (fn : Option C)
  | stop
  -- `resume`, up to its deadline.
  | resume
  -- `nextDeadline` and `writeAt`.
  | schedule (fault : Option Fault)
  -- The assignments that end `start` and `resume`.
  | commit
  -- The worker takes a tick.
  | take (i : Nat)
  -- The first check.
  | check (copied : Bool)
  | callback (outcome : Outcome)
  -- The second check.
  | recheck
  | storeFailure
  | advance (ticks : Nat)

/-- The largest value of `Rep`. -/
def maxTicks : Nat := 2 ^ 63 - 1

def nextDeadline (now interval : Nat) : Option Nat :=
  if now > 0 ∧ interval > maxTicks - now then none else some (now + interval)

/-- The deadline that is written, or what fails. -/
def writeAt (now interval : Nat) (fault : Option Fault) : Except Fault Nat :=
  match fault, nextDeadline now interval with
  | some .deadline, _ | _, none => .error .deadline
  | some .writeAt, some _ => .error .writeAt
  | none, some deadline => .ok deadline

namespace State

variable {C : Type}

/-- A call throws and gives the mutex back. -/
def throw (s : State C) : State C :=
  { s with sect := .free, threw := s.threw ++ [(s.entered, s.timer)] }

def push (s : State C) (generation : Generation) (deadline : Nat) : State C :=
  { s with queue := s.queue ++ [⟨generation, deadline⟩] }

def storeFailureLocked (s : State C) (generation : Generation) (failure : Failure) : State C :=
  if s.timer.active ∧ s.timer.generation = some generation then
    { s with
      timer := { s.timer with active := false, failure := some failure }
      failedBy := some generation }
  else s

/-- Whoever has the mutex schedules a tick. -/
def schedule (s : State C) (fault : Option Fault) : Option (State C) :=
  match s.sect with
  | .start interval fn generation =>
    match writeAt s.now interval fault with
    | .ok deadline => some { s.push generation deadline with sect := .started interval fn generation }
    | .error _ => some s.throw
  | .resume generation =>
    match writeAt s.now s.timer.interval fault with
    | .ok deadline => some { s.push generation deadline with sect := .resumed generation }
    | .error _ => some s.throw
  | .reschedule tick =>
    match writeAt s.now s.timer.interval fault with
    | .ok deadline => some { s.push tick.generation deadline with sect := .free, worker := .idle }
    -- the exception leaves the section, and is stored after that
    | .error .deadline => some { s with sect := .free, worker := .failed tick .deadline }
    | .error .writeAt =>
      some { s.storeFailureLocked tick.generation .writeAt with sect := .free, worker := .idle }
  | .free | .started _ _ _ | .resumed _ => none

def commit (s : State C) : Option (State C) :=
  match s.sect with
  | .started interval fn generation =>
    some { s with
      sect := .free
      timer := {
        fn := fn.or s.timer.fn
        interval
        generation := some generation
        active := true
        failure := none } }
  | .resumed generation =>
    some { s with sect := .free, timer := { s.timer with generation := some generation, active := true } }
  | _ => none

/-- A check of `processTick`. -/
def current (s : State C) (tick : Tick) : Bool :=
  s.timer.active && s.timer.generation == some tick.generation

def check (s : State C) (copied : Bool) : Option (State C) :=
  match s.worker with
  | .taken tick =>
    if s.current tick = false then some { s with worker := .idle }
    else if copied = false then some { s with worker := .failed tick .copy }
    else match s.timer.fn with
      | some callback => some { s with worker := .calling tick callback, running := s.running + 1 }
      | none => some { s with worker := .finished tick }
  | _ => none

def callback (s : State C) (outcome : Outcome) : Option (State C) :=
  match s.worker with
  | .calling tick _ =>
    some { s with
      running := s.running - 1
      worker := match outcome with
        | .returned | .stdException => .finished tick
        | .otherException => .failed tick .callback }
  | _ => none

def recheck (s : State C) : Option (State C) :=
  match s.worker with
  | .finished tick =>
    if s.current tick then some { s with sect := .reschedule tick } else some { s with worker := .idle }
  | _ => none

def storeFailure (s : State C) : Option (State C) :=
  match s.worker with
  | .failed tick failure => some { s.storeFailureLocked tick.generation failure with worker := .idle }
  | _ => none

def take (s : State C) (i : Nat) : Option (State C) :=
  match s.worker, s.queue[i]? with
  | .idle, some tick =>
    if tick.deadline ≤ s.now then some { s with queue := s.queue.eraseIdx i, worker := .taken tick } else none
  | _, _ => none

/-- The mutex is taken by a call that allocates a generation. -/
def enter (s : State C) (sect : Generation → Section C) : State C :=
  { s with sect := sect s.nextGeneration, nextGeneration := s.nextGeneration + 1, entered := s.timer }

/-- `resume`, once it has the mutex. -/
def resume (s : State C) : State C :=
  if s.timer.active then s
  else if s.timer.failure.isSome then { s with threw := s.threw ++ [(s.timer, s.timer)] }
  else s.enter .resume

def stop (s : State C) : State C := { s with timer := { s.timer with active := false } }

/-- With the mutex free. -/
def locked (s : State C) (s' : Option (State C)) : Option (State C) :=
  match s.sect with
  | .free => s'
  | _ => none

def step (s : State C) : Action C → Option (State C)
  | .start none _ => some { s with threw := s.threw ++ [(s.timer, s.timer)] }
  | .start (some interval) fn => s.locked (some (s.enter (.start interval fn)))
  | .stop => s.locked (some s.stop)
  | .resume => s.locked (some s.resume)
  | .schedule fault => s.schedule fault
  | .commit => s.commit
  | .take i => s.take i
  | .check copied => s.locked (s.check copied)
  | .callback outcome => s.callback outcome
  | .recheck => s.locked s.recheck
  | .storeFailure => s.locked s.storeFailure
  | .advance ticks => some { s with now := s.now + ticks }

end State

-- ---------------------------------------------------------------------------
-- The ticks of a generation
-- ---------------------------------------------------------------------------

namespace Worker

variable {C : Type}

def tick : Worker C → Option Tick
  | .idle => none
  | .taken tick | .calling tick _ | .finished tick | .failed tick _ => some tick

/-- What the worker has of a generation. -/
def holds (worker : Worker C) (generation : Generation) : Nat :=
  match worker.tick with
  | some tick => if tick.generation = generation then 1 else 0
  | none => 0

def running : Worker C → Nat
  | .calling _ _ => 1
  | _ => 0

theorem holds_of_tick {worker : Worker C} {tick : Tick} (h : worker.tick = some tick)
    (generation : Generation) :
    worker.holds generation = if tick.generation = generation then 1 else 0 := by
  rw [holds, h]

end Worker

namespace State

variable {C : Type} {s s' : State C} {generation : Generation} {tick : Tick}

/-- The ticks of a generation that are queued or being processed. -/
def live (s : State C) (generation : Generation) : Nat :=
  s.queue.countP (fun tick => decide (tick.generation = generation)) + s.worker.holds generation

theorem live_push (s : State C) (generation : Generation) (deadline : Nat) (other : Generation) :
    (s.push generation deadline).live other = s.live other + if generation = other then 1 else 0 := by
  simp only [live, push, List.countP_append, List.countP_singleton, decide_eq_true_eq]
  omega

theorem current_iff : s.current tick = true ↔ s.timer.active = true ∧ s.timer.generation =
    some tick.generation := by
  simp [current]

/-- A call that has the mutex is about to begin a generation. -/
structure Entering (s : State C) (generation : Generation) (written : Nat) : Prop where
  entered : s.entered = s.timer
  allocated : generation < s.nextGeneration
  newest : ∀ other, s.timer.generation = some other → other < generation
  live : s.live generation = written

/-- What holds of whoever has the mutex. -/
def Holds (s : State C) : Section C → Prop
  | .free => True
  | .start _ _ generation => s.Entering generation 0
  | .started _ _ generation => s.Entering generation 1
  | .resume generation => s.Entering generation 0 ∧ s.timer.active = false ∧ s.timer.failure = none
  | .resumed generation => s.Entering generation 1 ∧ s.timer.active = false ∧ s.timer.failure = none
  | .reschedule tick => s.worker = .finished tick ∧ s.current tick = true

/-- The stored failure is one of the generation that is still the current one. -/
def Failed (s : State C) : Prop :=
  s.timer.active = false ∧ s.failedBy.isSome ∧ s.timer.generation = s.failedBy

structure Inv (s : State C) : Prop where
  single : ∀ generation, s.live generation ≤ 1
  fresh : ∀ generation, s.nextGeneration ≤ generation → s.live generation = 0
  allocated : ∀ generation, s.timer.generation = some generation → generation < s.nextGeneration
  armed : s.timer.active = true → ∃ generation, s.timer.generation = some generation ∧ s.live generation = 1
  sect : s.Holds s.sect
  running : s.running = s.worker.running
  threw : ∀ p ∈ s.threw, p.1 = p.2
  failed : s.timer.failure.isSome → s.Failed

theorem Entering.congr {written : Nat} (entering : s.Entering generation written)
    (hentered : s'.entered = s.entered)
    (htimer : s'.timer = s.timer) (hnext : s'.nextGeneration = s.nextGeneration)
    (hlive : s'.live generation = s.live generation) : s'.Entering generation written where
  entered := by rw [hentered, htimer, entering.entered]
  allocated := hnext ▸ entering.allocated
  newest := htimer ▸ entering.newest
  live := hlive.trans entering.live

theorem Holds.congr {sect : Section C} (h : s.Holds sect) (hentered : s'.entered = s.entered)
    (htimer : s'.timer = s.timer) (hnext : s'.nextGeneration = s.nextGeneration)
    (hlive : ∀ generation, s'.live generation = s.live generation)
    (hworker : ∀ tick, s.worker = .finished tick → s'.worker = .finished tick) : s'.Holds sect := by
  cases sect with
  | free => trivial
  | start | started => exact Entering.congr h hentered htimer hnext (hlive _)
  | resume | resumed => exact ⟨h.1.congr hentered htimer hnext (hlive _), htimer ▸ h.2⟩
  | reschedule tick =>
    have hcurrent : s'.current tick = s.current tick := by rw [current, current, htimer]
    exact ⟨hworker tick h.1, hcurrent.trans h.2⟩

/-- Ticks move between the queue and the worker, and nothing else. -/
theorem Inv.move (inv : s.Inv) (htimer : s'.timer = s.timer) (hnext : s'.nextGeneration = s.nextGeneration)
    (hlive : ∀ generation, s'.live generation = s.live generation) (hsect : s'.Holds s'.sect)
    (hrunning : s'.running = s'.worker.running) (hthrew : s'.threw = s.threw)
    (hfailedBy : s'.failedBy = s.failedBy) : s'.Inv where
  single generation := hlive generation ▸ inv.single generation
  fresh generation h := (hlive generation).trans (inv.fresh generation (hnext ▸ h))
  allocated := by rw [htimer, hnext]; exact inv.allocated
  armed := by
    rw [htimer]
    intro hactive
    obtain ⟨generation, hgen, hone⟩ := inv.armed hactive
    exact ⟨generation, hgen, (hlive generation).trans hone⟩
  sect := hsect
  running := hrunning
  threw := by rw [hthrew]; exact inv.threw
  failed := by unfold Failed; rw [htimer, hfailedBy]; exact inv.failed

/-- A generation that is allocated and not begun has no tick before the write. -/
theorem Inv.entering (inv : s.Inv) (sect : Generation → Section C) :
    (s.enter sect).Entering s.nextGeneration 0 where
  entered := rfl
  allocated := Nat.lt_succ_self _
  newest := inv.allocated
  live := inv.fresh _ (Nat.le_refl _)

theorem Inv.enter (inv : s.Inv) (sect : Generation → Section C)
    (hsect : (s.enter sect).Holds (sect s.nextGeneration)) : (s.enter sect).Inv where
  single := inv.single
  fresh generation h := inv.fresh generation (Nat.le_of_succ_le h)
  allocated generation h := Nat.lt_succ_of_lt (inv.allocated generation h)
  armed := inv.armed
  sect := hsect
  running := inv.running
  threw := inv.threw
  failed := inv.failed

theorem threw_append (h : ∀ p ∈ s.threw, p.1 = p.2) {before after : Protected C} (hsame : before = after) :
    ∀ p ∈ s.threw ++ [(before, after)], p.1 = p.2 := by
  intro p hp
  rcases List.mem_append.mp hp with hp | hp
  · exact h p hp
  · obtain rfl := List.mem_singleton.mp hp
    exact hsame

theorem Inv.throw (inv : s.Inv) (hentered : s.entered = s.timer) : s.throw.Inv :=
  { inv with
    sect := trivial
    threw := threw_append inv.threw hentered }

theorem Inv.stop (inv : s.Inv) (hfree : s.sect = .free) : s.stop.Inv :=
  { inv with
    armed := nofun
    sect := by
      change s.stop.Holds s.sect
      rw [hfree]
      trivial
    failed := fun h => ⟨rfl, (inv.failed h).2⟩ }

theorem Inv.resume (inv : s.Inv) : s.resume.Inv := by
  unfold State.resume
  split
  · exact inv
  next hactive =>
    split
    · exact { inv with
        sect := inv.sect.congr rfl rfl rfl (fun _ => rfl) fun _ h => h
        threw := threw_append inv.threw rfl }
    next hfailure =>
      have hactive : s.timer.active = false := by simpa using hactive
      have hfailure : s.timer.failure = none := by simpa using hfailure
      exact inv.enter .resume ⟨inv.entering _, hactive, hfailure⟩

/-- The tick of a new generation is written. -/
theorem Inv.push {sect : Section C} (inv : s.Inv) (deadline : Nat) (entering : s.Entering generation 0)
    (hsect : (s.push generation deadline).Entering generation 1 → (s.push generation deadline).Holds sect) :
    Inv { s.push generation deadline with sect } := by
  have hlive := live_push s generation deadline
  have hother : ∀ other, s.timer.generation = some other → generation ≠ other := fun other hgen =>
    (Nat.ne_of_lt (entering.newest other hgen)).symm
  exact {
    single := fun other => by
      change (s.push generation deadline).live other ≤ 1
      rw [hlive]
      split
      · next h =>
        have none := entering.live
        rw [h] at none
        omega
      · exact inv.single other
    fresh := fun other hother => by
      change (s.push generation deadline).live other = 0
      have hne : generation ≠ other := Nat.ne_of_lt (Nat.lt_of_lt_of_le entering.allocated hother)
      rw [hlive, if_neg hne, inv.fresh other hother]
    allocated := inv.allocated
    armed := fun hactive => by
      obtain ⟨other, hgen, hone⟩ := inv.armed hactive
      refine ⟨other, hgen, ?_⟩
      change (s.push generation deadline).live other = 1
      rw [hlive, if_neg (hother other hgen), hone]
    sect := by
      have hwritten : (s.push generation deadline).Entering generation 1 := {
        entered := entering.entered
        allocated := entering.allocated
        newest := entering.newest
        live := by rw [hlive, if_pos rfl, entering.live] }
      exact (hsect hwritten).congr rfl rfl rfl (fun _ => rfl) fun _ h => h
    running := inv.running
    threw := inv.threw
    failed := inv.failed }

/-- The worker goes on with the tick it has. -/
theorem Inv.work {worker : Worker C} {running : Nat} (inv : s.Inv) (htick : worker.tick = s.worker.tick)
    (hsect : s.sect = .free ∨ ∀ tick, s.worker ≠ .finished tick) (hrunning : running = worker.running) :
    Inv { s with worker, running } := by
  have hlive : ∀ generation, live { s with worker, running } generation = s.live generation :=
    fun generation => by
    change _ + worker.holds generation = _ + s.worker.holds generation
    rw [Worker.holds, htick, ← Worker.holds]
  refine inv.move rfl rfl hlive ?_ hrunning rfl rfl
  rcases hsect with hfree | hworker
  · change Holds _ s.sect
    rw [hfree]
    trivial
  · exact inv.sect.congr rfl rfl rfl hlive fun tick h => absurd h (hworker tick)

theorem live_idle_le (s : State C) (generation : Generation) :
    s.queue.countP (fun tick => decide (tick.generation = generation)) ≤ s.live generation :=
  Nat.le_add_right ..

/-- The worker is done with its tick; the timer does not wait for it any more. -/
theorem Inv.drop (inv : s'.Inv) (hqueue : s.queue = s'.queue) (hworker : s.worker = .idle)
    (hsect : s.sect = .free)
    (hnext : s.nextGeneration = s'.nextGeneration)
    (hallocated : ∀ generation, s.timer.generation = some generation → s'.timer.generation = some generation)
    (harmed : s.timer.active = true → ∃ generation, s.timer.generation = some generation ∧
      s'.timer.active = true ∧ s'.worker.holds generation = 0)
    (hrunning : s.running = 0) (hthrew : s.threw = s'.threw) (hfailed : s.timer.failure.isSome → s.Failed) :
    s.Inv := by
  have hlive : ∀ generation, s.live generation =
      s'.queue.countP fun tick => decide (tick.generation = generation) := fun generation => by
    rw [live, hqueue, hworker]
    rfl
  exact {
    single := fun generation => by
      rw [hlive]
      exact Nat.le_trans (s'.live_idle_le generation) (inv.single generation)
    fresh := fun generation h => by
      have := s'.live_idle_le generation
      have hzero := inv.fresh generation (hnext ▸ h)
      rw [hlive]
      omega
    allocated := fun generation h => hnext ▸ inv.allocated generation (hallocated generation h)
    armed := fun hactive => by
      obtain ⟨generation, hgen, hactive, hnone⟩ := harmed hactive
      obtain ⟨other, hother, hone⟩ := inv.armed hactive
      obtain rfl := Option.some.inj ((hallocated generation hgen).symm.trans hother)
      refine ⟨generation, hgen, ?_⟩
      rw [live, hnone] at hone
      rw [hlive]
      exact hone
    sect := by rw [hsect]; trivial
    running := by rw [hrunning, hworker]; rfl
    threw := by rw [hthrew]; exact inv.threw
    failed := hfailed }

/-- A tick that is not current is dropped. -/
theorem Inv.discard (inv : s.Inv) (hfree : s.sect = .free) (htick : s.worker.tick = some tick)
    (hstale : s.current tick = false) (hrunning : s.worker.running = 0) : Inv { s with worker := .idle } := by
  refine inv.drop rfl rfl hfree rfl (fun _ h => h) (fun hactive => ?_) (inv.running.trans hrunning)
    rfl inv.failed
  obtain ⟨generation, hgen, -⟩ := inv.armed hactive
  refine ⟨generation, hgen, hactive, ?_⟩
  rw [Worker.holds_of_tick htick, if_neg]
  rintro rfl
  have hcurrent : s.current tick = true := current_iff.mpr ⟨hactive, hgen⟩
  rw [hcurrent] at hstale
  cases hstale

theorem Inv.store (inv : s.Inv) (htick : s.worker.tick = some tick) (hrunning : s.worker.running = 0)
    (failure : Failure) :
    Inv { s.storeFailureLocked tick.generation failure with sect := .free, worker := .idle } := by
  unfold storeFailureLocked
  split
  next h =>
    exact inv.drop rfl rfl rfl rfl (fun _ h => h) nofun (inv.running.trans hrunning) rfl fun _ =>
      ⟨rfl, rfl, h.2⟩
  next h =>
    have hstale : s.current tick = false := by
      rw [← Bool.not_eq_true, current_iff]
      exact h
    have hreleased : Inv { s with sect := .free } := { inv with sect := trivial }
    exact hreleased.discard rfl htick hstale hrunning

/-- The tick of the callback that has ended is written again, and the worker is free. -/
theorem Inv.reschedule (inv : s.Inv) (hworker : s.worker = .finished tick) (deadline : Nat) :
    Inv { s.push tick.generation deadline with sect := .free, worker := .idle } := by
  refine inv.move rfl rfl (fun generation => ?_) trivial (inv.running.trans (by rw [hworker]; rfl)) rfl rfl
  have hlive := live_push s tick.generation deadline generation
  have htick : s.worker.tick = some tick := by rw [hworker]; rfl
  have hholds := Worker.holds_of_tick htick generation
  change (s.push tick.generation deadline).queue.countP _ + s.worker.holds generation = _ at hlive
  change (s.push tick.generation deadline).queue.countP _ + 0 = _
  omega

theorem Inv.schedule {fault : Option Fault} (inv : s.Inv) (hschedule : s.schedule fault = some s') :
    s'.Inv := by
  have hsect := inv.sect
  unfold State.schedule at hschedule
  split at hschedule
  next hs =>
    rw [hs] at hsect
    split at hschedule <;> cases hschedule
    · exact inv.push _ hsect id
    · exact inv.throw hsect.entered
  next hs =>
    rw [hs] at hsect
    split at hschedule <;> cases hschedule
    · exact inv.push _ hsect.1 fun h => ⟨h, hsect.2⟩
    · exact inv.throw hsect.1.entered
  next tick hs =>
    rw [hs] at hsect
    split at hschedule <;> cases hschedule
    · exact inv.reschedule hsect.1 _
    · have hreleased : Inv { s with sect := .free } := { inv with sect := trivial }
      exact hreleased.work (by rw [hsect.1]; rfl) (.inl rfl) (inv.running.trans (by rw [hsect.1]; rfl))
    · exact inv.store (by rw [hsect.1]; rfl) (by rw [hsect.1]; rfl) .writeAt
  all_goals cases hschedule

/-- A call that has written its tick begins the generation. -/
theorem Inv.begin {timer : Protected C} (inv : s.Inv) (entering : s.Entering generation 1)
    (hgeneration : timer.generation = some generation) (hfailure : timer.failure = none) :
    Inv { s with sect := .free, timer } where
  single := inv.single
  fresh := inv.fresh
  allocated other h := by
    obtain rfl := Option.some.inj (hgeneration.symm.trans h)
    exact entering.allocated
  armed _ := ⟨generation, hgeneration, entering.live⟩
  sect := trivial
  running := inv.running
  threw := inv.threw
  failed h := by
    change timer.failure.isSome at h
    rw [hfailure] at h
    cases h

theorem Inv.commit (inv : s.Inv) (hcommit : s.commit = some s') : s'.Inv := by
  have hsect := inv.sect
  unfold State.commit at hcommit
  split at hcommit
  next hs =>
    rw [hs] at hsect
    cases hcommit
    exact inv.begin hsect rfl rfl
  next hs =>
    rw [hs] at hsect
    cases hcommit
    exact inv.begin hsect.1 rfl hsect.2.2
  next => cases hcommit

theorem Inv.check {copied : Bool} (inv : s.Inv) (hfree : s.sect = .free) (hcheck : s.check copied = some s') :
    s'.Inv := by
  have hrunning := inv.running
  unfold State.check at hcheck
  split at hcheck
  next tick hw =>
    have htick : s.worker.tick = some tick := by rw [hw]; rfl
    rw [hw] at hrunning
    split at hcheck
    next hstale =>
      cases hcheck
      exact inv.discard hfree htick hstale (by rw [hw]; rfl)
    split at hcheck
    next =>
      cases hcheck
      exact inv.work htick.symm (.inl hfree) hrunning
    split at hcheck <;> cases hcheck
    next =>
      refine inv.work htick.symm (.inl hfree) ?_
      rw [hrunning]
      rfl
    next => exact inv.work htick.symm (.inl hfree) hrunning
  next => cases hcheck

theorem Inv.callback {outcome : Outcome} (inv : s.Inv) (hcallback : s.callback outcome = some s') : s'.Inv := by
  have hrunning := inv.running
  unfold State.callback at hcallback
  split at hcallback <;> cases hcallback
  next tick callback hw =>
    have htick : s.worker.tick = some tick := by rw [hw]; rfl
    rw [hw] at hrunning
    refine inv.work ?_ (.inr fun _ h => by rw [hw] at h; cases h) ?_
    · rw [htick]
      cases outcome <;> rfl
    · rw [hrunning]
      cases outcome <;> rfl

theorem Inv.recheck (inv : s.Inv) (hfree : s.sect = .free) (hrecheck : s.recheck = some s') : s'.Inv := by
  unfold State.recheck at hrecheck
  split at hrecheck
  next tick hw =>
    split at hrecheck <;> cases hrecheck
    next hcurrent => exact { inv with sect := ⟨hw, hcurrent⟩ }
    next hstale => exact inv.discard hfree (by rw [hw]; rfl) (by simpa using hstale) (by rw [hw]; rfl)
  next => cases hrecheck

theorem Inv.storeFailure (inv : s.Inv) (hfree : s.sect = .free) (hstore : s.storeFailure = some s') :
    s'.Inv := by
  unfold State.storeFailure at hstore
  split at hstore <;> cases hstore
  next tick failure hw =>
    have htick : s.worker.tick = some tick := by rw [hw]; rfl
    have hstored := inv.store htick (by rw [hw]; rfl) failure
    unfold storeFailureLocked at hstored ⊢
    split <;> simpa [*] using hstored

theorem Inv.take {i : Nat} (inv : s.Inv) (htake : s.take i = some s') : s'.Inv := by
  unfold State.take at htake
  split at htake
  next tick hw hi =>
    split at htake <;> cases htake
    obtain ⟨hlt, rfl⟩ := List.getElem?_eq_some_iff.mp hi
    have hlive : ∀ generation, live { s with queue := s.queue.eraseIdx i, worker := .taken s.queue[i] }
      generation =
        s.live generation := fun generation => by
      have hperm := (List.getElem_cons_eraseIdx_perm hlt).countP_eq fun tick =>
        decide (tick.generation = generation)
      rw [List.countP_cons] at hperm
      rw [live, live, hw, ← hperm]
      simp [Worker.holds, Worker.tick]
    refine inv.move rfl rfl hlive ?_ (inv.running.trans (by rw [hw]; rfl)) rfl rfl
    exact inv.sect.congr rfl rfl rfl hlive fun _ h => by rw [hw] at h; cases h
  next => cases htake

theorem of_locked {o : Option (State C)} (h : s.locked o = some s') : s.sect = .free ∧ o = some s' := by
  unfold locked at h
  split at h
  · exact ⟨‹_›, h⟩
  · cases h

theorem Inv.step {a : Action C} (inv : s.Inv) (hstep : s.step a = some s') : s'.Inv := by
  cases a with
  | start interval fn =>
    cases interval with
    | none =>
      cases hstep
      exact { inv with
        sect := inv.sect.congr rfl rfl rfl (fun _ => rfl) fun _ h => h
        threw := threw_append inv.threw rfl }
    | some interval =>
      obtain ⟨-, h⟩ := of_locked hstep
      cases h
      exact inv.enter (.start interval fn) (inv.entering _)
  | stop =>
    obtain ⟨hfree, h⟩ := of_locked hstep
    cases h
    exact inv.stop hfree
  | resume =>
    obtain ⟨-, h⟩ := of_locked hstep
    cases h
    exact inv.resume
  | schedule => exact inv.schedule hstep
  | commit => exact inv.commit hstep
  | take => exact inv.take hstep
  | check => exact inv.check (of_locked hstep).1 (of_locked hstep).2
  | callback => exact inv.callback hstep
  | recheck => exact inv.recheck (of_locked hstep).1 (of_locked hstep).2
  | storeFailure => exact inv.storeFailure (of_locked hstep).1 (of_locked hstep).2
  | advance ticks =>
    cases hstep
    exact { inv with sect := inv.sect.congr rfl rfl rfl (fun _ => rfl) fun _ h => h }

-- ---------------------------------------------------------------------------
-- Every run
-- ---------------------------------------------------------------------------

/-- A timer before its constructor calls `resume`. -/
def initial (fn : Option C) (interval : Nat) : State C := { timer := { fn, interval } }

theorem inv_initial (fn : Option C) (interval : Nat) : (initial fn interval).Inv where
  single _ := Nat.zero_le _
  fresh _ _ := rfl
  allocated := nofun
  armed := nofun
  sect := trivial
  running := rfl
  threw := nofun
  failed := nofun

/-- What most steps leave alone. -/
structure Frame (s s' : State C) : Prop where
  generation : s'.timer.generation = s.timer.generation
  active : s'.timer.active = true → s.timer.active = true
  running : s'.running ≤ s.running

theorem Frame.of_eq (hgeneration : s'.timer.generation = s.timer.generation)
    (hactive : s'.timer.active = s.timer.active) (hrunning : s'.running = s.running) : s.Frame s' :=
  ⟨hgeneration, fun h => hactive.symm.trans h, Nat.le_of_eq hrunning⟩

theorem storeFailureLocked_frame (s : State C) (generation : Generation) (failure : Failure) :
    s.Frame (s.storeFailureLocked generation failure) := by
  unfold storeFailureLocked
  split
  · exact ⟨rfl, nofun, Nat.le_refl _⟩
  · exact .of_eq rfl rfl rfl

/-- Only the end of `start` and `resume` begins a generation, and only the first check a callback. -/
theorem step_frame {a : Action C} (hstep : s.step a = some s') (hcommit : a ≠ .commit)
    (hcheck : ∀ copied, a ≠ .check copied) : s.Frame s' := by
  cases a with
  | commit => exact absurd rfl hcommit
  | check copied => exact absurd rfl (hcheck copied)
  | start interval fn =>
    cases interval with
    | none => cases hstep; exact .of_eq rfl rfl rfl
    | some interval => cases (of_locked hstep).2; exact .of_eq rfl rfl rfl
  | stop => cases (of_locked hstep).2; exact ⟨rfl, nofun, Nat.le_refl _⟩
  | resume =>
    cases (of_locked hstep).2
    unfold State.resume
    split
    · exact .of_eq rfl rfl rfl
    · split <;> exact .of_eq rfl rfl rfl
  | schedule fault =>
    simp only [State.step, State.schedule] at hstep
    split at hstep
    next => split at hstep <;> cases hstep <;> exact .of_eq rfl rfl rfl
    next => split at hstep <;> cases hstep <;> exact .of_eq rfl rfl rfl
    next tick _ =>
      split at hstep <;> cases hstep
      · exact .of_eq rfl rfl rfl
      · exact .of_eq rfl rfl rfl
      · have hframe := s.storeFailureLocked_frame tick.generation .writeAt
        exact ⟨hframe.generation, hframe.active, hframe.running⟩
    all_goals cases hstep
  | take i =>
    simp only [State.step, State.take] at hstep
    split at hstep
    · split at hstep <;> cases hstep
      exact .of_eq rfl rfl rfl
    · cases hstep
  | callback outcome =>
    simp only [State.step, State.callback] at hstep
    split at hstep <;> cases hstep
    exact ⟨rfl, id, Nat.sub_le _ _⟩
  | recheck =>
    have hstep := (of_locked hstep).2
    simp only [State.recheck] at hstep
    split at hstep
    · split at hstep <;> cases hstep <;> exact .of_eq rfl rfl rfl
    · cases hstep
  | storeFailure =>
    have hstep := (of_locked hstep).2
    simp only [State.storeFailure] at hstep
    split at hstep <;> cases hstep
    next tick failure _ =>
      have hframe := s.storeFailureLocked_frame tick.generation failure
      exact ⟨hframe.generation, hframe.active, hframe.running⟩
  | advance ticks => cases hstep; exact .of_eq rfl rfl rfl

theorem check_timer {copied : Bool} (hcheck : s.check copied = some s') : s'.timer = s.timer := by
  unfold State.check at hcheck
  repeat' split at hcheck
  all_goals cases hcheck
  all_goals rfl

theorem commit_running (hcommit : s.commit = some s') : s'.running = s.running := by
  unfold State.commit at hcommit
  split at hcommit <;> cases hcommit <;> rfl

/-- Unless a generation begins. -/
theorem timer_frame {a : Action C} (hstep : s.step a = some s') (hcommit : a ≠ .commit) :
    s'.timer.generation = s.timer.generation ∧ (s'.timer.active = true → s.timer.active = true) := by
  by_cases hcheck : ∃ copied, a = .check copied
  · obtain ⟨copied, rfl⟩ := hcheck
    rw [check_timer (of_locked hstep).2]
    exact ⟨rfl, id⟩
  · have hframe := step_frame hstep hcommit fun copied he => hcheck ⟨copied, he⟩
    exact ⟨hframe.generation, hframe.active⟩

/-- Generations only go up. -/
theorem Inv.generation_le {a : Action C} (inv : s.Inv) (hstep : s.step a = some s')
    (hgeneration : s.timer.generation = some generation) :
    ∃ later, s'.timer.generation = some later ∧ generation ≤ later := by
  have hsect := inv.sect
  by_cases hcommit : a = .commit
  · subst hcommit
    simp only [State.step, State.commit] at hstep
    split at hstep
    next _ _ later hs =>
      cases hstep
      rw [hs] at hsect
      exact ⟨later, rfl, Nat.le_of_lt (hsect.newest _ hgeneration)⟩
    next later hs =>
      cases hstep
      rw [hs] at hsect
      exact ⟨later, rfl, Nat.le_of_lt (hsect.1.newest _ hgeneration)⟩
    next => cases hstep
  · exact ⟨generation, (timer_frame hstep hcommit).1.trans hgeneration, Nat.le_refl _⟩

/-- A callback begins for a tick. -/
structure Admits (s : State C) (a : Action C) (s' : State C) (tick : Tick) : Prop where
  step : s.step a = some s'
  begins : s.running < s'.running
  tick : s'.worker.tick = some tick

theorem Admits.current {a : Action C} (h : s.Admits a s' tick) :
    s.worker = .taken tick ∧ s.timer.active = true ∧ s.timer.generation = some tick.generation := by
  obtain ⟨copied, rfl⟩ : ∃ copied, a = .check copied := by
    by_contra hno
    refine absurd h.begins (Nat.not_lt.mpr ?_)
    by_cases hcommit : a = .commit
    · subst hcommit
      exact Nat.le_of_eq (commit_running h.step)
    · exact (step_frame h.step hcommit fun copied he => hno ⟨copied, he⟩).running
  have hstep := (of_locked h.step).2
  have hbegins := h.begins
  have htick := h.tick
  unfold State.check at hstep
  split at hstep
  next taken hw =>
    split at hstep
    next =>
      cases hstep
      exact absurd hbegins (Nat.lt_irrefl _)
    next hcurrent =>
      -- whichever way it goes on, it has the tick that was checked
      have hsame : s'.worker.tick = some taken := by
        split at hstep
        · cases hstep; rfl
        · split at hstep <;> cases hstep <;> rfl
      obtain rfl := Option.some.inj (hsame.symm.trans htick)
      exact ⟨hw, current_iff.mp (by simpa using hcurrent)⟩
  next => cases hstep

/-- A current tick of later is not older than the current generation of now. -/
theorem Inv.le_of_reaches (inv : s.Inv) (run : Reaches State.step s s')
    (hgeneration : s.timer.generation = some generation) :
    s'.Inv ∧ ∃ later, s'.timer.generation = some later ∧ generation ≤ later :=
  run.invariant (I := fun t => t.Inv ∧ ∃ later, t.timer.generation = some later ∧ generation ≤ later)
    ⟨inv, generation, hgeneration, Nat.le_refl _⟩ fun ⟨inv, _, hlater, hle⟩ _ hstep =>
      have ⟨last, hlast, hle'⟩ := inv.generation_le hstep hlater
      ⟨inv.step hstep, last, hlast, Nat.le_trans hle hle'⟩

/-- What holds of a timer in any state. -/
structure Sound (s : State C) : Prop where
  armed : s.timer.active = true → ∃ generation, s.timer.generation = some generation ∧ s.live generation = 1
  serial : s.running ≤ 1
  -- Now and later, a callback begins for a tick of the current generation of an active timer, which
  -- is not older than the one of now.
  admitted : ∀ t a t' tick, Reaches step s t → t.Admits a t' tick →
    t.running = 0 ∧ t.timer.active = true ∧ t.timer.generation = some tick.generation ∧
      ∀ generation, s.timer.generation = some generation → generation ≤ tick.generation
  -- A call that throws leaves all as it was.
  threw : ∀ before after, (before, after) ∈ s.threw → before = after
  failed : s.timer.failure.isSome →
    s.timer.active = false ∧ ∃ generation, s.failedBy = some generation ∧ s.timer.generation = some generation
  -- And only `start` ends that.
  rearmed : s.timer.failure.isSome → ∀ a s', s.step a = some s' → s'.timer.active = true →
    ∃ interval fn generation, s.sect = .started interval fn generation

theorem timer_sound {fn : Option C} {interval : Nat} (run : Reaches State.step (initial fn interval) s) :
    s.Sound := by
  have inv : s.Inv := run.invariant (inv_initial fn interval) fun inv _ hstep => inv.step hstep
  exact {
    armed := inv.armed
    serial := by
      rw [inv.running]
      cases s.worker <;> simp [Worker.running]
    admitted := by
      intro t a t' tick hrun hadmits
      obtain ⟨hw, hactive, hcurrent⟩ := hadmits.current
      have invt : t.Inv := hrun.invariant inv fun inv _ hstep => inv.step hstep
      refine ⟨invt.running.trans (by rw [hw]; rfl), hactive, hcurrent, fun generation hgeneration => ?_⟩
      obtain ⟨-, later, hlater, hle⟩ := inv.le_of_reaches hrun hgeneration
      obtain rfl := Option.some.inj (hlater.symm.trans hcurrent)
      exact hle
    threw := fun before after h => inv.threw (before, after) h
    failed := fun h => by
      obtain ⟨hactive, hby, hsame⟩ := inv.failed h
      obtain ⟨generation, hgeneration⟩ := Option.isSome_iff_exists.mp hby
      exact ⟨hactive, generation, hgeneration, hsame.trans hgeneration⟩
    rearmed := by
      intro h a s' hstep hactive
      have hinactive := (inv.failed h).1
      have hsect := inv.sect
      by_cases hcommit : a = .commit
      · subst hcommit
        simp only [State.step, State.commit] at hstep
        split at hstep
        next interval fn generation hs => exact ⟨interval, fn, generation, hs⟩
        next hs =>
          rw [hs] at hsect
          rw [hsect.2.2] at h
          cases h
        next => cases hstep
      · rw [(timer_frame hstep hcommit).2 hactive] at hinactive
        cases hinactive }

/-- A first callback; a restart while it runs; the write of its tick comes to nothing, and the tick of
the restart fails. -/
def restartAndFail : List (Action Unit) :=
  [Action.resume, Action.schedule none, Action.commit, Action.advance 5, Action.take 0, Action.check true,
    Action.start (some 3) none, Action.schedule none, Action.commit, Action.callback .returned, Action.recheck,
    Action.advance 3, Action.take 0, Action.check true, Action.callback .stdException, Action.recheck,
    Action.schedule (some .writeAt), Action.resume]

theorem timer_sound_restartAndFail :
    ((exec State.step (initial (some ()) 5) restartAndFail).getD (initial (some ()) 5)).Sound :=
  timer_sound (.of_isSome restartAndFail (by decide))

example : (exec State.step (initial (some ()) 5) restartAndFail).map
    (fun s => (s.timer.active, s.timer.failure, s.failedBy, s.threw.length)) =
      some (false, some .writeAt, some 1, 1) := by decide

end State
end Dmn.Timer
