import Dmn.Runtime.Machine
import Dmn.Lib.Census

/-!
# When a job executor is at work

The count of jobs is what is queued, on the stack or just taken off it, less
what a producer has pushed and not counted yet. While the main loop is entered,
a count above zero comes with a task that will reach a job, or a caller that
will post one. `enterMainLoop` breaks this where it reads the count before a
job is counted and sets the flag after that.
-/

namespace Dmn.Runtime

open Dmn.Lib

def Pc.counting : Pc → Int
  | .count _ => 1
  | _ => 0

/-- At the push or the count of a job. -/
def Pc.adding : Pc → Bool
  | .push _ | .count _ => true
  | _ => false

theorem Pc.counting_of_not_adding {p : Pc} (h : p.adding = false) : p.counting = 0 := by
  cases p <;> first | rfl | cases h

/-- The caller posts a task, if the main loop is entered. -/
def Pc.waking : Pc → Bool
  | .test | .post | .clear true | .start => true
  | _ => false

/-- No call of `addJob` or `enterMainLoop` is part-way. -/
def Pc.settled : Pc → Bool
  | .idle | .wait | .exit | .leave => true
  | _ => false

theorem Pc.counting_of_settled {p : Pc} (h : p.settled) : p.counting = 0 := by
  cases p <;> first | rfl | cases h

theorem Pc.waking_of_settled {p : Pc} (h : p.settled) : p.waking = false := by
  cases p <;> first | rfl | cases h

/-- A job has been taken off the stack and is still counted. -/
def ExecPc.pending : ExecPc → Int
  | .done | .caught => 1
  | _ => 0

namespace State

variable {ι : Type} {s s' : State ι} {t : ι} {p : Pc}

structure Counted [Fintype ι] (s : State ι) : Prop where
  count : s.jobsCount = s.queued.length + s.schedJob.length + s.exec.pending - census Pc.counting s.pc
  valid : ∀ t job, s.pc t = .push job → job.priority ≠ .kSched
  aligned : s.schedTask.map Task.number = s.schedJob.map Entry.number
  state : ∀ p, s.exec = .high p ∨ s.exec = .medium p → p = s.top

-- ---------------------------------------------------------------------------
-- A push
-- ---------------------------------------------------------------------------

/-- What a push leaves alone. -/
structure SameButQueues (s s' : State ι) : Prop where
  jobsCount : s'.jobsCount = s.jobsCount
  mainEnter : s'.mainEnter = s.mainEnter
  tasks : s'.tasks = s.tasks
  schedJob : s'.schedJob = s.schedJob
  schedTask : s'.schedTask = s.schedTask
  exec : s'.exec = s.exec
  pc : s'.pc = s.pc
  dequeued : s'.history.dequeued = s.history.dequeued
  finished : s'.history.finished = s.history.finished
  failed : s'.history.failed = s.history.failed

theorem push_same (s : State ι) (job : Job) : s.SameButQueues (s.push job) := by
  unfold push
  dsimp only
  split <;> exact ⟨rfl, rfl, rfl, rfl, rfl, rfl, rfl, rfl, rfl, rfl⟩

/-- The entry goes to the end of the queue of its priority. -/
theorem queue_push (s : State ι) (job : Job) (priority : Priority) (hjob : job.priority ≠ .kSched) :
    (s.push job).queue priority =
      s.queue priority ++ if job.priority = priority then [⟨s.history.enqueued.length, job⟩] else [] := by
  obtain ⟨jobPriority, suspensions, throws⟩ := job
  cases jobPriority with
  | kSched => exact absurd rfl hjob
  | kHigh | kMedium | kLow => cases priority <;> simp [push, queue]

theorem queued_push (s : State ι) (job : Job) (hjob : job.priority ≠ .kSched) :
    (s.push job).queued.Perm (s.queued ++ [⟨s.history.enqueued.length, job⟩]) := by
  have hhigh := queue_push s job .kHigh hjob
  have hmedium := queue_push s job .kMedium hjob
  have hlow := queue_push s job .kLow hjob
  simp only [queue] at hhigh hmedium hlow
  rw [queued, queued, hhigh, hmedium, hlow]
  obtain ⟨jobPriority, suspensions, throws⟩ := job
  cases jobPriority with
  | kSched => exact absurd rfl hjob
  | kHigh =>
    simp only [reduceCtorEq, ↓reduceIte, List.append_nil, List.append_assoc]
    exact List.Perm.append_left _ (List.perm_append_comm.trans (by simp))
  | kMedium =>
    simp only [reduceCtorEq, ↓reduceIte, List.append_nil, List.append_assoc]
    exact List.Perm.append_left _ (List.Perm.append_left _ List.perm_append_comm)
  | kLow => simp

-- ---------------------------------------------------------------------------
-- What a caller does
-- ---------------------------------------------------------------------------

/-- Neither the jobs nor their count. -/
structure SameJobs (s s' : State ι) : Prop where
  highQueue : s'.highQueue = s.highQueue
  mediumQueue : s'.mediumQueue = s.mediumQueue
  lowQueue : s'.lowQueue = s.lowQueue
  jobsCount : s'.jobsCount = s.jobsCount
  schedJob : s'.schedJob = s.schedJob
  schedTask : s'.schedTask = s.schedTask
  exec : s'.exec = s.exec
  history : s'.history = s.history

theorem SameJobs.queued (h : s.SameJobs s') : s'.queued = s.queued := by
  unfold State.queued
  rw [h.highQueue, h.mediumQueue, h.lowQueue]

theorem run_cases [DecidableEq ι] (hs : s.run t = some s') :
    (∃ job, s.pc t = .push job ∧ s' = (s.push job).goto t (.count s.history.enqueued.length)) ∨
    (∃ number, s.pc t = .count number ∧
      s' = { s with jobsCount := s.jobsCount + 1 }.goto t (if s.jobsCount = 0 then .test else .idle)) ∨
    ∃ p, (s.pc t).adding = false ∧ p.adding = false ∧ s'.pc = Function.update s.pc t p ∧ s.SameJobs s' := by
  simp only [State.run] at hs
  split at hs
  · cases hs
  · rename_i job hpc
    exact .inl ⟨job, hpc, (Option.some.inj hs).symm⟩
  · rename_i number hpc
    exact .inr (.inl ⟨number, hpc, (Option.some.inj hs).symm⟩)
  · rename_i hpc
    obtain rfl := Option.some.inj hs
    exact .inr (.inr ⟨_, by rw [hpc]; rfl, by split <;> rfl, rfl, ⟨rfl, rfl, rfl, rfl, rfl, rfl, rfl, rfl⟩⟩)
  · rename_i hpc
    obtain rfl := Option.some.inj hs
    exact .inr (.inr ⟨_, by rw [hpc]; rfl, rfl, rfl, ⟨rfl, rfl, rfl, rfl, rfl, rfl, rfl, rfl⟩⟩)
  · rename_i hpc
    obtain rfl := Option.some.inj hs
    exact .inr (.inr ⟨_, by rw [hpc]; rfl, rfl, rfl, ⟨rfl, rfl, rfl, rfl, rfl, rfl, rfl, rfl⟩⟩)
  · rename_i startJobExecutor hpc
    obtain rfl := Option.some.inj hs
    split
    · exact .inr (.inr ⟨_, by rw [hpc]; rfl, rfl, rfl, ⟨rfl, rfl, rfl, rfl, rfl, rfl, rfl, rfl⟩⟩)
    · exact .inr (.inr ⟨_, by rw [hpc]; rfl, rfl, rfl, ⟨rfl, rfl, rfl, rfl, rfl, rfl, rfl, rfl⟩⟩)
  · rename_i startJobExecutor hpc
    obtain rfl := Option.some.inj hs
    exact .inr (.inr ⟨_, by rw [hpc]; rfl, by split <;> rfl, rfl, ⟨rfl, rfl, rfl, rfl, rfl, rfl, rfl, rfl⟩⟩)
  · rename_i hpc
    obtain rfl := Option.some.inj hs
    exact .inr (.inr ⟨_, by rw [hpc]; rfl, rfl, rfl, ⟨rfl, rfl, rfl, rfl, rfl, rfl, rfl, rfl⟩⟩)
  · rename_i hpc
    split at hs
    · obtain rfl := Option.some.inj hs
      exact .inr (.inr ⟨_, by rw [hpc]; rfl, rfl, rfl, ⟨rfl, rfl, rfl, rfl, rfl, rfl, rfl, rfl⟩⟩)
    · cases hs
  · rename_i hpc
    obtain rfl := Option.some.inj hs
    exact .inr (.inr ⟨_, by rw [hpc]; rfl, by split <;> rfl, rfl, ⟨rfl, rfl, rfl, rfl, rfl, rfl, rfl, rfl⟩⟩)
  · rename_i hpc
    obtain rfl := Option.some.inj hs
    exact .inr (.inr ⟨_, by rw [hpc]; rfl, rfl, rfl, ⟨rfl, rfl, rfl, rfl, rfl, rfl, rfl, rfl⟩⟩)

-- ---------------------------------------------------------------------------
-- The count
-- ---------------------------------------------------------------------------

theorem Counted.empty [Fintype ι] : ({} : State ι).Counted where
  count := by simp [queued, ExecPc.pending, census, Pc.counting]
  valid := nofun
  aligned := rfl
  state := by simp

/-- A caller moves. -/
theorem Counted.moves [Fintype ι] [DecidableEq ι] (h : s.Counted) (hpc : s'.pc = Function.update s.pc t p)
    (hvalid : ∀ job, p = .push job → job.priority ≠ .kSched) (hjob : s'.schedJob = s.schedJob)
    (htask : s'.schedTask = s.schedTask) (hexec : s'.exec = s.exec)
    (hcount : s'.jobsCount - s'.queued.length + p.counting =
      s.jobsCount - s.queued.length + (s.pc t).counting) : s'.Counted where
  count := by
    have hcensus := census_update Pc.counting s.pc t p
    have hold := h.count
    rw [hpc, hjob, hexec]
    omega
  valid u job hu := by
    rw [hpc] at hu
    by_cases hut : u = t
    · subst hut
      rw [Function.update_self] at hu
      exact hvalid job hu
    · rw [Function.update_of_ne hut] at hu
      exact h.valid u job hu
  aligned := by
    rw [hjob, htask]
    exact h.aligned
  state := by
    unfold top
    rw [hjob, hexec]
    exact h.state

theorem Counted.run [Fintype ι] [DecidableEq ι] (h : s.Counted) (hs : s.run t = some s') : s'.Counted := by
  rcases run_cases hs with ⟨job, hpc, rfl⟩ | ⟨number, hpc, rfl⟩ | ⟨p, hold, hnew, hpc, hsame⟩
  · have hsame := push_same s job
    have hlength := (queued_push s job (h.valid t job hpc)).length_eq
    rw [List.length_append, List.length_singleton] at hlength
    refine h.moves (t := t) (congrArg (Function.update · t _) hsame.pc) nofun hsame.schedJob hsame.schedTask
      hsame.exec ?_
    rw [hpc]
    show (s.push job).jobsCount - ((s.push job).queued.length : Int) + 1 = s.jobsCount - s.queued.length + 0
    rw [hsame.jobsCount, hlength]
    omega
  · refine h.moves (t := t) rfl (by split <;> exact nofun) rfl rfl rfl ?_
    have hzero : (if s.jobsCount = 0 then Pc.test else .idle).counting = 0 := by split <;> rfl
    rw [hpc, hzero]
    show s.jobsCount + 1 - (s.queued.length : Int) + 0 = s.jobsCount - s.queued.length + 1
    omega
  · refine h.moves hpc (fun job hp => ?_) hsame.schedJob hsame.schedTask hsame.exec ?_
    · subst hp
      cases hnew
    · rw [hsame.jobsCount, hsame.queued, Pc.counting_of_not_adding hold, Pc.counting_of_not_adding hnew]

/-- The async thread moves. -/
theorem Counted.execs [Fintype ι] (h : s.Counted) (hpc : s'.pc = s.pc)
    (haligned : s'.schedTask.map Task.number = s'.schedJob.map Entry.number)
    (hstate : ∀ p, s'.exec = .high p ∨ s'.exec = .medium p → p = s'.top)
    (hcount : s'.jobsCount - s'.queued.length - s'.schedJob.length - s'.exec.pending =
      s.jobsCount - s.queued.length - s.schedJob.length - s.exec.pending) : s'.Counted where
  count := by
    have hold := h.count
    rw [hpc]
    omega
  valid := hpc ▸ h.valid
  aligned := haligned
  state := hstate

/-- A job goes from a queue to the stack, or throws at once. -/
theorem Counted.add [Fintype ι] (h : s.Counted) (entry : Entry) (hpc : s'.pc = s.pc)
    (hjob : s'.schedJob = s.schedJob) (htask : s'.schedTask = s.schedTask) (hcount : s'.jobsCount = s.jobsCount)
    (hpending : s.exec.pending = 0) (hqueued : s.queued.length = s'.queued.length + 1) :
    (s'.addToContext entry).Counted := by
  unfold addToContext
  dsimp only
  split
  · refine h.execs hpc ?_ (by simp) ?_
    · rw [hjob, htask]
      exact h.aligned
    · show s'.jobsCount - (s'.queued.length : Int) - s'.schedJob.length - 1 = _
      rw [hcount, hjob, hpending]
      omega
  · refine h.execs hpc ?_ (by simp) ?_
    · rw [hjob, htask, List.map_cons, List.map_cons, h.aligned]
    · show s'.jobsCount - (s'.queued.length : Int) - ((entry :: s'.schedJob).length : Int) - 0 = _
      rw [hcount, hjob, hpending, List.length_cons]
      omega

theorem Counted.exec [Fintype ι] (h : s.Counted) (hs : s.execRuntimeJobInternal = some s') : s'.Counted := by
  simp only [execRuntimeJobInternal] at hs
  split at hs
  · rename_i hexec
    split at hs
    · obtain rfl := Option.some.inj hs
      refine h.execs rfl h.aligned (fun p hp => ?_) ?_
      · dsimp only at hp
        split at hp
        · simp at hp
        · simpa [top, eq_comm] using hp
      · rw [hexec]
        dsimp only
        split <;> rfl
    · cases hs
  · rename_i state hexec
    obtain rfl := Option.some.inj hs
    split
    · rename_i entry highQueue hqueue
      exact h.add entry rfl rfl rfl rfl (by rw [hexec]; rfl) (by simp [queued, hqueue])
    · refine h.execs rfl h.aligned (fun p hp => ?_) ?_
      · have hstate := h.state state (.inl hexec)
        dsimp only [look] at hp
        split at hp
        · simp at hp
        · obtain rfl : state = p := by simpa using hp
          exact hstate
      · rw [hexec]
        dsimp only
        split <;> rfl
  · rename_i state hexec
    obtain rfl := Option.some.inj hs
    split
    · rename_i entry mediumQueue hqueue
      exact h.add entry rfl rfl rfl rfl (by rw [hexec]; rfl) (by simp [queued, hqueue]; omega)
    · refine h.execs rfl h.aligned (fun p hp => ?_) ?_
      · dsimp only [look] at hp
        split at hp <;> simp at hp
      · rw [hexec]
        dsimp only
        split <;> rfl
  · rename_i hexec
    obtain rfl := Option.some.inj hs
    split
    · rename_i entry lowQueue hqueue
      exact h.add entry rfl rfl rfl rfl (by rw [hexec]; rfl) (by simp [queued, hqueue]; omega)
    · exact h.execs rfl h.aligned (by simp) (by rw [hexec]; rfl)
  · rename_i hexec
    obtain rfl := Option.some.inj hs
    split
    · rename_i entry jobs task tasks hjob htask
      have haligned := h.aligned
      rw [hjob, htask, List.map_cons, List.map_cons] at haligned
      obtain ⟨hnumber, htail⟩ := List.cons.inj haligned
      unfold resume
      dsimp only
      split
      · refine h.execs rfl ?_ (by simp) (by rw [hexec]; rfl)
        rw [hjob, List.map_cons, List.map_cons]
        exact haligned
      · refine h.execs rfl htail (by simp) ?_
        show s.jobsCount - (s.queued.length : Int) - jobs.length - 1 = _
        rw [hjob, hexec, List.length_cons]
        show _ = s.jobsCount - (s.queued.length : Int) - ((jobs.length + 1 : Nat) : Int) - 0
        omega
    · exact h.execs rfl h.aligned (by simp) (by rw [hexec]; rfl)
  · rename_i hexec
    obtain rfl := Option.some.inj hs
    refine h.execs rfl h.aligned (by split <;> simp) ?_
    have hzero : (if s.moreJobs then ExecPc.post else .check).pending = 0 := by split <;> rfl
    rw [hexec, hzero]
    show s.jobsCount - 1 - (s.queued.length : Int) - s.schedJob.length - 0 =
      s.jobsCount - s.queued.length - s.schedJob.length - 1
    omega
  · rename_i hexec
    obtain rfl := Option.some.inj hs
    exact h.execs rfl h.aligned (by simp) (by rw [hexec]; rfl)
  · rename_i hexec
    obtain rfl := Option.some.inj hs
    exact h.execs rfl h.aligned (by simp) (by rw [hexec]; rfl)
  · rename_i hexec
    obtain rfl := Option.some.inj hs
    refine h.execs rfl h.aligned (by split <;> simp) ?_
    have hzero : (if s.moreJobs then ExecPc.post else .idle).pending = 0 := by split <;> rfl
    rw [hexec, hzero]
    show s.jobsCount - 1 - (s.queued.length : Int) - s.schedJob.length - 0 =
      s.jobsCount - s.queued.length - s.schedJob.length - 1
    omega

/-- A call begins. -/
theorem call_cases [DecidableEq ι] {x : Action ι} (hs : s.step x = some s') :
    (∃ t, x = .run t ∧ s.run t = some s') ∨ (x = .exec ∧ s.execRuntimeJobInternal = some s') ∨
    s' = s ∨ ∃ t p, s.pc t = .idle ∧ s' = s.goto t p ∧
      ((∃ job, p = .push job ∧ job.priority ≠ .kSched) ∨ p = .load ∨ p = .exit) := by
  cases x with
  | addJob t job =>
    simp only [step] at hs
    split at hs
    · rename_i hpc
      split at hs
      · exact .inr (.inr (.inl (Option.some.inj hs).symm))
      · rename_i hjob
        exact .inr (.inr (.inr ⟨t, _, hpc, (Option.some.inj hs).symm, .inl ⟨job, rfl, hjob⟩⟩))
    · cases hs
  | enterMainLoop t =>
    simp only [step] at hs
    split at hs
    · rename_i hpc
      exact .inr (.inr (.inr ⟨t, _, hpc, (Option.some.inj hs).symm, .inr (.inl rfl)⟩))
    · cases hs
  | exitMainLoop t =>
    simp only [step] at hs
    split at hs
    · rename_i hpc
      exact .inr (.inr (.inr ⟨t, _, hpc, (Option.some.inj hs).symm, .inr (.inr rfl)⟩))
    · cases hs
  | run t => exact .inl ⟨t, rfl, hs⟩
  | exec => exact .inr (.inl ⟨rfl, hs⟩)

theorem Counted.step [Fintype ι] [DecidableEq ι] {x : Action ι} (h : s.Counted) (hs : s.step x = some s') :
    s'.Counted := by
  rcases call_cases hs with ⟨t, -, hs⟩ | ⟨-, hs⟩ | rfl | ⟨t, p, hpc, rfl, hp⟩
  · exact h.run hs
  · exact h.exec hs
  · exact h
  · refine h.moves (t := t) rfl (fun job hjob => ?_) rfl rfl rfl ?_
    · rcases hp with ⟨job', rfl, hvalid⟩ | rfl | rfl
      · cases hjob
        exact hvalid
      · cases hjob
      · cases hjob
    · have hzero : p.counting = 0 := by rcases hp with ⟨job, rfl, -⟩ | rfl | rfl <;> rfl
      rw [hpc, hzero]
      rfl

-- ---------------------------------------------------------------------------
-- Tasks that come to a job
-- ---------------------------------------------------------------------------

/-- The dispatch that is going on comes to a job. -/
def reaching (s : State ι) : Bool :=
  match s.exec with
  | .idle | .check => false
  | .high _ => !s.schedJob.isEmpty || !s.queued.isEmpty
  | .medium _ => !s.schedJob.isEmpty || !s.mediumQueue.isEmpty || !s.lowQueue.isEmpty
  | .low => !s.schedJob.isEmpty || !s.lowQueue.isEmpty
  | .schedule => !s.schedJob.isEmpty
  | .done | .post | .caught => true

/-- A task is posted, comes to a job, or is about to be posted. -/
def Awake (s : State ι) : Prop := 0 < s.tasks ∨ s.reaching ∨ ∃ t, (s.pc t).waking

instance [Fintype ι] : Decidable s.Awake := inferInstanceAs (Decidable (_ ∨ _ ∨ _))

/-- `enterMainLoop` sets the flag after it has read the count as zero, and no job has been left alone since. -/
def Timely (s : State ι) : Action ι → Prop
  | .run t => s.pc t = .enter false → s.mainEnter = false → s.jobsCount ≤ 0 ∨ s.Awake
  | _ => True

instance [Fintype ι] : ∀ x : Action ι, Decidable (s.Timely x)
  | .run _ => inferInstanceAs (Decidable (_ → _ → _))
  | .addJob .. | .enterMainLoop _ | .exitMainLoop _ | .exec => isTrue trivial

/-- While the main loop is entered. -/
def Attended (s : State ι) : Prop := s.mainEnter → s.jobsCount ≤ 0 ∨ s.Awake

theorem reaching_push (s : State ι) (job : Job) (h : s.reaching) : (s.push job).reaching := by
  obtain ⟨jobPriority, suspensions, throws⟩ := job
  cases jobPriority with
  | kSched => exact h
  | kHigh | kMedium | kLow =>
    unfold reaching at h
    split at h <;> simp_all [reaching, push, queued]

/-- A caller moves and does not lose a task. -/
theorem Awake.moves [DecidableEq ι] (h : s.Awake) (hpc : s'.pc = Function.update s.pc t p)
    (hwaking : (s.pc t).waking → p.waking ∨ 0 < s'.tasks) (htasks : s.tasks ≤ s'.tasks)
    (hreaching : s.reaching → s'.reaching) : s'.Awake := by
  rcases h with h | h | ⟨u, hu⟩
  · exact .inl (by omega)
  · exact .inr (.inl (hreaching h))
  · by_cases hut : u = t
    · subst hut
      rcases hwaking hu with hp | hp
      · exact .inr (.inr ⟨u, by rw [hpc, Function.update_self]; exact hp⟩)
      · exact .inl hp
    · exact .inr (.inr ⟨u, by rw [hpc, Function.update_of_ne hut]; exact hu⟩)

theorem awake_of_waking [DecidableEq ι] (hpc : s'.pc = Function.update s.pc t p) (hp : p.waking) : s'.Awake :=
  .inr (.inr ⟨t, by rw [hpc, Function.update_self]; exact hp⟩)

theorem Attended.run [DecidableEq ι] (h : s.Attended) (hok : s.Timely (.run t)) (hs : s.run t = some s') :
    s'.Attended := by
  simp only [State.run] at hs
  split at hs
  · cases hs
  · rename_i job hpc
    obtain rfl := Option.some.inj hs
    have hsame := push_same s job
    intro henter
    rw [show ((s.push job).goto t _).mainEnter = s.mainEnter from hsame.mainEnter] at henter
    refine (h henter).imp (fun hcount => ?_) fun hawake => hawake.moves (t := t)
      (congrArg (Function.update · t _) hsame.pc) (by simp [hpc, Pc.waking]) hsame.tasks.ge
      (reaching_push s job)
    exact hsame.jobsCount.trans_le hcount
  · rename_i number hpc
    obtain rfl := Option.some.inj hs
    intro henter
    rcases lt_trichotomy s.jobsCount 0 with hcount | hcount | hcount
    · exact .inl (by show s.jobsCount + 1 ≤ 0; omega)
    · exact .inr (awake_of_waking (t := t) rfl (by rw [if_pos hcount]; rfl))
    · rcases h henter with hzero | hawake
      · omega
      · exact .inr (hawake.moves (t := t) rfl (by simp [hpc, Pc.waking]) le_rfl id)
  · rename_i hpc
    obtain rfl := Option.some.inj hs
    intro (henter : s.mainEnter = true)
    exact .inr (awake_of_waking (t := t) rfl (by rw [if_pos henter]; rfl))
  · rename_i hpc
    obtain rfl := Option.some.inj hs
    exact fun _ => .inr (.inl (Nat.succ_pos _))
  · rename_i hpc
    obtain rfl := Option.some.inj hs
    exact fun henter => (h henter).imp_right fun hawake =>
      hawake.moves (t := t) rfl (by simp [hpc, Pc.waking]) le_rfl id
  · rename_i startJobExecutor hpc
    obtain rfl := Option.some.inj hs
    split
    · exact fun henter => (h henter).imp_right fun hawake =>
        hawake.moves (t := t) rfl (by simp [hpc, Pc.waking]) le_rfl id
    · rename_i hflag
      intro _
      cases startJobExecutor with
      | true => exact .inr (awake_of_waking (t := t) rfl rfl)
      | false =>
        exact (hok hpc (by simpa using hflag)).imp_right fun hawake =>
          hawake.moves (t := t) rfl (by simp [hpc, Pc.waking]) le_rfl id
  · rename_i startJobExecutor hpc
    obtain rfl := Option.some.inj hs
    cases startJobExecutor with
    | true => exact fun _ => .inr (awake_of_waking (t := t) rfl rfl)
    | false => exact fun henter => (h henter).imp_right fun hawake =>
        hawake.moves (t := t) rfl (by simp [hpc, Pc.waking]) le_rfl id
  · rename_i hpc
    obtain rfl := Option.some.inj hs
    exact fun _ => .inr (.inl (Nat.succ_pos _))
  · rename_i hpc
    split at hs
    · obtain rfl := Option.some.inj hs
      exact fun henter => (h henter).imp_right fun hawake =>
        hawake.moves (t := t) rfl (by simp [hpc, Pc.waking]) le_rfl id
    · cases hs
  · rename_i hpc
    obtain rfl := Option.some.inj hs
    exact fun henter => (h henter).imp_right fun hawake =>
      hawake.moves (t := t) rfl (by simp [hpc, Pc.waking]) le_rfl id
  · rename_i hpc
    obtain rfl := Option.some.inj hs
    exact fun henter => nomatch henter

/-- The async thread moves. -/
theorem Awake.execs (h : s.Awake) (hpc : s'.pc = s.pc) (htasks : s.tasks ≤ s'.tasks)
    (hreaching : s.reaching → s'.reaching ∨ 0 < s'.tasks) : s'.Awake := by
  rcases h with h | h | h
  · exact .inl (by omega)
  · exact (hreaching h).elim (.inr ∘ .inl) .inl
  · rw [← hpc] at h
    exact .inr (.inr h)

theorem reaching_add (s : State ι) (entry : Entry) : (s.addToContext entry).reaching := by
  unfold addToContext
  dsimp only
  split <;> rfl

theorem Attended.execs (h : s.Attended) (henter : s'.mainEnter = s.mainEnter)
    (hcount : s'.jobsCount ≤ s.jobsCount)
    (hawake : 0 < s.jobsCount → s.Awake → 0 < s'.jobsCount → s'.Awake) : s'.Attended := by
  intro h'
  rw [henter] at h'
  by_cases hpos : 0 < s'.jobsCount
  · rcases h h' with hzero | hold
    · omega
    · exact .inr (hawake (by omega) hold hpos)
  · exact .inl (by omega)

theorem Attended.exec [Fintype ι] (h : s.Attended) (hcounted : s.Counted)
    (hs : s.execRuntimeJobInternal = some s') : s'.Attended := by
  simp only [execRuntimeJobInternal] at hs
  split at hs
  · rename_i hexec
    split at hs
    · obtain rfl := Option.some.inj hs
      refine h.execs rfl le_rfl fun hcount _ _ => .inr (.inl ?_)
      -- What is counted is queued or on the stack.
      have hsum := hcounted.count
      have hcensus : 0 ≤ census Pc.counting s.pc := Finset.sum_nonneg fun u _ => by
        cases s.pc u <;> simp [Pc.counting]
      rw [hexec] at hsum
      have hjobs : s.schedJob ≠ [] ∨ s.queued ≠ [] := by
        by_contra hnone
        obtain ⟨hsched, hqueued⟩ := not_or.mp hnone
        rw [not_ne_iff.mp hsched, not_ne_iff.mp hqueued] at hsum
        simp [ExecPc.pending] at hsum
        omega
      show reaching { s with exec := _, .. } = true
      by_cases htop : s.top = .kHigh
      · rw [if_pos htop]
        have hsched : s.schedJob ≠ [] := fun hempty => by simp [top, hempty] at htop
        simpa [reaching] using hsched
      · rw [if_neg htop]
        simpa [reaching, queued] using hjobs
    · cases hs
  · rename_i state hexec
    obtain rfl := Option.some.inj hs
    split
    · rename_i entry highQueue hqueue
      exact h.execs (by unfold addToContext; dsimp only; split <;> rfl)
        (by unfold addToContext; dsimp only; split <;> rfl) fun _ _ _ => .inr (.inl (reaching_add _ _))
    · rename_i hqueue
      refine h.execs rfl le_rfl fun _ hawake _ => hawake.execs rfl le_rfl fun hreaching => .inl ?_
      have htop := hcounted.state state (.inl hexec)
      simp only [reaching, hexec, queued, hqueue] at hreaching
      by_cases hstate : state = .kMedium
      · have hsched : s.schedJob ≠ [] := fun hempty => by simp [top, hempty, hstate] at htop
        simpa [reaching, look, hstate] using hsched
      · have happend : (s.mediumQueue ++ s.lowQueue).isEmpty = (s.mediumQueue.isEmpty &&
          s.lowQueue.isEmpty) := by
          cases s.mediumQueue <;> rfl
        simp only [List.nil_append, happend, Bool.not_and] at hreaching
        simpa [reaching, look, hstate, or_assoc] using hreaching
  · rename_i state hexec
    obtain rfl := Option.some.inj hs
    split
    · rename_i entry mediumQueue hqueue
      exact h.execs (by unfold addToContext; dsimp only; split <;> rfl)
        (by unfold addToContext; dsimp only; split <;> rfl) fun _ _ _ => .inr (.inl (reaching_add _ _))
    · rename_i hqueue
      refine h.execs rfl le_rfl fun _ hawake _ => hawake.execs rfl le_rfl fun hreaching => .inl ?_
      have htop := hcounted.state state (.inr hexec)
      simp only [reaching, hexec, hqueue] at hreaching
      by_cases hstate : state = .kLow
      · have hsched : s.schedJob ≠ [] := fun hempty => by simp [top, hempty, hstate] at htop
        simpa [reaching, look, hstate] using hsched
      · simpa [reaching, look, hstate] using hreaching
  · rename_i hexec
    obtain rfl := Option.some.inj hs
    split
    · rename_i entry lowQueue hqueue
      exact h.execs (by unfold addToContext; dsimp only; split <;> rfl)
        (by unfold addToContext; dsimp only; split <;> rfl) fun _ _ _ => .inr (.inl (reaching_add _ _))
    · rename_i hqueue
      refine h.execs rfl le_rfl fun _ hawake _ => hawake.execs rfl le_rfl fun hreaching => .inl ?_
      simp only [reaching, hexec, hqueue] at hreaching
      simpa [reaching, look] using hreaching
  · rename_i hexec
    obtain rfl := Option.some.inj hs
    split
    · refine h.execs ?_ ?_ fun _ _ _ => .inr (.inl ?_)
      all_goals
        unfold resume
        dsimp only
        split <;> rfl
    · rename_i hnone
      refine h.execs rfl le_rfl fun _ hawake _ => hawake.execs rfl le_rfl fun hreaching => ?_
      -- The stacks are as high as each other, so both are empty.
      have haligned := hcounted.aligned
      cases hjob : s.schedJob with
      | nil => simp [reaching, hexec, hjob] at hreaching
      | cons entry jobs =>
        cases htask : s.schedTask with
        | nil => simp [hjob, htask] at haligned
        | cons task tasks => exact absurd htask (hnone entry jobs task tasks hjob)
  · rename_i hexec
    obtain rfl := Option.some.inj hs
    refine h.execs rfl (by show s.jobsCount - 1 ≤ s.jobsCount; omega) fun _ _ hcount => .inr (.inl ?_)
    have hmore : s.moreJobs = true := decide_eq_true (.inr (by
      have : 0 < s.jobsCount - 1 := hcount
      omega))
    simp [reaching, hmore]
  · rename_i hexec
    obtain rfl := Option.some.inj hs
    exact h.execs rfl le_rfl fun _ _ _ => .inl (Nat.succ_pos _)
  · rename_i hexec
    obtain rfl := Option.some.inj hs
    exact h.execs rfl le_rfl fun _ hawake _ => hawake.execs rfl le_rfl fun hreaching => by
      simp [reaching, hexec] at hreaching
  · rename_i hexec
    obtain rfl := Option.some.inj hs
    refine h.execs rfl (by show s.jobsCount - 1 ≤ s.jobsCount; omega) fun _ _ hcount => .inr (.inl ?_)
    have hmore : s.moreJobs = true := decide_eq_true (.inr (by
      have : 0 < s.jobsCount - 1 := hcount
      omega))
    simp [reaching, hmore]

theorem Attended.step [Fintype ι] [DecidableEq ι] {x : Action ι} (h : s.Attended) (hcounted : s.Counted)
    (hok : s.Timely x) (hs : s.step x = some s') : s'.Attended := by
  rcases call_cases hs with ⟨t, rfl, hs⟩ | ⟨rfl, hs⟩ | rfl | ⟨t, p, hpc, rfl, hp⟩
  · exact h.run hok hs
  · exact h.exec hcounted hs
  · exact h
  · exact fun henter => (h henter).imp_right fun hawake =>
      hawake.moves (t := t) rfl (by simp [hpc, Pc.waking]) le_rfl id

-- ---------------------------------------------------------------------------
-- Stranded jobs
-- ---------------------------------------------------------------------------

theorem counted_and_attended [Fintype ι] [DecidableEq ι] (h : ReachesBy step Timely ({} : State ι) s) :
    s.Counted ∧ s.Attended :=
  h.invariant (I := fun s => s.Counted ∧ s.Attended) ⟨.empty, nofun⟩
    fun hI hok hs => ⟨hI.1.step hs, hI.2.step hI.1 hok hs⟩

/-- With no call part-way every job is counted. -/
theorem Attended.task [Fintype ι] (h : s.Attended) (hcounted : s.Counted) (henter : s.mainEnter)
    (hsettled : ∀ t, (s.pc t).settled) (hjob : s.queued ≠ [] ∨ s.schedJob ≠ []) :
    0 < s.tasks ∨ s.exec ≠ .idle := by
  have hcensus : census Pc.counting s.pc = 0 :=
    Finset.sum_eq_zero fun t _ => Pc.counting_of_settled (hsettled t)
  have hpending : 0 ≤ s.exec.pending := by cases s.exec <;> simp [ExecPc.pending]
  have hcount : 0 < s.jobsCount := by
    have hsum := hcounted.count
    have hlength : 0 < s.queued.length + s.schedJob.length := by
      rcases hjob with h | h
      · have := List.length_pos_iff.mpr h
        omega
      · have := List.length_pos_iff.mpr h
        omega
    omega
  rcases h henter with hzero | htasks | hreaching | ⟨t, ht⟩
  · omega
  · exact .inl htasks
  · refine .inr fun hidle => ?_
    simp [reaching, hidle] at hreaching
  · rw [Pc.waking_of_settled (hsettled t)] at ht
    cases ht

theorem attended [Fintype ι] [DecidableEq ι] (h : ReachesBy step Timely ({} : State ι) s) (henter : s.mainEnter)
    (hsettled : ∀ t, (s.pc t).settled) (hjob : s.queued ≠ [] ∨ s.schedJob ≠ []) :
    0 < s.tasks ∨ s.exec ≠ .idle :=
  (counted_and_attended h).2.task (counted_and_attended h).1 henter hsettled hjob

/-- A job is counted before the main loop is entered. -/
theorem attended_pendingJob :
    ∃ s : State (Fin 2), ReachesBy step Timely {} s ∧ s.queued ≠ [] ∧ (0 < s.tasks ∨ s.exec ≠ .idle) := by
  let calls : List (Action (Fin 2)) :=
    [.addJob 0 {}, .run 0, .run 0, .run 0, .enterMainLoop 1, .run 1, .run 1, .run 1, .run 1]
  have h : ReachesBy step Timely ({} : State (Fin 2)) ((execBy step Timely {} calls).getD {}) :=
    .of_isSome_by calls (by decide)
  exact ⟨_, h, by decide, attended h (by decide) (by decide) (by decide)⟩

/-- `enterMainLoop` reads the count, a job is added while the flag is not set, and then the flag is set. -/
theorem pendingJob_stranded :
    ∃ s : State (Fin 2), Reaches step {} s ∧ s.mainEnter ∧ (∀ t, (s.pc t).settled) ∧ s.queued ≠ [] ∧
      ¬(0 < s.tasks ∨ s.exec ≠ .idle) := by
  let calls : List (Action (Fin 2)) :=
    [.enterMainLoop 1, .run 1, .addJob 0 {}, .run 0, .run 0, .run 0, .run 1, .run 1]
  have h : Reaches step ({} : State (Fin 2)) ((Lib.exec step {} calls).getD {}) :=
    .of_isSome calls (by decide)
  exact ⟨_, h, by decide⟩

end State
end Dmn.Runtime
