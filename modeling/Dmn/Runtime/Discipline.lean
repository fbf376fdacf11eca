import Dmn.Runtime.Awake
import Mathlib

/-!
# The scheduling discipline

The stack is ordered by priority and never higher than three. The jobs of one
priority are started and finished in the order in which they were pushed, each
of them once. A job of a higher priority than the one that is started may be in
its queue, if it came after the dispatch had found that queue empty.
-/

namespace Dmn.Runtime

open Dmn.Lib

/-- The jobs of one priority. -/
def ofPriority (p : Priority) (entries : List Entry) : List Entry :=
  entries.filter fun entry => entry.job.priority = p

@[simp] theorem ofPriority_nil (p : Priority) : ofPriority p [] = [] := rfl

@[simp] theorem ofPriority_append (p : Priority) (entries entries' : List Entry) :
    ofPriority p (entries ++ entries') = ofPriority p entries ++ ofPriority p entries' :=
  List.filter_append ..

@[simp] theorem mem_ofPriority {p : Priority} {entries : List Entry} {entry : Entry} :
    entry ∈ ofPriority p entries ↔ entry ∈ entries ∧ entry.job.priority = p := by
  simp [ofPriority]

theorem ofPriority_cons (p : Priority) (entry : Entry) (entries : List Entry) :
    ofPriority p (entry :: entries) = ofPriority p [entry] ++ ofPriority p entries :=
  ofPriority_append p [entry] entries

theorem ofPriority_singleton_self (entry : Entry) : ofPriority entry.job.priority [entry] = [entry] := by
  simp [ofPriority]

theorem ofPriority_singleton_ne {p : Priority} {entry : Entry} (h : entry.job.priority ≠ p) :
    ofPriority p [entry] = [] := by
  simp [ofPriority, h]

/-- What has happened to a job on the stack and its coroutine. -/
structure Suspended (resumed : Nat → Nat) (entry : Entry) (task : Task) : Prop where
  number : task.number = entry.number
  throws : entry.job.throws = false
  resumed : resumed entry.number + task.remaining = entry.job.suspensions

theorem Suspended.update {resumed : Nat → Nat} {entry : Entry} {task : Task} {number n : Nat}
    (h : Suspended resumed entry task) (hne : entry.number ≠ number) :
    Suspended (Function.update resumed number n) entry task :=
  ⟨h.number, h.throws, by rw [Function.update_of_ne hne]; exact h.resumed⟩

/-- How often a job is resumed, or once if it throws. -/
def Job.work (job : Job) : Nat := if job.throws then 1 else job.suspensions + 1

/-- More than the steps to the end of the dispatch. -/
def ExecPc.rank : ExecPc → Nat
  | .idle => 0
  | .check => 1
  | .schedule => 13
  | .low => 14
  | .medium _ => 15
  | .high _ => 16
  | .post => 21
  | .done | .caught => 22

namespace State

variable {ι : Type} {s s' : State ι} {t : ι} {p : Priority} {entry : Entry}

-- ---------------------------------------------------------------------------
-- What a step does to the jobs
-- ---------------------------------------------------------------------------

/-- A job is pushed. -/
structure Enqueues (s s' : State ι) (entry : Entry) : Prop where
  number : entry.number = s.history.enqueued.length
  valid : entry.job.priority ≠ .kSched
  enqueued : s'.history.enqueued = s.history.enqueued ++ [entry]
  queue : ∀ p, s'.queue p = s.queue p ++ ofPriority p [entry]
  dequeued : s'.history.dequeued = s.history.dequeued
  finished : s'.history.finished = s.history.finished
  resumed : s'.history.resumed = s.history.resumed
  schedJob : s'.schedJob = s.schedJob
  schedTask : s'.schedTask = s.schedTask

/-- A job is taken from the front of its queue, to the top of the stack or to its end. -/
structure Starts (s s' : State ι) (entry : Entry) : Prop where
  queue : ∀ p, s.queue p = ofPriority p [entry] ++ s'.queue p
  enqueued : s'.history.enqueued = s.history.enqueued
  dequeued : s'.history.dequeued = s.history.dequeued ++ [entry]
  resumed : s'.history.resumed = s.history.resumed
  throws : entry.job.throws →
    s'.schedJob = s.schedJob ∧ s'.schedTask = s.schedTask ∧
      s'.history.finished = s.history.finished ++ [entry]
  runs : entry.job.throws = false →
    s'.schedJob = entry :: s.schedJob ∧ s'.schedTask = ⟨entry.number, entry.job.suspensions⟩ :: s.schedTask ∧
      s'.history.finished = s.history.finished

/-- The top task is resumed and suspends, or ends and is taken off. -/
structure Resumes (s s' : State ι) (entry : Entry) (jobs : List Entry) (task : Task) (tasks : List Task) :
    Prop where
  schedJob : s.schedJob = entry :: jobs
  schedTask : s.schedTask = task :: tasks
  queue : ∀ p, s'.queue p = s.queue p
  enqueued : s'.history.enqueued = s.history.enqueued
  dequeued : s'.history.dequeued = s.history.dequeued
  resumed : s'.history.resumed =
    Function.update s.history.resumed task.number (s.history.resumed task.number + 1)
  suspends : ∀ remaining, task.remaining = remaining + 1 →
    s'.schedJob = entry :: jobs ∧ s'.schedTask = ⟨task.number, remaining⟩ :: tasks ∧
      s'.history.finished = s.history.finished
  ends : task.remaining = 0 →
    s'.schedJob = jobs ∧ s'.schedTask = tasks ∧ s'.history.finished = s.history.finished ++ [entry]

/-- Nothing happens to the jobs. -/
structure Keeps (s s' : State ι) : Prop where
  queue : ∀ p, s'.queue p = s.queue p
  enqueued : s'.history.enqueued = s.history.enqueued
  dequeued : s'.history.dequeued = s.history.dequeued
  finished : s'.history.finished = s.history.finished
  resumed : s'.history.resumed = s.history.resumed
  schedJob : s'.schedJob = s.schedJob
  schedTask : s'.schedTask = s.schedTask

theorem Keeps.refl (s : State ι) : s.Keeps s := ⟨fun _ => rfl, rfl, rfl, rfl, rfl, rfl, rfl⟩

theorem push_enqueues (s : State ι) (job : Job) (hjob : job.priority ≠ .kSched) :
    s.Enqueues (s.push job) ⟨s.history.enqueued.length, job⟩ := by
  have hqueue := fun p => queue_push s job p hjob
  obtain ⟨jobPriority, suspensions, throws⟩ := job
  refine ⟨rfl, hjob, ?_, fun p => ?_, ?_, ?_, ?_, ?_, ?_⟩
  case refine_2 =>
    rw [hqueue p]
    congr 1
    simp [ofPriority, List.filter_cons]
  all_goals
    cases jobPriority with
    | kSched => exact absurd rfl hjob
    | kHigh | kMedium | kLow => rfl

theorem addToContext_starts (hqueue : ∀ p, s.queue p = ofPriority p [entry] ++ s'.queue p)
    (hhistory : s'.history = s.history) (hjob : s'.schedJob = s.schedJob) (htask : s'.schedTask = s.schedTask) :
    s.Starts (s'.addToContext entry) entry := by
  unfold addToContext
  dsimp only
  split
  · rename_i hthrows
    refine ⟨hqueue, ?_, ?_, ?_, fun _ => ⟨hjob, htask, ?_⟩, fun h => ?_⟩
    any_goals rw [hhistory]
    rw [hthrows] at h
    cases h
  · rename_i hthrows
    refine ⟨hqueue, ?_, ?_, ?_, fun h => absurd h hthrows, fun _ => ⟨?_, ?_, ?_⟩⟩
    any_goals rw [hhistory]
    · rw [hjob]
    · rw [htask]

theorem SameJobs.keeps (h : s.SameJobs s') : s.Keeps s' where
  queue p := by
    cases p with
    | kSched => rfl
    | kHigh => exact h.highQueue
    | kMedium => exact h.mediumQueue
    | kLow => exact h.lowQueue
  enqueued := congrArg History.enqueued h.history
  dequeued := congrArg History.dequeued h.history
  finished := congrArg History.finished h.history
  resumed := congrArg History.resumed h.history
  schedJob := h.schedJob
  schedTask := h.schedTask

theorem run_does [Fintype ι] [DecidableEq ι] (h : s.Counted) (hs : s.run t = some s') :
    (∃ entry, s.Enqueues s' entry) ∨ s.Keeps s' := by
  rcases run_cases hs with ⟨job, hpc, rfl⟩ | ⟨number, hpc, rfl⟩ | ⟨p, -, -, -, hsame⟩
  · have hpush := push_enqueues s job (h.valid t job hpc)
    exact .inl ⟨_, ⟨hpush.number, hpush.valid, hpush.enqueued, hpush.queue, hpush.dequeued, hpush.finished,
      hpush.resumed, hpush.schedJob, hpush.schedTask⟩⟩
  · exact .inr ⟨fun p => by cases p <;> rfl, rfl, rfl, rfl, rfl, rfl, rfl⟩
  · exact .inr hsame.keeps

/-- The queue that a job is popped from is the one of its priority. -/
theorem queue_of_pop {entry : Entry} (hsorted : ∀ p, ∀ entry ∈ s.queue p, entry.job.priority = p) {q : Priority}
    {rest : List Entry} (hq : s.queue q = entry :: rest) (hself : s'.queue q = rest)
    (hother : ∀ p, p ≠ q → s'.queue p = s.queue p) (p : Priority) :
    s.queue p = ofPriority p [entry] ++ s'.queue p := by
  have hpriority : entry.job.priority = q := hsorted q entry (by rw [hq]; exact List.mem_cons_self)
  by_cases hp : p = q
  · subst hp
    rw [hq, hself, ← hpriority, ofPriority_singleton_self]
    rfl
  · rw [ofPriority_singleton_ne (by rw [hpriority]; exact Ne.symm hp), hother p hp]
    rfl

/-- What a step of the executor does to the jobs. -/
inductive Does (s s' : State ι) : Prop
  | starts (entry : Entry) (h : s.Starts s' entry)
  | resumes (entry : Entry) (jobs : List Entry) (task : Task) (tasks : List Task)
    (h : s.Resumes s' entry jobs task tasks)
  | keeps (h : s.Keeps s')

theorem exec_does (hsorted : ∀ p, ∀ entry ∈ s.queue p, entry.job.priority = p)
    (hs : s.execRuntimeJobInternal = some s') : s.Does s' := by
  have hkeeps : ∀ {s'' : State ι}, s''.highQueue = s.highQueue → s''.mediumQueue = s.mediumQueue →
      s''.lowQueue = s.lowQueue → s''.history.enqueued = s.history.enqueued →
      s''.history.dequeued = s.history.dequeued → s''.history.finished = s.history.finished →
      s''.history.resumed = s.history.resumed → s''.schedJob = s.schedJob → s''.schedTask = s.schedTask →
      s.Does s'' := fun hhigh hmedium hlow h₁ h₂ h₃ h₄ h₅ h₆ =>
    .keeps ⟨fun p => by cases p <;> first | rfl | assumption, h₁, h₂, h₃, h₄, h₅, h₆⟩
  simp only [execRuntimeJobInternal] at hs
  split at hs
  · split at hs
    · obtain rfl := Option.some.inj hs
      exact hkeeps rfl rfl rfl rfl rfl rfl rfl rfl rfl
    · cases hs
  · obtain rfl := Option.some.inj hs
    split
    · rename_i entry highQueue hqueue
      refine .starts entry (addToContext_starts (queue_of_pop hsorted (q := .kHigh) hqueue rfl fun p hp => ?_)
        rfl rfl rfl)
      cases p <;> first | rfl | exact absurd rfl hp
    · exact hkeeps rfl rfl rfl rfl rfl rfl rfl rfl rfl
  · obtain rfl := Option.some.inj hs
    split
    · rename_i entry mediumQueue hqueue
      refine .starts entry (addToContext_starts (queue_of_pop hsorted (q := .kMedium) hqueue rfl fun p hp => ?_)
        rfl rfl rfl)
      cases p <;> first | rfl | exact absurd rfl hp
    · exact hkeeps rfl rfl rfl rfl rfl rfl rfl rfl rfl
  · obtain rfl := Option.some.inj hs
    split
    · rename_i entry lowQueue hqueue
      refine .starts entry (addToContext_starts (queue_of_pop hsorted (q := .kLow) hqueue rfl fun p hp => ?_)
        rfl rfl rfl)
      cases p <;> first | rfl | exact absurd rfl hp
    · exact hkeeps rfl rfl rfl rfl rfl rfl rfl rfl rfl
  · obtain rfl := Option.some.inj hs
    split
    · rename_i entry jobs task tasks hjob htask
      refine .resumes entry jobs task tasks ?_
      unfold resume
      dsimp only
      split
      · rename_i remaining hremaining
        refine ⟨hjob, htask, fun p => by cases p <;> rfl, rfl, rfl, rfl, fun n hn => ⟨hjob, ?_, rfl⟩,
          fun h0 => ?_⟩
        · obtain rfl : remaining = n := by omega
          rfl
        · omega
      · rename_i hremaining
        exact ⟨hjob, htask, fun p => by cases p <;> rfl, rfl, rfl, rfl, fun n hn => by omega,
          fun _ => ⟨rfl, rfl, rfl⟩⟩
    · exact hkeeps rfl rfl rfl rfl rfl rfl rfl rfl rfl
  all_goals
    obtain rfl := Option.some.inj hs
    exact hkeeps rfl rfl rfl rfl rfl rfl rfl rfl rfl

-- ---------------------------------------------------------------------------
-- The order of the jobs
-- ---------------------------------------------------------------------------

structure Orderly (s : State ι) : Prop where
  numbers : s.history.enqueued.map Entry.number = List.range s.history.enqueued.length
  valid : ∀ entry ∈ s.history.enqueued, entry.job.priority ≠ .kSched
  -- A queue holds what has been pushed and not dequeued, in order.
  queued : ∀ p, ofPriority p s.history.enqueued = ofPriority p s.history.dequeued ++ s.queue p
  -- What has been dequeued has ended or is on the stack, in order.
  started : ∀ p, ofPriority p s.history.dequeued = ofPriority p s.history.finished ++ ofPriority p s.schedJob
  ordered : s.schedJob.Pairwise fun upper lower => upper.job.priority.toNat < lower.job.priority.toNat
  stack : List.Forall₂ (Suspended s.history.resumed) s.schedJob s.schedTask
  fresh : ∀ number, (∀ entry ∈ s.history.dequeued, entry.number ≠ number) → s.history.resumed number = 0
  ended : ∀ entry ∈ s.history.finished,
    s.history.resumed entry.number = if entry.job.throws then 0 else entry.job.suspensions + 1

namespace Orderly

variable (h : s.Orderly)
include h

theorem mem_enqueued_of_dequeued (hmem : entry ∈ s.history.dequeued) : entry ∈ s.history.enqueued := by
  have hqueued : entry ∈ ofPriority entry.job.priority s.history.enqueued := by
    rw [h.queued]
    exact List.mem_append_left _ (mem_ofPriority.mpr ⟨hmem, rfl⟩)
  exact (mem_ofPriority.mp hqueued).1

theorem mem_dequeued_of_finished (hmem : entry ∈ s.history.finished) : entry ∈ s.history.dequeued := by
  have hstarted : entry ∈ ofPriority entry.job.priority s.history.dequeued := by
    rw [h.started]
    exact List.mem_append_left _ (mem_ofPriority.mpr ⟨hmem, rfl⟩)
  exact (mem_ofPriority.mp hstarted).1

theorem mem_dequeued_of_schedJob (hmem : entry ∈ s.schedJob) : entry ∈ s.history.dequeued := by
  have hstarted : entry ∈ ofPriority entry.job.priority s.history.dequeued := by
    rw [h.started]
    exact List.mem_append_right _ (mem_ofPriority.mpr ⟨hmem, rfl⟩)
  exact (mem_ofPriority.mp hstarted).1

theorem mem_ofPriority_of_queue (hmem : entry ∈ s.queue p) : entry ∈ ofPriority p s.history.enqueued := by
  rw [h.queued]
  exact List.mem_append_right _ hmem

theorem sorted (p : Priority) : ∀ entry ∈ s.queue p, entry.job.priority = p := fun _ hmem =>
  (mem_ofPriority.mp (h.mem_ofPriority_of_queue hmem)).2

theorem number_inj {entry' : Entry} (hmem : entry ∈ s.history.enqueued) (hmem' : entry' ∈ s.history.enqueued)
    (hnumber : entry.number = entry'.number) : entry = entry' :=
  List.inj_on_of_nodup_map (h.numbers ▸ List.nodup_range) hmem hmem' hnumber

theorem nodup_enqueued : s.history.enqueued.Nodup :=
    (h.numbers ▸ List.nodup_range : (_ : List Nat).Nodup).of_map

theorem nodup_dequeued (p : Priority) : (ofPriority p s.history.dequeued).Nodup := by
  have hnodup : (ofPriority p s.history.enqueued).Nodup := h.nodup_enqueued.filter _
  rw [h.queued] at hnodup
  exact hnodup.of_append_left

theorem nodup_numbers : (s.history.dequeued.map Entry.number).Nodup := by
  have hdequeued : s.history.dequeued.Nodup := List.nodup_iff_count_le_one.mpr fun entry => by
    have hcount := List.nodup_iff_count_le_one.mp (h.nodup_dequeued entry.job.priority) entry
    rwa [ofPriority, List.count_filter (by simp)] at hcount
  exact hdequeued.map_on fun _ hmem _ hmem' hnumber =>
    h.number_inj (h.mem_enqueued_of_dequeued hmem) (h.mem_enqueued_of_dequeued hmem') hnumber

/-- A job in a queue has another number than what has been dequeued. -/
theorem number_ne_of_queue {entry' : Entry} (hmem : entry ∈ s.queue p) (hmem' : entry' ∈ s.history.dequeued) :
    entry'.number ≠ entry.number := by
  intro hnumber
  have henqueued := mem_ofPriority.mp (h.mem_ofPriority_of_queue hmem)
  obtain rfl := h.number_inj (h.mem_enqueued_of_dequeued hmem') henqueued.1 hnumber
  have hnodup : (ofPriority p s.history.enqueued).Nodup := h.nodup_enqueued.filter _
  rw [h.queued] at hnodup
  exact List.disjoint_of_nodup_append hnodup (mem_ofPriority.mpr ⟨hmem', henqueued.2⟩) hmem

/-- A job on the stack has another number than what has ended. -/
theorem number_ne_of_finished {entry' : Entry} (hmem : entry ∈ s.schedJob)
    (hmem' : entry' ∈ s.history.finished) :
    entry'.number ≠ entry.number := by
  intro hnumber
  have henqueued := h.mem_enqueued_of_dequeued (h.mem_dequeued_of_schedJob hmem)
  have henqueued' := h.mem_enqueued_of_dequeued (h.mem_dequeued_of_finished hmem')
  obtain rfl := h.number_inj henqueued' henqueued hnumber
  have hnodup := h.nodup_dequeued entry'.job.priority
  rw [h.started] at hnodup
  exact List.disjoint_of_nodup_append hnodup (mem_ofPriority.mpr ⟨hmem', rfl⟩) (mem_ofPriority.mpr ⟨hmem, rfl⟩)

/-- The job on top has another number than what is below. -/
theorem number_ne_of_below {jobs : List Entry} {entry' : Entry} (hjob : s.schedJob = entry :: jobs)
    (hmem : entry' ∈ jobs) : entry'.number ≠ entry.number := by
  intro hnumber
  have hpriority := (List.pairwise_cons.mp (hjob ▸ h.ordered)).1 entry' hmem
  have hself : entry ∈ s.schedJob := by rw [hjob]; exact List.mem_cons_self
  have hbelow : entry' ∈ s.schedJob := by rw [hjob]; exact List.mem_cons_of_mem _ hmem
  obtain rfl := h.number_inj (h.mem_enqueued_of_dequeued (h.mem_dequeued_of_schedJob hbelow))
    (h.mem_enqueued_of_dequeued (h.mem_dequeued_of_schedJob hself)) hnumber
  exact lt_irrefl _ hpriority

end Orderly

theorem Orderly.empty : ({} : State ι).Orderly :=
  ⟨rfl, nofun, fun p => by cases p <;> rfl, fun _ => rfl, .nil, .nil, fun _ _ => rfl, nofun⟩

theorem Orderly.enqueues (h : s.Orderly) (hs : s.Enqueues s' entry) : s'.Orderly where
  numbers := by
    rw [hs.enqueued, List.map_append, h.numbers, List.length_append, List.length_singleton, List.range_succ,
      List.map_singleton, hs.number]
  valid e hmem := by
    rw [hs.enqueued] at hmem
    rcases List.mem_append.mp hmem with hmem | hmem
    · exact h.valid e hmem
    · obtain rfl := List.mem_singleton.mp hmem
      exact hs.valid
  queued p := by rw [hs.enqueued, ofPriority_append, h.queued, hs.dequeued, hs.queue, List.append_assoc]
  started p := by rw [hs.dequeued, hs.finished, hs.schedJob, h.started]
  ordered := hs.schedJob ▸ h.ordered
  stack := by
    rw [hs.schedJob, hs.schedTask, hs.resumed]
    exact h.stack
  fresh := by
    rw [hs.dequeued, hs.resumed]
    exact h.fresh
  ended := by
    rw [hs.finished, hs.resumed]
    exact h.ended

theorem Orderly.keeps (h : s.Orderly) (hs : s.Keeps s') : s'.Orderly where
  numbers := hs.enqueued ▸ h.numbers
  valid := hs.enqueued ▸ h.valid
  queued p := by rw [hs.enqueued, hs.dequeued, hs.queue, h.queued]
  started p := by rw [hs.dequeued, hs.finished, hs.schedJob, h.started]
  ordered := hs.schedJob ▸ h.ordered
  stack := by
    rw [hs.schedJob, hs.schedTask, hs.resumed]
    exact h.stack
  fresh := by
    rw [hs.dequeued, hs.resumed]
    exact h.fresh
  ended := by
    rw [hs.finished, hs.resumed]
    exact h.ended

-- ---------------------------------------------------------------------------
-- Where jobs are started
-- ---------------------------------------------------------------------------

/-- The dispatch has found a queue empty, and what is in it has been pushed since. -/
def FoundEmpty (s : State ι) (p : Priority) : Prop :=
  ∃ n, s.history.looked p = some n ∧ n ≤ s.history.enqueued.length ∧ ∀ entry ∈ s.queue p, n ≤ entry.number

structure MayStart (s : State ι) (entry : Entry) : Prop where
  stack : ∀ job ∈ s.schedJob, entry.job.priority.toNat < job.job.priority.toNat
  queues : ∀ p, p ≠ .kSched → p.toNat < entry.job.priority.toNat → s.FoundEmpty p

/-- What the dispatch has learnt at each queue. -/
def Positioned (s : State ι) : Prop :=
  match s.exec with
  | .high state => state = s.top ∧ s.top ≠ .kHigh
  | .medium state => state = s.top ∧ s.top ≠ .kHigh ∧ s.top ≠ .kMedium ∧ s.FoundEmpty .kHigh
  | .low => s.top ≠ .kHigh ∧ s.top ≠ .kMedium ∧ s.top ≠ .kLow ∧ s.FoundEmpty .kHigh ∧ s.FoundEmpty .kMedium
  | _ => True

theorem foundEmpty_of_looked (hlooked : s.history.looked p = some s.history.enqueued.length)
    (hqueue : s.queue p = []) : s.FoundEmpty p :=
  ⟨_, hlooked, le_rfl, by rw [hqueue]; exact nofun⟩

theorem FoundEmpty.keeps (h : s.FoundEmpty p) (hlooked : s'.history.looked p = s.history.looked p)
    (henqueued : s'.history.enqueued = s.history.enqueued) (hqueue : s'.queue p = s.queue p) :
    s'.FoundEmpty p := by
  unfold FoundEmpty
  rw [hlooked, henqueued, hqueue]
  exact h

theorem FoundEmpty.enqueues (h : s.FoundEmpty p) (hs : s.Enqueues s' entry)
    (hlooked : s'.history.looked = s.history.looked) : s'.FoundEmpty p := by
  obtain ⟨n, hn, hle, hqueue⟩ := h
  refine ⟨n, by rw [hlooked]; exact hn, ?_, fun e hmem => ?_⟩
  · rw [hs.enqueued, List.length_append]
    omega
  · rw [hs.queue] at hmem
    rcases List.mem_append.mp hmem with hmem | hmem
    · exact hqueue e hmem
    · obtain rfl := List.mem_singleton.mp (mem_ofPriority.mp hmem).1
      rw [hs.number]
      exact hle

theorem Positioned.mono (h : s.Positioned) (hexec : s'.exec = s.exec) (hjob : s'.schedJob = s.schedJob)
    (hfound : ∀ p, s.FoundEmpty p → s'.FoundEmpty p) : s'.Positioned := by
  have htop : s'.top = s.top := by
    unfold top
    rw [hjob]
  unfold Positioned at h ⊢
  rw [hexec, htop]
  split at h
  · exact h
  · exact ⟨h.1, h.2.1, h.2.2.1, hfound _ h.2.2.2⟩
  · exact ⟨h.1, h.2.1, h.2.2.1, hfound _ h.2.2.2.1, hfound _ h.2.2.2.2⟩
  · trivial

theorem Positioned.run [Fintype ι] [DecidableEq ι] (h : s.Positioned) (hcounted : s.Counted)
    (hs : s.run t = some s') : s'.Positioned := by
  rcases run_cases hs with ⟨job, hpc, rfl⟩ | ⟨number, hpc, rfl⟩ | ⟨p, -, -, -, hsame⟩
  · have hpush := push_enqueues s job (hcounted.valid t job hpc)
    have hlooked : (s.push job).history.looked = s.history.looked := by
      unfold push
      dsimp only
      split <;> rfl
    have hpushed : (s.push job).Positioned := h.mono (push_same s job).exec (push_same s job).schedJob
      fun p hp => hp.enqueues hpush hlooked
    exact hpushed.mono rfl rfl fun p hp => hp.keeps rfl rfl (by cases p <;> rfl)
  · exact h.mono rfl rfl fun p hp => hp.keeps rfl rfl (by cases p <;> rfl)
  · refine h.mono hsame.exec hsame.schedJob fun p hp => hp.keeps ?_ (hsame.keeps).enqueued (hsame.keeps.queue p)
    rw [hsame.history]

theorem positioned_add (s : State ι) (entry : Entry) : (s.addToContext entry).Positioned := by
  unfold addToContext
  dsimp only
  split <;> trivial

theorem Positioned.exec (h : s.Positioned) (hs : s.execRuntimeJobInternal = some s') : s'.Positioned := by
  simp only [execRuntimeJobInternal] at hs
  split at hs
  · split at hs
    · obtain rfl := Option.some.inj hs
      by_cases htop : s.top = .kHigh
      · simp only [Positioned, if_pos htop]
      · simp only [Positioned, if_neg htop]
        exact ⟨rfl, htop⟩
    · cases hs
  · rename_i state hexec
    obtain rfl := Option.some.inj hs
    split
    · exact positioned_add _ _
    · rename_i hqueue
      rw [Positioned, hexec] at h
      obtain ⟨rfl, htop⟩ := h
      by_cases hmedium : s.top = .kMedium
      · simp only [Positioned, if_pos hmedium]
      · simp only [Positioned, if_neg hmedium]
        exact ⟨rfl, htop, hmedium, foundEmpty_of_looked (by simp [look]) hqueue⟩
  · rename_i state hexec
    obtain rfl := Option.some.inj hs
    split
    · exact positioned_add _ _
    · rename_i hqueue
      rw [Positioned, hexec] at h
      obtain ⟨rfl, htop, hmedium, hfound⟩ := h
      by_cases hlow : s.top = .kLow
      · simp only [Positioned, if_pos hlow]
      · simp only [Positioned, if_neg hlow]
        exact ⟨htop, hmedium, hlow, hfound.keeps (by simp [look]) rfl rfl,
          foundEmpty_of_looked (by simp [look]) hqueue⟩
  · obtain rfl := Option.some.inj hs
    split
    · exact positioned_add _ _
    · trivial
  · obtain rfl := Option.some.inj hs
    split
    · unfold resume
      dsimp only
      split <;> trivial
    · trivial
  · obtain rfl := Option.some.inj hs
    cases hmore : s.moreJobs <;> simp [Positioned]
  · obtain rfl := Option.some.inj hs
    trivial
  · obtain rfl := Option.some.inj hs
    trivial
  · obtain rfl := Option.some.inj hs
    cases hmore : s.moreJobs <;> simp [Positioned]

theorem Orderly.top_le (h : s.Orderly) {job : Entry} (hmem : job ∈ s.schedJob) :
    s.top ≠ .kSched ∧ s.top.toNat ≤ job.job.priority.toNat := by
  have hvalid := h.valid
  cases hjob : s.schedJob with
  | nil =>
    rw [hjob] at hmem
    cases hmem
  | cons upper jobs =>
    have hself : upper ∈ s.schedJob := by rw [hjob]; exact List.mem_cons_self
    have htop : s.top = upper.job.priority := by simp [top, hjob]
    rw [htop]
    refine ⟨h.valid upper (h.mem_enqueued_of_dequeued (h.mem_dequeued_of_schedJob hself)), ?_⟩
    rw [hjob] at hmem
    rcases List.mem_cons.mp hmem with rfl | hmem
    · exact le_rfl
    · exact ((List.pairwise_cons.mp (hjob ▸ h.ordered)).1 job hmem).le

theorem addToContext_dequeued (s : State ι) (entry : Entry) :
    (s.addToContext entry).history.dequeued = s.history.dequeued ++ [entry] := by
  unfold addToContext
  dsimp only
  split <;> rfl

/-- A job is started in its place. -/
theorem exec_mayStart (h : s.Positioned) (horderly : s.Orderly) (hs : s.execRuntimeJobInternal = some s')
    (hstart : s'.history.dequeued = s.history.dequeued ++ [entry]) : s.MayStart entry := by
  have hno : ∀ l : List Entry, l ≠ l ++ [entry] := fun l hl => by simpa using congrArg List.length hl
  simp only [execRuntimeJobInternal] at hs
  split at hs
  · split at hs
    · obtain rfl := Option.some.inj hs
      exact absurd hstart (hno _)
    · cases hs
  · rename_i state hexec
    obtain rfl := Option.some.inj hs
    split at hstart
    · rename_i e highQueue hqueue
      rw [addToContext_dequeued] at hstart
      obtain rfl : e = entry := by simpa using hstart
      have hpriority : e.job.priority = .kHigh :=
        horderly.sorted .kHigh e (by rw [queue, hqueue]; exact List.mem_cons_self)
      rw [Positioned, hexec] at h
      refine ⟨fun job hmem => ?_, fun p hp hlt => ?_⟩
      · obtain ⟨hsched, hle⟩ := horderly.top_le hmem
        rw [hpriority]
        have := h.2
        cases htop : s.top <;> simp_all [Priority.toNat] <;> omega
      · rw [hpriority] at hlt
        cases p <;> simp_all [Priority.toNat]
    · exact absurd hstart (hno _)
  · rename_i state hexec
    obtain rfl := Option.some.inj hs
    split at hstart
    · rename_i e mediumQueue hqueue
      rw [addToContext_dequeued] at hstart
      obtain rfl : e = entry := by simpa using hstart
      have hpriority : e.job.priority = .kMedium :=
        horderly.sorted .kMedium e (by rw [queue, hqueue]; exact List.mem_cons_self)
      rw [Positioned, hexec] at h
      obtain ⟨-, hhigh, hmedium, hfound⟩ := h
      refine ⟨fun job hmem => ?_, fun p hp hlt => ?_⟩
      · obtain ⟨hsched, hle⟩ := horderly.top_le hmem
        rw [hpriority]
        cases htop : s.top <;> simp_all [Priority.toNat]
        omega
      · rw [hpriority] at hlt
        cases p with
        | kHigh => exact hfound
        | kSched => exact absurd rfl hp
        | kMedium | kLow => simp [Priority.toNat] at hlt
    · exact absurd hstart (hno _)
  · rename_i hexec
    obtain rfl := Option.some.inj hs
    split at hstart
    · rename_i e lowQueue hqueue
      rw [addToContext_dequeued] at hstart
      obtain rfl : e = entry := by simpa using hstart
      have hpriority : e.job.priority = .kLow :=
        horderly.sorted .kLow e (by rw [queue, hqueue]; exact List.mem_cons_self)
      rw [Positioned, hexec] at h
      obtain ⟨hhigh, hmedium, hlow, hfound, hfound'⟩ := h
      refine ⟨fun job hmem => ?_, fun p hp hlt => ?_⟩
      · obtain ⟨hsched, hle⟩ := horderly.top_le hmem
        cases htop : s.top <;> simp_all
      · rw [hpriority] at hlt
        cases p with
        | kHigh => exact hfound
        | kMedium => exact hfound'
        | kSched => exact absurd rfl hp
        | kLow => simp [Priority.toNat] at hlt
    · exact absurd hstart (hno _)
  · obtain rfl := Option.some.inj hs
    split at hstart
    · unfold resume at hstart
      dsimp only at hstart
      split at hstart <;> exact absurd hstart (hno _)
    · exact absurd hstart (hno _)
  all_goals
    obtain rfl := Option.some.inj hs
    exact absurd hstart (hno _)

-- ---------------------------------------------------------------------------
-- Steps and runs
-- ---------------------------------------------------------------------------

/-- No job of the priority of the one that is started is on the stack. -/
theorem MayStart.stack_ofPriority (h : s.MayStart entry) (p : Priority) :
    ofPriority p s.schedJob ++ ofPriority p [entry] = ofPriority p [entry] ++ ofPriority p s.schedJob := by
  by_cases hp : entry.job.priority = p
  · have hnone : ofPriority p s.schedJob = [] := List.filter_eq_nil_iff.mpr fun job hmem heq => by
      have hlt := h.stack job hmem
      rw [of_decide_eq_true heq, hp] at hlt
      exact lt_irrefl _ hlt
    rw [hnone, List.append_nil, List.nil_append]
  · rw [ofPriority_singleton_ne hp, List.append_nil, List.nil_append]

theorem Orderly.starts (h : s.Orderly) (hs : s.Starts s' entry) (hmay : s.MayStart entry) : s'.Orderly := by
  have hmem : entry ∈ s.queue entry.job.priority := by
    rw [hs.queue, ofPriority_singleton_self]
    exact List.mem_cons_self
  have hfresh : s.history.resumed entry.number = 0 :=
    h.fresh _ fun e he => h.number_ne_of_queue hmem he
  have hqueued : ∀ p, ofPriority p s'.history.enqueued = ofPriority p s'.history.dequeued ++ s'.queue p :=
    fun p => by
    rw [hs.enqueued, h.queued, hs.dequeued, ofPriority_append, hs.queue, List.append_assoc]
  have hfresh' : ∀ number, (∀ e ∈ s'.history.dequeued, e.number ≠ number) → s'.history.resumed number = 0 :=
    fun number hnumber => by
      rw [hs.resumed]
      exact h.fresh number fun e he => hnumber e (by rw [hs.dequeued]; exact List.mem_append_left _ he)
  cases hthrows : entry.job.throws with
  | true =>
    obtain ⟨hjob, htask, hfinished⟩ := hs.throws hthrows
    refine ⟨hs.enqueued ▸ h.numbers, hs.enqueued ▸ h.valid, hqueued, fun p => ?_, hjob ▸ h.ordered, ?_, hfresh',
      fun e he => ?_⟩
    · rw [hs.dequeued, hfinished, hjob, ofPriority_append, ofPriority_append, h.started, List.append_assoc,
        List.append_assoc, hmay.stack_ofPriority]
    · rw [hjob, htask, hs.resumed]
      exact h.stack
    · rw [hfinished] at he
      rw [hs.resumed]
      rcases List.mem_append.mp he with he | he
      · exact h.ended e he
      · obtain rfl := List.mem_singleton.mp he
        rw [if_pos hthrows, hfresh]
  | false =>
    obtain ⟨hjob, htask, hfinished⟩ := hs.runs hthrows
    refine ⟨hs.enqueued ▸ h.numbers, hs.enqueued ▸ h.valid, hqueued, fun p => ?_, ?_, ?_, hfresh', ?_⟩
    · rw [hs.dequeued, hfinished, hjob, ofPriority_append, ofPriority_cons p entry s.schedJob, h.started,
        List.append_assoc, hmay.stack_ofPriority]
    · rw [hjob]
      exact List.pairwise_cons.mpr ⟨hmay.stack, h.ordered⟩
    · rw [hjob, htask, hs.resumed]
      exact .cons ⟨rfl, hthrows, by rw [hfresh]; exact Nat.zero_add _⟩ h.stack
    · rw [hfinished, hs.resumed]
      exact h.ended

theorem Orderly.resumes {jobs : List Entry} {task : Task} {tasks : List Task} (h : s.Orderly)
    (hs : s.Resumes s' entry jobs task tasks) : s'.Orderly := by
  have hself : entry ∈ s.schedJob := by rw [hs.schedJob]; exact List.mem_cons_self
  have hstack := h.stack
  rw [hs.schedJob, hs.schedTask, List.forall₂_cons] at hstack
  obtain ⟨⟨hnumber, hthrows, hresumed⟩, htail⟩ := hstack
  have hbelow : List.Forall₂ (Suspended s'.history.resumed) jobs tasks := by
    have hne : List.Forall₂ (fun e t => e.number ≠ entry.number ∧ Suspended s.history.resumed e t) jobs tasks :=
      (List.forall₂_and_left _ _).mpr ⟨fun e he => h.number_ne_of_below hs.schedJob he, htail⟩
    rw [hs.resumed, hnumber]
    exact hne.imp fun e t het => het.2.update het.1
  have hfresh : ∀ number, (∀ e ∈ s'.history.dequeued, e.number ≠ number) → s'.history.resumed number = 0 :=
    fun number hne => by
      rw [hs.dequeued] at hne
      rw [hs.resumed, hnumber, Function.update_of_ne (hne entry (h.mem_dequeued_of_schedJob hself)).symm]
      exact h.fresh number hne
  have hended : ∀ e ∈ s.history.finished,
      s'.history.resumed e.number = if e.job.throws then 0 else e.job.suspensions + 1 := fun e he => by
    rw [hs.resumed, hnumber, Function.update_of_ne (h.number_ne_of_finished hself he)]
    exact h.ended e he
  have htop : s'.history.resumed entry.number = s.history.resumed entry.number + 1 := by
    rw [hs.resumed, hnumber, Function.update_self]
  have hordered := h.ordered
  rw [hs.schedJob] at hordered
  cases hremaining : task.remaining with
  | succ remaining =>
    obtain ⟨hjob, htask, hfinished⟩ := hs.suspends remaining hremaining
    refine ⟨hs.enqueued ▸ h.numbers, hs.enqueued ▸ h.valid, fun p => ?_, fun p => ?_, hjob ▸ hordered,
      ?_, hfresh,
      hfinished ▸ hended⟩
    · rw [hs.enqueued, hs.dequeued, hs.queue, h.queued]
    · rw [hs.dequeued, hfinished, hjob, h.started, hs.schedJob]
    · rw [hjob, htask]
      exact .cons ⟨hnumber, hthrows, by rw [htop]; show _ + remaining = _; omega⟩ hbelow
  | zero =>
    obtain ⟨hjob, htask, hfinished⟩ := hs.ends hremaining
    refine ⟨hs.enqueued ▸ h.numbers, hs.enqueued ▸ h.valid, fun p => ?_, fun p => ?_,
      hjob ▸ (List.pairwise_cons.mp hordered).2, ?_, hfresh, fun e he => ?_⟩
    · rw [hs.enqueued, hs.dequeued, hs.queue, h.queued]
    · rw [hs.dequeued, hfinished, hjob, h.started, hs.schedJob, ofPriority_cons p entry jobs,
        ofPriority_append, List.append_assoc]
    · rw [hjob, htask]
      exact hbelow
    · rw [hfinished] at he
      rcases List.mem_append.mp he with he | he
      · exact hended e he
      · obtain rfl := List.mem_singleton.mp he
        rw [htop, hthrows, if_neg Bool.false_ne_true]
        omega

theorem orderly_step [Fintype ι] [DecidableEq ι] {x : Action ι} (hcounted : s.Counted) (hpos : s.Positioned)
    (h : s.Orderly) (hs : s.step x = some s') : s'.Orderly ∧ s'.Positioned := by
  rcases call_cases hs with ⟨t, rfl, hs⟩ | ⟨rfl, hs⟩ | rfl | ⟨t, p, hpc, rfl, hp⟩
  · refine ⟨?_, hpos.run hcounted hs⟩
    rcases run_does hcounted hs with ⟨entry, hdoes⟩ | hdoes
    · exact h.enqueues hdoes
    · exact h.keeps hdoes
  · refine ⟨?_, hpos.exec hs⟩
    cases exec_does h.sorted hs with
    | starts entry hdoes => exact h.starts hdoes (exec_mayStart hpos h hs hdoes.dequeued)
    | resumes entry jobs task tasks hdoes => exact h.resumes hdoes
    | keeps hdoes => exact h.keeps hdoes
  · exact ⟨h, hpos⟩
  · exact ⟨h.keeps ⟨fun p => by cases p <;> rfl, rfl, rfl, rfl, rfl, rfl, rfl⟩,
      hpos.mono rfl rfl fun p hfound => hfound.keeps rfl rfl (by cases p <;> rfl)⟩

/-- Jobs are only dequeued to be started. -/
theorem step_dequeued [Fintype ι] [DecidableEq ι] {x : Action ι} (hcounted : s.Counted) (hpos : s.Positioned)
    (h : s.Orderly) (hs : s.step x = some s') :
    s'.history.dequeued = s.history.dequeued ∨
      ∃ entry, s'.history.dequeued = s.history.dequeued ++ [entry] ∧ s.MayStart entry := by
  rcases call_cases hs with ⟨t, rfl, hs⟩ | ⟨rfl, hs⟩ | rfl | ⟨t, p, hpc, rfl, hp⟩
  · rcases run_does hcounted hs with ⟨entry, hdoes⟩ | hdoes
    · exact .inl hdoes.dequeued
    · exact .inl hdoes.dequeued
  · cases exec_does h.sorted hs with
    | starts entry hdoes => exact .inr ⟨entry, hdoes.dequeued, exec_mayStart hpos h hs hdoes.dequeued⟩
    | resumes entry jobs task tasks hdoes => exact .inl hdoes.dequeued
    | keeps hdoes => exact .inl hdoes.dequeued
  · exact .inl rfl
  · exact .inl rfl

theorem perm_of_ofPriority {entries entries' : List Entry}
    (h : ∀ p, ofPriority p entries = ofPriority p entries') : entries.Perm entries' :=
  List.perm_iff_count.mpr fun entry => by
    have hcount : ∀ entries, (ofPriority entry.job.priority entries).count entry = entries.count entry :=
      fun entries => by simp [ofPriority]
    rw [← hcount entries, ← hcount entries', h]

theorem Orderly.dequeued_perm (h : s.Orderly) : s.history.dequeued.Perm (s.history.finished ++ s.schedJob) :=
  perm_of_ofPriority fun p => by rw [h.started, ofPriority_append]

/-- Three priorities, each at most once on the stack. -/
theorem Orderly.length_le (h : s.Orderly) : s.schedJob.length ≤ 3 := by
  have hnodup : (s.schedJob.map fun entry => entry.job.priority.toNat).Nodup :=
    List.Pairwise.map _ (fun _ _ hlt => ne_of_lt hlt) h.ordered
  have hsub : (s.schedJob.map fun entry => entry.job.priority.toNat) ⊆ [1, 2, 3] := fun n hn => by
    obtain ⟨entry, hmem, rfl⟩ := List.mem_map.mp hn
    have hvalid := h.valid entry (h.mem_enqueued_of_dequeued (h.mem_dequeued_of_schedJob hmem))
    cases hpriority : entry.job.priority with
    | kSched => exact absurd hpriority hvalid
    | kHigh | kMedium | kLow => simp [Priority.toNat]
  simpa using (hnodup.subperm hsub).length_le

-- ---------------------------------------------------------------------------
-- The work ahead
-- ---------------------------------------------------------------------------

/-- What is queued and what is left of the jobs on the stack. -/
def load (s : State ι) : Nat :=
  (s.queued.map fun entry => entry.job.work).sum + (s.schedTask.map fun task => task.remaining + 1).sum

def work (s : State ι) : Nat := 20 * s.tasks + 10 * s.load + s.exec.rank

theorem work_lt (hload : s'.load = s.load)
    (hrank : 20 * s'.tasks + s'.exec.rank < 20 * s.tasks + s.exec.rank) : s'.work < s.work := by
  unfold work
  omega

/-- A job that is started takes its work with it. -/
theorem work_add (hexec : 14 ≤ s.exec.rank) (htasks : s'.tasks = s.tasks) (htask : s'.schedTask = s.schedTask)
    (hqueued : (s.queued.map fun entry => entry.job.work).sum =
      entry.job.work + (s'.queued.map fun entry => entry.job.work).sum) :
    (s'.addToContext entry).work < s.work := by
  have hload : s.load = entry.job.work + s'.load := by
    rw [load, load, hqueued, htask]
    omega
  unfold addToContext
  dsimp only
  split
  · rename_i hthrows
    have hwork : entry.job.work = 1 := if_pos hthrows
    show 20 * s'.tasks + 10 * s'.load + 22 < s.work
    rw [work, htasks]
    omega
  · rename_i hthrows
    have hwork : entry.job.work = entry.job.suspensions + 1 := if_neg hthrows
    have hsum : s'.load + (entry.job.suspensions + 1) = (s'.queued.map fun entry => entry.job.work).sum +
        (entry.job.suspensions + 1 + (s'.schedTask.map fun task => task.remaining + 1).sum) := by
      rw [load]
      omega
    show 20 * s'.tasks + 10 * ((s'.queued.map fun entry => entry.job.work).sum +
      (entry.job.suspensions + 1 + (s'.schedTask.map fun task => task.remaining + 1).sum)) + 13 < s.work
    rw [work, htasks, ← hsum]
    omega

/-- The executor comes to an end if no job is added. -/
theorem work_exec (hs : s.execRuntimeJobInternal = some s') : s'.work < s.work := by
  simp only [execRuntimeJobInternal] at hs
  split at hs
  · rename_i hexec
    split at hs
    · rename_i htasks
      obtain rfl := Option.some.inj hs
      have hrank : (if s.top = .kHigh then ExecPc.schedule else .high s.top).rank ≤ 16 := by
        split <;> simp [ExecPc.rank]
      refine work_lt rfl ?_
      show 20 * (s.tasks - 1) + (if s.top = .kHigh then ExecPc.schedule else .high s.top).rank < _
      omega
    · cases hs
  · rename_i state hexec
    obtain rfl := Option.some.inj hs
    split
    · rename_i entry highQueue hqueue
      refine work_add (by simp [hexec, ExecPc.rank]) rfl rfl ?_
      rw [queued, hqueue]
      rfl
    · refine work_lt rfl (Nat.add_lt_add_left ?_ _)
      rw [hexec]
      dsimp only
      split <;> simp [ExecPc.rank]
  · rename_i state hexec
    obtain rfl := Option.some.inj hs
    split
    · rename_i entry mediumQueue hqueue
      refine work_add (by simp [hexec, ExecPc.rank]) rfl rfl ?_
      rw [queued, hqueue]
      simp only [queued, List.map_append, List.map_cons, List.sum_append, List.sum_cons]
      omega
    · refine work_lt rfl (Nat.add_lt_add_left ?_ _)
      rw [hexec]
      dsimp only
      split <;> simp [ExecPc.rank]
  · rename_i hexec
    obtain rfl := Option.some.inj hs
    split
    · rename_i entry lowQueue hqueue
      refine work_add (by simp [hexec, ExecPc.rank]) rfl rfl ?_
      rw [queued, hqueue]
      simp only [queued, List.map_append, List.map_cons, List.sum_append, List.sum_cons]
      omega
    · exact work_lt rfl (Nat.add_lt_add_left (by simp [hexec, ExecPc.rank]) _)
  · rename_i hexec
    obtain rfl := Option.some.inj hs
    split
    · rename_i entry jobs task tasks hjob htask
      unfold resume
      dsimp only
      split
      · rename_i remaining hremaining
        simp only [work, load, queued, htask, hexec, hremaining, ExecPc.rank, List.map_cons, List.sum_cons]
        omega
      · rename_i hremaining
        simp only [work, load, queued, htask, hexec, hremaining, ExecPc.rank, List.map_cons, List.sum_cons]
        omega
    · exact work_lt rfl (Nat.add_lt_add_left (by simp [hexec, ExecPc.rank]) _)
  · rename_i hexec
    obtain rfl := Option.some.inj hs
    refine work_lt rfl (Nat.add_lt_add_left ?_ _)
    rw [hexec]
    dsimp only
    split <;> simp [ExecPc.rank]
  · rename_i hexec
    obtain rfl := Option.some.inj hs
    refine work_lt rfl ?_
    rw [hexec]
    show 20 * (s.tasks + 1) + 0 < 20 * s.tasks + 21
    omega
  · rename_i hexec
    obtain rfl := Option.some.inj hs
    exact work_lt rfl (Nat.add_lt_add_left (by simp [hexec, ExecPc.rank]) _)
  · rename_i hexec
    obtain rfl := Option.some.inj hs
    refine work_lt rfl (Nat.add_lt_add_left ?_ _)
    rw [hexec]
    dsimp only
    split <;> simp [ExecPc.rank]

theorem exec_eq_none : s.execRuntimeJobInternal = none ↔ s.exec = .idle ∧ s.tasks = 0 := by
  constructor
  · intro h
    simp only [execRuntimeJobInternal] at h
    split at h
    · rename_i hexec
      split at h
      · cases h
      · exact ⟨hexec, by omega⟩
    all_goals cases h
  · rintro ⟨hexec, htasks⟩
    simp [execRuntimeJobInternal, hexec, htasks]

-- ---------------------------------------------------------------------------
-- The discipline
-- ---------------------------------------------------------------------------

theorem orderly_run [Fintype ι] [DecidableEq ι] (h : Reaches step ({} : State ι) s) :
    s.Counted ∧ s.Positioned ∧ s.Orderly :=
  h.invariant (I := fun s => s.Counted ∧ s.Positioned ∧ s.Orderly) ⟨.empty, trivial, .empty⟩
    fun hI _ hs => ⟨hI.1.step hs, (orderly_step hI.1 hI.2.1 hI.2.2 hs).symm⟩

/-- Nothing is left over. -/
def Finished (s : State ι) : Prop :=
  s.schedJob = [] ∧ s.queued = [] ∧ s.history.enqueued.Perm s.history.finished

theorem Orderly.finished (h : s.Orderly) (hjob : s.schedJob = []) (hqueued : s.queued = []) : s.Finished := by
  refine ⟨hjob, hqueued, perm_of_ofPriority fun p => ?_⟩
  have hqueue : s.queue p = [] := by
    rw [State.queued, List.append_eq_nil_iff, List.append_eq_nil_iff] at hqueued
    cases p with
    | kSched => rfl
    | kHigh => exact hqueued.1.1
    | kMedium => exact hqueued.1.2
    | kLow => exact hqueued.2
  rw [h.queued, h.started, hjob, hqueue, ofPriority_nil, List.append_nil, List.append_nil]

theorem finished_of_rest [Fintype ι] [DecidableEq ι] (h : ReachesBy step Timely ({} : State ι) s)
    (henter : s.mainEnter) (hsettled : ∀ t, (s.pc t).settled) (hrest : s.step .exec = none) : s.Finished := by
  obtain ⟨hcounted, hattended⟩ := counted_and_attended h
  obtain ⟨hidle, htasks⟩ := exec_eq_none.mp hrest
  have hnone : ¬(s.queued ≠ [] ∨ s.schedJob ≠ []) := fun hjob => by
    rcases hattended.task hcounted henter hsettled hjob with htask | hexec
    · omega
    · exact hexec hidle
  obtain ⟨hqueued, hjob⟩ := not_or.mp hnone
  exact (orderly_run h.reaches).2.2.finished (not_ne_iff.mp hjob) (not_ne_iff.mp hqueued)

theorem discipline [Fintype ι] [DecidableEq ι] (h : Reaches step ({} : State ι) s) :
    s.Orderly ∧ s.schedJob.length ≤ 3 ∧
      (s.history.dequeued.map Entry.number).Nodup ∧ s.history.dequeued.Perm (s.history.finished ++ s.schedJob) ∧
      (∀ x s', s.step x = some s' → s'.history.dequeued = s.history.dequeued ∨
        ∃ entry, s'.history.dequeued = s.history.dequeued ++ [entry] ∧ s.MayStart entry) ∧
      (∀ s', s.step .exec = some s' → s'.work < s.work) ∧
      (ReachesBy step Timely ({} : State ι) s → s.mainEnter → (∀ t, (s.pc t).settled) → s.step .exec = none →
        s.Finished) := by
  obtain ⟨hcounted, hpos, horderly⟩ := orderly_run h
  exact ⟨horderly, horderly.length_le, horderly.nodup_numbers, horderly.dequeued_perm,
    fun x s' hs => step_dequeued hcounted hpos horderly hs, fun s' hs => work_exec hs, finished_of_rest⟩

/-- A job of low priority is suspended, and one of high priority ends before it. -/
theorem discipline_preempted :
    ∃ s : State (Fin 2), Reaches step {} s ∧ s.history.finished.map Entry.number = [1, 0] ∧
      s.history.dequeued.Perm (s.history.finished ++ s.schedJob) := by
  let calls : List (Action (Fin 2)) :=
    [.enterMainLoop 1, .run 1, .run 1, .run 1, .addJob 0 { priority := .kLow, suspensions := 1 },
    .run 0, .run 0,
      .run 0, .run 0, .exec, .exec, .exec, .exec, .exec, .exec, .addJob 0 { priority := .kHigh },
        .run 0, .run 0,
      .exec, .exec, .exec, .exec, .exec, .exec, .exec, .exec, .exec]
  have h : Reaches step ({} : State (Fin 2)) ((Lib.exec step {} calls).getD {}) :=
    .of_isSome calls (by decide)
  exact ⟨_, h, by decide, (discipline h).2.2.2.1⟩

/-- A job of high priority is pushed after the dispatch has looked at its queue, and the one of medium
priority is started. -/
theorem start_overtaken :
    ∃ (s s' : State (Fin 2)) (entry other : Entry), Reaches step {} s ∧ s.step .exec = some s' ∧
      s'.history.dequeued = s.history.dequeued ++ [entry] ∧ entry.job.priority = .kMedium ∧
      other ∈ s.highQueue := by
  let calls : List (Action (Fin 2)) :=
    [.enterMainLoop 1, .run 1, .run 1, .run 1, .addJob 0 {}, .run 0, .run 0, .run 0, .run 0, .exec, .exec,
      .addJob 0 { priority := .kHigh }, .run 0]
  have h : Reaches step ({} : State (Fin 2)) ((Lib.exec step {} calls).getD {}) :=
    .of_isSome calls (by decide)
  exact ⟨_, _, ⟨0, {}⟩, ⟨1, { priority := .kHigh }⟩, h, rfl, by decide, rfl, by decide⟩

end State
end Dmn.Runtime
