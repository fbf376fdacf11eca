import Dmn.Pipe.Scheduled

/-!
# The worker of the pipe with scheduled writes

`scheduledProcessingLoop` with its condition variable: where it finds nothing to take it sleeps,
until the earliest deadline if an item is scheduled, and writes and `shutdown` wake it. Callbacks
return here. Every accepted item is taken once, ordinary ones in order and before scheduled ones,
and none of them is slept on.
-/

namespace Dmn.Pipe

open Dmn.Lib

structure Loop (ι T : Type) where
  pipe : State ι T := {}
  -- In `m_work_cond`, with the deadline of a `wait_until`.
  asleep : Option (Option Int) := none
  -- `shutdown` has set the flag and is about to notify.
  notifying : Bool := false
  -- History: the deadline of each accepted item, and `none` for an ordinary one.
  deadlines : List (Option Int) := []

inductive Event (ι T : Type)
  | write (item : T)
  | writeAt (deadline : Int) (item : T)
  | shutdown
  -- The end of `shutdown`.
  | notifyAll
  | tick (now : Int)
  -- The worker looks for an item.
  | look
  | callback
  | account
  | timeout
  | spuriousWakeUp
  | waitForEmpty (t : ι)
  | wake (t : ι)

namespace Loop

variable {ι T : Type}

section
variable [DecidableEq ι]

/-- A write after shutdown throws. -/
def accept (l : Loop ι T) (deadline : Option Int) (write : Action ι T) : Option (Loop ι T) :=
  if l.pipe.shutdownFlag then some l
  else (l.pipe.step write).map fun pipe =>
    { l with pipe, asleep := none, deadlines := l.deadlines ++ [deadline] }

def within (l : Loop ι T) (a : Action ι T) : Option (Loop ι T) :=
  (l.pipe.step a).map fun pipe => { l with pipe }

/-- Where nothing is taken the worker waits, for the earliest deadline if there is one. -/
def look (l : Loop ι T) : Option (Loop ι T) :=
  if l.asleep.isSome then none
  else (l.pipe.step .select).map fun pipe =>
    { l with
      pipe
      asleep :=
        match pipe.worker with
        | .selecting => some (pipe.scheduledQueue.head?.map Prod.fst)
        | _ => none }

def step (l : Loop ι T) : Event ι T → Option (Loop ι T)
  | .write item => l.accept none (.write item)
  | .writeAt deadline item => l.accept (some deadline) (.writeAt deadline item)
  | .shutdown =>
    if l.pipe.shutdownFlag then some l
    else (l.pipe.step .shutdown).map fun pipe => { l with pipe, notifying := true }
  | .notifyAll =>
    if l.notifying then some { l with asleep := none, notifying := false } else none
  | .tick now => l.within (.tick now)
  | .look => l.look
  | .callback => l.within (.callback false)
  | .account => l.within .account
  | .timeout =>
    match l.asleep with
    | some (some deadline) =>
      if deadline ≤ l.pipe.now then some { l with asleep := none } else none
    | _ => none
  | .spuriousWakeUp => if l.asleep.isSome then some { l with asleep := none } else none
  | .waitForEmpty t => l.within (.waitForEmpty t)
  | .wake t => l.within (.wake t)

end
end Loop

-- ---------------------------------------------------------------------------
-- What a selection takes
-- ---------------------------------------------------------------------------

namespace State

variable {ι T : Type} {s s' : State ι T} {deadlines : List (Option Int)}

/-- The looks of a worker while no callback has thrown. -/
inductive Selection (s : State ι T) : State ι T → Prop
  | ordinary (entry : Entry T) (queue : List (Entry T)) : s.queue = entry :: queue →
      Selection s { s with queue, worker := .processing entry }
  | scheduled (deadline : Int) (entry : Entry T) (scheduledQueue : List (Int × Entry T)) :
      s.queue = [] → s.scheduledQueue = (deadline, entry) :: scheduledQueue → deadline ≤ s.now →
      Selection s { s with scheduledQueue, worker := .processing entry }
  | early (deadline : Int) (entry : Entry T) (scheduledQueue : List (Int × Entry T)) :
      s.queue = [] → s.scheduledQueue = (deadline, entry) :: scheduledQueue → s.now < deadline →
      Selection s s
  | idle : s.queue = [] → s.scheduledQueue = [] → s.shutdownFlag = false → Selection s s
  | ends : s.queue = [] → s.scheduledQueue = [] → s.shutdownFlag = true →
      Selection s { s with worker := .stopped none }

theorem selection (plain : s.processingException = false) : Selection s s.select := by
  obtain ⟨queue, scheduledQueue, _, _, exception, flag, now⟩ := s
  obtain rfl : exception = false := plain
  cases queue with
  | cons entry rest => exact .ordinary entry rest rfl
  | nil =>
    cases scheduledQueue with
    | nil =>
      cases flag with
      | true => exact .ends rfl rfl rfl
      | false => exact .idle rfl rfl rfl
    | cons x rest =>
      obtain ⟨deadline, entry⟩ := x
      by_cases due : deadline ≤ now
      · simp only [select, due, if_true]
        exact .scheduled deadline entry rest rfl rfl due
      · simp only [select, due, if_false]
        exact .early deadline entry rest rfl rfl (not_le.mp due)

/-- Items with an earlier deadline, or the same and accepted before. -/
def Before (x y : Int × Entry T) : Prop :=
  x.1 < y.1 ∨ x.1 = y.1 ∧ x.2.number < y.2.number

theorem emplace_earliest {deadline : Int} {entry : Entry T} {queue : List (Int × Entry T)}
    (sorted : queue.Pairwise Before) (newest : ∀ x ∈ queue, x.2.number < entry.number) :
    (emplace deadline entry queue).Pairwise Before := by
  induction queue with
  | nil => exact List.pairwise_singleton ..
  | cons x queue ih =>
    obtain ⟨least, sorted'⟩ := List.pairwise_cons.mp sorted
    unfold emplace
    split
    · next le =>
      refine List.pairwise_cons.mpr ⟨fun y hy => ?_, ih sorted' fun y hy => newest y (by simp [hy])⟩
      rcases List.mem_cons.mp ((emplace_perm ..).subset hy) with rfl | hy
      · rcases le.lt_or_eq with lt | eq
        · exact .inl lt
        · exact .inr ⟨eq, newest x (by simp)⟩
      · exact least y hy
    · next gt =>
      refine List.pairwise_cons.mpr ⟨fun y hy => .inl ?_, sorted⟩
      rcases List.mem_cons.mp hy with rfl | hy
      · exact not_le.mp gt
      · rcases least y hy with lt | ⟨eq, _⟩
        · exact (not_le.mp gt).trans lt
        · exact eq ▸ not_le.mp gt

/-- The item was accepted by `write`. -/
def Ordinary (deadlines : List (Option Int)) (entry : Entry T) : Bool :=
  deadlines[entry.number]? == some none

/-- The items that the worker has taken, in order. -/
def taken (s : State ι T) : List (Entry T) := s.processed ++ s.hand.toList

/-- The queues hold what their names say. -/
structure Sorted (s : State ι T) (deadlines : List (Option Int)) : Prop where
  known : deadlines.length = s.submittedCount
  queue : ∀ entry ∈ s.queue, deadlines[entry.number]? = some none
  scheduledQueue : ∀ x ∈ s.scheduledQueue, deadlines[x.2.number]? = some (some x.1)
  earliest : s.scheduledQueue.Pairwise Before
  inOrder : s.taken.filter (Ordinary deadlines) ++ s.queue = s.accepted.filter (Ordinary deadlines)

theorem Sorted.empty : ({} : State ι T).Sorted [] where
  known := rfl
  queue := nofun
  scheduledQueue := nofun
  earliest := .nil
  inOrder := rfl

theorem Sorted.congr (h : s.Sorted deadlines) (submitted : s'.submittedCount = s.submittedCount)
    (queue : s'.queue = s.queue) (scheduled : s'.scheduledQueue = s.scheduledQueue)
    (taken : s'.taken = s.taken) (accepted : s'.accepted = s.accepted) : s'.Sorted deadlines where
  known := h.known.trans submitted.symm
  queue := queue ▸ h.queue
  scheduledQueue := scheduled ▸ h.scheduledQueue
  earliest := scheduled ▸ h.earliest
  inOrder := by rw [taken, queue, accepted, h.inOrder]

/-- A new item gets the next number, at the end of the queue or in its place among the scheduled
ones. -/
theorem Sorted.accept (h : s.Sorted deadlines) (accounted : s.Accounted) (deadline : Option Int)
    (entry : Entry T) (number : entry.number = s.submittedCount)
    (submitted : s'.submittedCount = s.submittedCount + 1) (taken : s'.taken = s.taken)
    (accepted : s'.accepted = s.accepted ++ [entry])
    (queues : match deadline with
      | none => s'.queue = s.queue ++ [entry] ∧ s'.scheduledQueue = s.scheduledQueue
      | some deadline => s'.queue = s.queue ∧
          s'.scheduledQueue = emplace deadline entry s.scheduledQueue) :
    s'.Sorted (deadlines ++ [deadline]) := by
  have own : (deadlines ++ [deadline])[entry.number]? = some deadline := by
    rw [number, ← h.known, List.getElem?_concat_length]
  have same : ∀ e ∈ s.accepted, (deadlines ++ [deadline])[e.number]? = deadlines[e.number]? :=
    fun e he => List.getElem?_append_left (h.known ▸ accounted.number_lt he)
  have old : ∀ e ∈ s.taken ++ s.queued, e ∈ s.accepted := fun e he => accounted.placed.subset he
  have inQueue : ∀ e ∈ s.queue, e ∈ s.accepted := fun e he => old e (by simp [queued, he])
  have inScheduled : ∀ x ∈ s.scheduledQueue, x.2 ∈ s.accepted := fun x hx =>
    old x.2 (List.mem_append_right _ (List.mem_append_right _ (List.mem_map_of_mem hx)))
  have kinds : ∀ l : List (Entry T), l ⊆ s.accepted →
      l.filter (Ordinary (deadlines ++ [deadline])) = l.filter (Ordinary deadlines) := fun l hl =>
    List.filter_congr fun e he => by rw [Ordinary, Ordinary, same e (hl he)]
  have before : (s'.taken.filter (Ordinary (deadlines ++ [deadline]))) ++ s.queue =
      s.accepted.filter (Ordinary (deadlines ++ [deadline])) := by
    rw [taken, kinds _ fun e he => old e (List.mem_append_left _ he),
      kinds _ (List.Subset.refl _), h.inOrder]
  cases deadline with
  | none =>
    obtain ⟨queue, scheduled⟩ := queues
    have kind : Ordinary (deadlines ++ [none]) entry = true := by simp [Ordinary, own]
    exact
      { known := by simp [submitted, h.known]
        queue := fun e he => by
          rw [queue] at he
          rcases List.mem_append.mp he with he | he
          · rw [same e (inQueue e he)]
            exact h.queue e he
          · rw [List.mem_singleton.mp he, own]
        scheduledQueue := fun x hx => by
          rw [scheduled] at hx
          rw [same x.2 (inScheduled x hx)]
          exact h.scheduledQueue x hx
        earliest := scheduled ▸ h.earliest
        inOrder := by
          rw [queue, accepted, List.filter_append, ← List.append_assoc, before]
          simp [kind] }
  | some deadline =>
    obtain ⟨queue, scheduled⟩ := queues
    have kind : Ordinary (deadlines ++ [some deadline]) entry = false := by simp [Ordinary, own]
    exact
      { known := by simp [submitted, h.known]
        queue := fun e he => by
          rw [queue] at he
          rw [same e (inQueue e he)]
          exact h.queue e he
        scheduledQueue := fun x hx => by
          rw [scheduled] at hx
          rcases List.mem_cons.mp ((emplace_perm ..).subset hx) with rfl | hx
          · exact own
          · rw [same x.2 (inScheduled x hx)]
            exact h.scheduledQueue x hx
        earliest := scheduled ▸ emplace_earliest h.earliest fun x hx =>
          number ▸ accounted.number_lt (inScheduled x hx)
        inOrder := by
          rw [queue, accepted, List.filter_append, before]
          simp [kind] }

theorem Sorted.select (h : s.Sorted deadlines) (worker : s.worker = .selecting)
    (selection : Selection s s') : s'.Sorted deadlines := by
  have inOrder := h.inOrder
  have taken : s.taken = s.processed := by simp [taken, hand, worker]
  rw [taken] at inOrder
  cases selection with
  | ordinary entry queue eq =>
    have kind := h.queue entry (by simp [eq])
    exact
      { known := h.known
        queue := fun e he => h.queue e (by simp [eq, he])
        scheduledQueue := h.scheduledQueue
        earliest := h.earliest
        inOrder := by
          rw [← inOrder, eq]
          simp [State.taken, hand, Ordinary, kind] }
  | scheduled deadline entry scheduledQueue eq scheduled due =>
    have kind := h.scheduledQueue (deadline, entry) (by simp [scheduled])
    exact
      { known := h.known
        queue := h.queue
        scheduledQueue := fun x hx => h.scheduledQueue x (by simp [scheduled, hx])
        earliest := (List.pairwise_cons.mp (scheduled ▸ h.earliest)).2
        inOrder := by
          rw [← inOrder]
          simp [State.taken, hand, Ordinary, kind] }
  | early | idle => exact h
  | ends => exact h.congr rfl rfl rfl (by rw [taken]; simp [State.taken, hand]) rfl

end State

namespace Loop

variable {ι T : Type} {l l' : Loop ι T}

/-- The worker has not seen a callback throw. -/
def Plain (s : State ι T) : Prop :=
  s.processingException = false ∧
    match s.worker with
    | .failing _ | .stopped (some _) => False
    | _ => True

/-- Nothing to take, and the deadline to wait for; after shutdown there is one, or a wake-up. -/
structure Sleeps (l : Loop ι T) (deadline : Option Int) : Prop where
  worker : l.pipe.worker = .selecting
  queue : l.pipe.queue = []
  deadline : deadline = l.pipe.scheduledQueue.head?.map Prod.fst
  notified : l.pipe.scheduledQueue = [] → l.pipe.shutdownFlag = true → l.notifying = true

structure Inv (l : Loop ι T) : Prop where
  accounted : l.pipe.Accounted
  sorted : l.pipe.Sorted l.deadlines
  plain : Plain l.pipe
  sleeps : ∀ deadline, l.asleep = some deadline → l.Sleeps deadline
  stopped : ∀ entry, l.pipe.worker = .stopped entry →
    l.pipe.shutdownFlag = true ∧ l.pipe.queued = []

theorem Inv.empty : ({} : Loop ι T).Inv where
  accounted := .empty
  sorted := .empty
  plain := ⟨rfl, trivial⟩
  sleeps := nofun
  stopped := nofun

variable [DecidableEq ι]

omit [DecidableEq ι] in
theorem Plain.congr {s s' : State ι T} (h : Plain s)
    (exception : s'.processingException = s.processingException) (worker : s'.worker = s.worker) :
    Plain s' := by
  rw [Plain, exception, worker]
  exact h

/-- A write adds its item to one of the queues, and wakes the worker. -/
theorem Inv.accept (h : l.Inv) (deadline : Option Int) {write : Action ι T}
    (adds : ∀ pipe, l.pipe.step write = some pipe → ¬ l.pipe.shutdownFlag = true →
      pipe.Sorted (l.deadlines ++ [deadline]) ∧
        pipe.processingException = l.pipe.processingException ∧ pipe.worker = l.pipe.worker)
    (ha : l.accept deadline write = some l') : l'.Inv := by
  unfold Loop.accept at ha
  split at ha
  · exact Option.some.inj ha ▸ h
  · next flag =>
    obtain ⟨pipe, hs, rfl⟩ := Option.map_eq_some_iff.mp ha
    obtain ⟨sorted, exception, worker⟩ := adds pipe hs flag
    exact
      { accounted := h.accounted.step hs
        sorted
        plain := h.plain.congr exception worker
        sleeps := nofun
        stopped := fun entry stopped =>
          absurd (h.stopped entry (worker.symm.trans stopped)).1 flag }

theorem Inv.write (h : l.Inv) (item : T) (ha : l.accept none (.write item) = some l') : l'.Inv := by
  refine h.accept none (fun pipe hs flag => ?_) ha
  obtain rfl := Option.some.inj hs
  rw [if_neg flag]
  exact ⟨h.sorted.accept h.accounted none _ rfl rfl rfl rfl ⟨rfl, rfl⟩, rfl, rfl⟩

theorem Inv.writeAt (h : l.Inv) (deadline : Int) (item : T)
    (ha : l.accept (some deadline) (.writeAt deadline item) = some l') : l'.Inv := by
  refine h.accept (some deadline) (fun pipe hs flag => ?_) ha
  obtain rfl := Option.some.inj hs
  rw [if_neg flag]
  exact ⟨h.sorted.accept h.accounted (some deadline) _ rfl rfl rfl rfl ⟨rfl, rfl⟩, rfl, rfl⟩

theorem Inv.look (h : l.Inv) (ha : l.look = some l') : l'.Inv := by
  unfold Loop.look at ha
  split at ha
  · cases ha
  · obtain ⟨pipe, hs, rfl⟩ := Option.map_eq_some_iff.mp ha
    have accounted := h.accounted.step hs
    simp only [State.step] at hs
    split at hs
    · next worker =>
      obtain rfl := Option.some.inj hs
      have selection := State.selection h.plain.1
      generalize l.pipe.select = pipe at accounted selection
      refine ⟨accounted, h.sorted.select worker selection, ?_, ?_, ?_⟩
      · cases selection with
        | early | idle => exact h.plain
        | _ => exact ⟨h.plain.1, trivial⟩
      · intro deadline asleep
        cases selection with
        | early d entry scheduledQueue eq scheduled early =>
          simp only [worker, Option.some.injEq] at asleep
          exact ⟨worker, eq, asleep.symm, by simp [scheduled]⟩
        | idle eq scheduled flag =>
          simp only [worker, Option.some.injEq] at asleep
          exact ⟨worker, eq, asleep.symm, by simp [flag]⟩
        | _ => cases asleep
      · intro entry stopped
        cases selection with
        | early | idle => exact h.stopped entry stopped
        | ends eq scheduled flag => exact ⟨flag, by simp [State.queued, eq, scheduled]⟩
        | _ => cases stopped
    · cases hs

omit [DecidableEq ι] in
theorem hand_congr {s s' : State ι T} (worker : s'.worker = s.worker) : s'.hand = s.hand := by
  unfold State.hand
  rw [worker]

omit [DecidableEq ι] in
/-- Neither the worker nor the queues nor the flags change. -/
theorem Inv.keeps (h : l.Inv) {pipe : State ι T} (accounted : pipe.Accounted)
    (queue : pipe.queue = l.pipe.queue) (scheduled : pipe.scheduledQueue = l.pipe.scheduledQueue)
    (submitted : pipe.submittedCount = l.pipe.submittedCount)
    (exception : pipe.processingException = l.pipe.processingException)
    (flag : pipe.shutdownFlag = l.pipe.shutdownFlag) (worker : pipe.worker = l.pipe.worker)
    (accepted : pipe.accepted = l.pipe.accepted) (processed : pipe.processed = l.pipe.processed) :
    ({ l with pipe } : Loop ι T).Inv where
  accounted := accounted
  sorted := h.sorted.congr submitted queue scheduled
    (by rw [State.taken, State.taken, processed, hand_congr worker]) accepted
  plain := h.plain.congr exception worker
  sleeps deadline asleep := by
    have sleeps := h.sleeps deadline asleep
    exact
      { worker := worker.trans sleeps.worker
        queue := queue.trans sleeps.queue
        deadline := by rw [sleeps.deadline, scheduled]
        notified := by
          show pipe.scheduledQueue = [] → pipe.shutdownFlag = true → _
          rw [scheduled, flag]
          exact sleeps.notified }
  stopped entry stopped := by
    obtain ⟨ended, empty⟩ := h.stopped entry (worker.symm.trans stopped)
    exact ⟨flag.trans ended, by rw [State.queued, queue, scheduled]; exact empty⟩

omit [DecidableEq ι] in
theorem Inv.wakes (h : l.Inv) (notifying : Bool) :
    ({ l with asleep := none, notifying } : Loop ι T).Inv :=
  { h with sleeps := nofun }

omit [DecidableEq ι] in
/-- The worker is busy with an item, and stays so or goes on to look for the next one. -/
theorem Inv.busy (h : l.Inv) {pipe : State ι T} (accounted : pipe.Accounted)
    (sorted : pipe.Sorted l.deadlines) (plain : Plain pipe) (before : l.pipe.worker ≠ .selecting)
    (running : ∀ entry, pipe.worker ≠ .stopped entry) : ({ l with pipe } : Loop ι T).Inv where
  accounted := accounted
  sorted := sorted
  plain := plain
  sleeps deadline asleep := absurd (h.sleeps deadline asleep).worker before
  stopped entry stopped := absurd stopped (running entry)

theorem Inv.within (h : l.Inv) {a : Action ι T}
    (kind : a matches .tick _ | .callback false | .account | .waitForEmpty _ | .wake _)
    (ha : l.within a = some l') : l'.Inv := by
  obtain ⟨pipe, hs, rfl⟩ := Option.map_eq_some_iff.mp ha
  have accounted := h.accounted.step hs
  cases a with
  | write | writeAt | shutdown | select => cases kind
  | tick now =>
    simp only [State.step] at hs
    split at hs
    · obtain rfl := Option.some.inj hs
      exact h.keeps accounted rfl rfl rfl rfl rfl rfl rfl rfl
    · cases hs
  | callback throws =>
    cases throws with
    | true => cases kind
    | false =>
      simp only [State.step] at hs
      split at hs
      · next entry worker =>
        obtain rfl := Option.some.inj hs
        refine h.busy accounted (h.sorted.congr rfl rfl rfl ?_ rfl) ⟨h.plain.1, trivial⟩
          (by simp [worker]) (by rintro _ ⟨⟩)
        simp [State.taken, State.hand, worker]
      · cases hs
  | account =>
    simp only [State.step] at hs
    split at hs
    · next worker =>
      obtain rfl := Option.some.inj hs
      refine h.busy accounted (h.sorted.congr rfl rfl rfl ?_ rfl) ⟨h.plain.1, trivial⟩
        (by simp [worker]) (by rintro _ ⟨⟩)
      simp [State.taken, State.hand, worker]
    · next entry worker =>
      have plain := h.plain.2
      rw [worker] at plain
      cases plain
    · cases hs
  | waitForEmpty t =>
    simp only [State.step] at hs
    split at hs
    · cases hs
    · obtain rfl := Option.some.inj hs
      exact h.keeps accounted rfl rfl rfl rfl rfl rfl rfl rfl
  | wake t =>
    simp only [State.step] at hs
    split at hs
    · split at hs
      · obtain rfl := Option.some.inj hs
        exact h.keeps accounted rfl rfl rfl rfl rfl rfl rfl rfl
      · cases hs
    · cases hs

theorem Inv.step (h : l.Inv) {a : Event ι T} (ha : l.step a = some l') : l'.Inv := by
  cases a with
  | write item => exact h.write item ha
  | writeAt deadline item => exact h.writeAt deadline item ha
  | shutdown =>
    simp only [Loop.step] at ha
    split at ha
    · exact Option.some.inj ha ▸ h
    · obtain ⟨pipe, hs, rfl⟩ := Option.map_eq_some_iff.mp ha
      have accounted := h.accounted.step hs
      obtain rfl := Option.some.inj hs
      exact
        { accounted
          sorted := h.sorted.congr rfl rfl rfl rfl rfl
          plain := h.plain
          sleeps := fun deadline asleep =>
            { h.sleeps deadline asleep with notified := fun _ _ => rfl }
          stopped := fun entry stopped => ⟨rfl, (h.stopped entry stopped).2⟩ }
  | notifyAll =>
    simp only [Loop.step] at ha
    split at ha
    · exact Option.some.inj ha ▸ h.wakes _
    · cases ha
  | look => exact h.look ha
  | timeout =>
    simp only [Loop.step] at ha
    split at ha
    · split at ha
      · exact Option.some.inj ha ▸ h.wakes _
      · cases ha
    · cases ha
  | spuriousWakeUp =>
    simp only [Loop.step] at ha
    split at ha
    · exact Option.some.inj ha ▸ h.wakes _
    · cases ha
  | tick | callback | account | waitForEmpty | wake => exact h.within rfl ha

theorem inv_of_reaches (run : Reaches step ({} : Loop ι T) l) : l.Inv :=
  run.invariant .empty fun h _ ha => h.step ha

-- ---------------------------------------------------------------------------
-- The worker gets through
-- ---------------------------------------------------------------------------

/-- The steps of the worker, of the clock and of the end of a `shutdown`. -/
def Quiet (_ : Loop ι T) : Event ι T → Prop
  | .notifyAll | .tick _ | .look | .callback | .account | .timeout => True
  | _ => False

/-- Nothing is queued or in hand, and after shutdown the worker has returned. -/
structure Drained (l : Loop ι T) : Prop where
  processed : l.pipe.processed.Perm l.pipe.accepted
  returned : l.pipe.shutdownFlag = true → ∃ entry, l.pipe.worker = .stopped entry

omit [DecidableEq ι] in
theorem Inv.processed (h : l.Inv) (worker : l.pipe.hand = none) (empty : l.pipe.queued = []) :
    l.pipe.processed.Perm l.pipe.accepted := by
  simpa [worker, empty] using h.accounted.placed

/-- The clock reaches a time. -/
theorem exists_tick (l : Loop ι T) (now : Int) :
    ∃ l', l.step (.tick (max l.pipe.now now)) = some l' ∧ now ≤ l'.pipe.now ∧
      l'.pipe.queue = l.pipe.queue ∧ l'.pipe.scheduledQueue = l.pipe.scheduledQueue ∧
      l'.pipe.worker = l.pipe.worker ∧ l'.asleep = l.asleep := by
  refine ⟨{ l with pipe := { l.pipe with now := max l.pipe.now now } }, ?_, le_max_right .., rfl,
    rfl, rfl, rfl⟩
  simp [step, within, State.step]

omit [DecidableEq ι] in
/-- What the worker could take it is not asleep for, or the time has come. -/
theorem Inv.awake (h : l.Inv) (deadline : Option Int) (asleep : l.asleep = some deadline)
    (selects : l.pipe.selects ≠ none) : ∃ d, deadline = some d ∧ d ≤ l.pipe.now := by
  have sleeps := h.sleeps deadline asleep
  have selects := selects
  simp only [State.selects, h.plain.1, sleeps.queue, Bool.false_eq_true, if_false] at selects
  cases scheduled : l.pipe.scheduledQueue with
  | nil => simp [scheduled] at selects
  | cons x rest =>
    refine ⟨x.1, by rw [sleeps.deadline, scheduled]; rfl, ?_⟩
    by_contra late
    simp [scheduled, late] at selects

theorem Inv.wakesUp (h : l.Inv) (selects : l.pipe.selects ≠ none) :
    ∃ l', ReachesBy Loop.step Quiet l l' ∧ l'.pipe = l.pipe ∧ l'.asleep = none := by
  cases asleep : l.asleep with
  | none => exact ⟨l, .refl, rfl, asleep⟩
  | some deadline =>
    obtain ⟨d, rfl, due⟩ := h.awake deadline asleep selects
    refine ⟨{ l with asleep := none }, ReachesBy.refl.tail .timeout trivial ?_, rfl, rfl⟩
    simp [Loop.step, asleep, due]

omit [DecidableEq ι] in
theorem select_takes {s : State ι T} (plain : s.processingException = false)
    (selects : s.selects ≠ none) :
    (∃ entry, s.select.worker = .processing entry) ∧ s.select.queued.length < s.queued.length := by
  have selection := State.selection plain
  generalize s.select = s' at selection
  cases selection with
  | ordinary entry queue eq => exact ⟨⟨entry, rfl⟩, by simp [State.queued, eq]⟩
  | scheduled deadline entry scheduledQueue eq scheduled due =>
    exact ⟨⟨entry, rfl⟩, by simp [State.queued, eq, scheduled]⟩
  | early deadline entry scheduledQueue eq scheduled early =>
    exact absurd (by simp [State.selects, plain, eq, scheduled, early]) selects
  | idle eq scheduled | ends eq scheduled =>
    exact absurd (by simp [State.selects, plain, eq, scheduled]) selects

/-- The worker is awake and does not go to sleep. -/
theorem looks (awake : l.asleep = none) (worker : l.pipe.worker = .selecting)
    (goesOn : l.pipe.select.worker ≠ .selecting) :
    l.step .look = some { l with pipe := l.pipe.select } := by
  -- `goesOn` decides the match on the worker
  simp only [step, look, awake, State.step, worker, Option.map_some, Option.isSome_none,
    Bool.false_eq_true, if_false]

/-- The callback of the item in hand returns, and the item is counted. -/
theorem counts
    (worker : (∃ entry, l.pipe.worker = .processing entry) ∨ l.pipe.worker = .counting) :
    ∃ l', ReachesBy step Quiet l l' ∧ l'.pipe.worker = .selecting ∧
      l'.pipe.queued = l.pipe.queued := by
  have account : ∀ l : Loop ι T, l.pipe.worker = .counting → ∃ l', l.step .account = some l' ∧
      l'.pipe.worker = .selecting ∧ l'.pipe.queued = l.pipe.queued := fun l worker =>
    ⟨{ l with pipe := { l.pipe with count := l.pipe.count + 1, worker := .selecting } },
      by simp [step, within, State.step, worker], rfl, rfl⟩
  rcases worker with ⟨entry, worker⟩ | worker
  · obtain ⟨l', ha, same⟩ := account { l with pipe := { l.pipe with
      worker := .counting, processed := l.pipe.processed ++ [entry] } } rfl
    refine ⟨l', (ReachesBy.refl.tail .callback trivial ?_).tail .account trivial ha, same⟩
    simp [step, within, State.step, worker]
  · obtain ⟨l', ha, same⟩ := account l worker
    exact ⟨l', ReachesBy.refl.tail .account trivial ha, same⟩

/-- An item that could be taken is taken, and its callback returns. -/
theorem Inv.takes (h : l.Inv) (worker : l.pipe.worker = .selecting)
    (selects : l.pipe.selects ≠ none) :
    ∃ l', ReachesBy Loop.step Quiet l l' ∧ l'.pipe.worker = .selecting ∧
      l'.pipe.queued.length < l.pipe.queued.length := by
  obtain ⟨l₁, run₁, pipe, awake⟩ := h.wakesUp selects
  obtain ⟨⟨entry, processing⟩, fewer⟩ := select_takes h.plain.1 selects
  have looked : l₁.step .look = some { l₁ with pipe := l.pipe.select } :=
    pipe ▸ looks awake (pipe ▸ worker) (by simp [pipe, processing])
  obtain ⟨l₂, run₂, selecting, queued⟩ :=
    counts (l := { l₁ with pipe := l.pipe.select }) (.inl ⟨entry, processing⟩)
  exact ⟨l₂, (ReachesBy.tail Event.look run₁ trivial looked).trans run₂, selecting, queued ▸ fewer⟩

theorem Inv.quiet (h : l.Inv) (run : ReachesBy Loop.step Quiet l l') : l'.Inv :=
  run.invariant h fun h _ ha => h.step ha

/-- With empty queues the worker returns after shutdown. -/
theorem Inv.returns (h : l.Inv) (worker : l.pipe.worker = .selecting) (empty : l.pipe.queued = []) :
    ∃ l', ReachesBy Loop.step Quiet l l' ∧ l'.Drained := by
  obtain ⟨queue, scheduled⟩ := List.append_eq_nil_iff.mp empty
  have scheduled : l.pipe.scheduledQueue = [] := List.map_eq_nil_iff.mp scheduled
  have processed := h.processed (by simp [State.hand, worker]) empty
  cases flag : l.pipe.shutdownFlag with
  | false => exact ⟨l, .refl, processed, by simp [flag]⟩
  | true =>
    obtain ⟨l₁, run, pipe, awake⟩ : ∃ l', ReachesBy Loop.step Quiet l l' ∧ l'.pipe = l.pipe ∧
        l'.asleep = none := by
      cases asleep : l.asleep with
      | none => exact ⟨l, .refl, rfl, asleep⟩
      | some deadline =>
        have notifying := (h.sleeps deadline asleep).notified scheduled flag
        refine ⟨{ l with asleep := none, notifying := false },
          ReachesBy.refl.tail .notifyAll trivial ?_, rfl, rfl⟩
        simp [Loop.step, notifying]
    have ends : l.pipe.select = { l.pipe with worker := .stopped none } := by
      simp [State.select, h.plain.1, queue, scheduled, flag]
    refine ⟨{ l₁ with pipe := l.pipe.select }, ReachesBy.tail Event.look run trivial ?_, ?_, ?_⟩
    · exact pipe ▸ looks awake (pipe ▸ worker) (by simp [pipe, ends])
    · rw [ends]
      exact processed
    · rw [ends]
      exact fun _ => ⟨none, rfl⟩

theorem Inv.drainsSelecting (h : l.Inv) (worker : l.pipe.worker = .selecting) :
    ∃ l', ReachesBy Loop.step Quiet l l' ∧ l'.Drained := by
  induction n : l.pipe.queued.length using Nat.strong_induction_on generalizing l with
  | _ n ih =>
    by_cases empty : l.pipe.queued = []
    · exact h.returns worker empty
    · -- the clock reaches the earliest deadline, if no ordinary item is there
      obtain ⟨l₁, ticked, due, queue, scheduled, worker₁, -⟩ :=
        exists_tick l ((l.pipe.scheduledQueue.head?.map Prod.fst).getD 0)
      have h₁ : l₁.Inv := h.step ticked
      have selects : l₁.pipe.selects ≠ none := by
        simp only [State.selects, h₁.plain.1, queue, scheduled, Bool.false_eq_true, if_false]
        cases ordinary : l.pipe.queue with
        | cons entry rest => simp
        | nil =>
          cases later : l.pipe.scheduledQueue with
          | nil => exact absurd (by simp [State.queued, ordinary, later]) empty
          | cons x rest =>
            have due : x.1 ≤ l₁.pipe.now := by simpa [later] using due
            simp [due]
      obtain ⟨l₂, run, selecting, fewer⟩ := h₁.takes (worker₁.trans worker) selects
      have same : l₁.pipe.queued = l.pipe.queued := by rw [State.queued, queue, scheduled]; rfl
      rw [same] at fewer
      obtain ⟨l₃, more, drained⟩ := ih _ (n ▸ fewer) (h₁.quiet run) selecting rfl
      exact ⟨l₃, ((ReachesBy.refl.tail _ trivial ticked).trans run).trans more, drained⟩

/-- From every state the worker alone gets all items processed. -/
theorem Inv.drains (h : l.Inv) : ∃ l', ReachesBy Loop.step Quiet l l' ∧ l'.Drained := by
  have plain := h.plain.2
  have after : (∃ entry, l.pipe.worker = .processing entry) ∨ l.pipe.worker = .counting →
      ∃ l', ReachesBy Loop.step Quiet l l' ∧ l'.Drained := fun worker => by
    obtain ⟨l₁, run, selecting, -⟩ := counts worker
    obtain ⟨l₂, more, drained⟩ := (h.quiet run).drainsSelecting selecting
    exact ⟨l₂, run.trans more, drained⟩
  cases worker : l.pipe.worker with
  | selecting => exact h.drainsSelecting worker
  | processing entry => exact after (.inl ⟨entry, worker⟩)
  | counting => exact after (.inr worker)
  | failing entry =>
    rw [worker] at plain
    cases plain
  | stopped entry =>
    rw [worker] at plain
    cases entry with
    | none =>
      refine ⟨l, .refl, h.processed (by simp [State.hand, worker]) (h.stopped none worker).2, ?_⟩
      exact fun _ => ⟨none, worker⟩
    | some entry => cases plain

-- ---------------------------------------------------------------------------
-- Order and exactly-once processing
-- ---------------------------------------------------------------------------

/-- The worker may take the item: it is queued, and a scheduled one is due, the only kind there,
and before the others. -/
structure Next (l : Loop ι T) (entry : Entry T) : Prop where
  queued : entry ∈ l.pipe.queued
  scheduled : ∀ deadline, l.deadlines[entry.number]? = some (some deadline) →
    deadline ≤ l.pipe.now ∧ l.pipe.queue = [] ∧ ∀ other ∈ l.pipe.queued, ∃ later,
      l.deadlines[other.number]? = some (some later) ∧
        (deadline < later ∨ deadline = later ∧ entry.number ≤ other.number)

/-- The worker has an item that is not counted. -/
def inHand (s : State ι T) : Nat :=
  match s.worker with
  | .processing _ | .counting => 1
  | _ => 0

structure Exact (l : Loop ι T) : Prop where
  once : (l.pipe.taken ++ l.pipe.queued).Perm l.pipe.accepted
  numbered : l.pipe.accepted.map Entry.number = List.range l.deadlines.length
  ordinary : l.pipe.taken.filter (State.Ordinary l.deadlines) ++ l.pipe.queue =
    l.pipe.accepted.filter (State.Ordinary l.deadlines)
  takes : ∀ l' entry, l.step .look = some l' → l'.pipe.worker = .processing entry → l.Next entry
  counted : l.pipe.submittedCount = l.pipe.count + l.pipe.queued.length + inHand l.pipe
  returned : ∀ entry, l.pipe.worker = .stopped entry →
    l.pipe.shutdownFlag = true ∧ l.pipe.queue = [] ∧ l.pipe.scheduledQueue = []
  awake : ∀ deadline, l.asleep = some deadline → l.pipe.selects ≠ none →
    ∃ d, deadline = some d ∧ d ≤ l.pipe.now
  drains : ∃ l', ReachesBy step Quiet l l' ∧ l'.Drained

theorem Inv.next (h : l.Inv) {entry : Entry T} (ha : l.look = some l')
    (worker : l'.pipe.worker = .processing entry) : l.Next entry := by
  unfold Loop.look at ha
  split at ha
  · cases ha
  · obtain ⟨pipe, hs, rfl⟩ := Option.map_eq_some_iff.mp ha
    simp only [State.step] at hs
    split at hs
    · next before =>
      obtain rfl := Option.some.inj hs
      have selection := State.selection h.plain.1
      have worker : l.pipe.select.worker = .processing entry := worker
      generalize l.pipe.select = pipe at worker selection
      cases selection with
      | ordinary first queue eq =>
        obtain rfl := Worker.processing.inj worker
        refine ⟨by simp [State.queued, eq], fun deadline kind => ?_⟩
        simp [h.sorted.queue first (by simp [eq])] at kind
      | scheduled earliest first rest eq scheduled due =>
        obtain rfl := Worker.processing.inj worker
        refine ⟨by simp [State.queued, eq, scheduled], fun deadline kind => ?_⟩
        have own := h.sorted.scheduledQueue (earliest, first) (by simp [scheduled])
        obtain rfl : earliest = deadline := by simpa [own] using kind
        refine ⟨due, eq, fun other hother => ?_⟩
        rw [State.queued, eq, List.nil_append, scheduled] at hother
        obtain ⟨⟨later, _⟩, hx, rfl⟩ := List.mem_map.mp hother
        refine ⟨later, h.sorted.scheduledQueue _ (scheduled ▸ hx), ?_⟩
        rcases List.mem_cons.mp hx with same | hx
        · cases same
          exact .inr ⟨rfl, le_rfl⟩
        · have sorted := List.pairwise_cons.mp (scheduled ▸ h.sorted.earliest)
          exact (sorted.1 _ hx).imp_right fun tie => ⟨tie.1, tie.2.le⟩
      | early | idle => simp [before] at worker
      | ends => cases worker
    · cases hs

omit [DecidableEq ι] in
theorem Inv.counted (h : l.Inv) :
    l.pipe.submittedCount = l.pipe.count + l.pipe.queued.length + inHand l.pipe := by
  have placed := h.accounted.placed.length_eq
  have counted := h.accounted.counted
  have numbered := congrArg List.length h.accounted.numbered
  have plain := h.plain.2
  simp only [List.length_append, List.length_map, List.length_range] at placed numbered
  unfold inHand
  cases worker : l.pipe.worker with
  | failing => simp [worker] at plain
  | stopped entry =>
    cases entry with
    | none =>
      simp [worker, State.hand] at placed counted ⊢
      omega
    | some => simp [worker] at plain
  | selecting | processing | counting =>
    simp [worker, State.hand] at placed counted ⊢
    omega

/-- In every run in which the callbacks return. -/
theorem exact_of_reaches (run : Reaches step ({} : Loop ι T) l) : l.Exact := by
  have h := inv_of_reaches run
  exact
    { once := h.accounted.placed
      numbered := by rw [h.accounted.numbered, h.sorted.known]
      ordinary := h.sorted.inOrder
      takes := fun l' entry ha worker => h.next ha worker
      counted := h.counted
      returned := fun entry stopped => by
        obtain ⟨flag, empty⟩ := h.stopped entry stopped
        obtain ⟨queue, scheduled⟩ := List.append_eq_nil_iff.mp empty
        exact ⟨flag, queue, List.map_eq_nil_iff.mp scheduled⟩
      awake := h.awake
      drains := h.drains }

/-- Two items for the same time, the worker asleep for it, an ordinary item, and shutdown. -/
def mixed : List (Event (Fin 1) Nat) :=
  [.look, .writeAt 10 1, .writeAt 10 2, .look, .write 3, .look, .callback, .account, .look, .shutdown,
    .tick 12, .notifyAll, .look, .callback, .account, .look, .callback, .account, .look]

theorem exact_mixed :
    ∃ l : Loop (Fin 1) Nat, (l.pipe.processed.map Entry.item = [3, 1, 2] ∧
      l.pipe.worker = .stopped none) ∧ l.Exact := by
  have reached : ∃ l : Loop (Fin 1) Nat, Reaches step {} l ∧
      l.pipe.processed.map Entry.item = [3, 1, 2] ∧ l.pipe.worker = .stopped none :=
    ReachesBy.exists_of_any mixed (by decide)
  obtain ⟨l, run, state⟩ := reached
  exact ⟨l, state, exact_of_reaches run⟩

end Loop
end Dmn.Pipe
