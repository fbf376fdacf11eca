import Dmn.Engine.Deferred

/-!
# Monitors that have ended

The terminal event of a monitor and the result of its start are posted by two
threads. An event that is handled before the result is not remembered.
-/

namespace Dmn.Engine

open Dmn.Lib

def Worker.Faithful (b : Backend) : Worker → Prop
  | .start device false (some monitor) => b.keyOf monitor = some (identityKey device)
  | _ => True

/-- What a job says of a monitor is so. -/
def Job.Faithful (b : Backend) : Job → Prop
  | .startDone device monitor result =>
    b.keyOf monitor = some (identityKey device) ∧ (result = .ok → monitor ∈ b.succeeded)
  | .monitorEvent device monitor _ => b.keyOf monitor = some (identityKey device)
  | _ => True

/-- The job says that a monitor has ended. -/
def Job.ends (monitor : Nat) : Job → Bool
  | .monitorEvent _ other terminal => terminal && other == monitor
  | _ => false

def Job.isEnd : Job → Bool
  | .monitorEvent _ _ terminal => terminal
  | _ => false

/-- What is known of the monitors stays known. -/
structure Backend.Extends (b b' : Backend) : Prop where
  keyOf : ∀ monitor key, b.keyOf monitor = some key → b'.keyOf monitor = some key
  succeeded : ∀ monitor ∈ b.succeeded, monitor ∈ b'.succeeded

theorem Backend.Extends.of_eq {b b' : Backend} (hmonitors : b'.monitors = b.monitors)
    (hsucceeded : b'.succeeded = b.succeeded) :
    b.Extends b' :=
  ⟨fun monitor key h => by rwa [Backend.keyOf, hmonitors], fun monitor h => by rwa [hsucceeded]⟩

theorem Worker.Faithful.mono {b b' : Backend} {worker : Worker} (h : worker.Faithful b)
    (hextends : b.Extends b') :
    worker.Faithful b' := by
  cases worker with
  | start device direct monitor =>
    cases direct with
    | true => trivial
    | false =>
      cases monitor with
      | none => trivial
      | some monitor => exact hextends.keyOf monitor _ h
  | _ => trivial

theorem Job.Faithful.mono {b b' : Backend} {job : Job} (h : job.Faithful b) (hextends : b.Extends b') :
    job.Faithful b' := by
  cases job with
  | startDone device monitor result =>
    exact ⟨hextends.keyOf monitor _ h.1, fun hok => hextends.succeeded monitor (h.2 hok)⟩
  | monitorEvent device monitor terminal => exact hextends.keyOf monitor _ h
  | _ => trivial

theorem Worker.faithful_of_other {worker : Worker} (hop : worker.op = .other) (b : Backend) :
    worker.Faithful b := by
  cases worker with
  | start device direct monitor =>
    cases direct with
    | true => trivial
    | false => cases hop
  | _ => trivial

namespace Impl

variable {e e' e'' : Impl} {monitor : Nat}

/-- A monitor of a device was started with success, and what it has sent since is still to be handled. -/
def Vouched (e : Impl) (key : Key) : Prop :=
  ∃ monitor, e.backend.keyOf monitor = some key ∧ monitor ∈ e.backend.succeeded ∧
    (monitor ∈ e.backend.ended → ∃ job ∈ e.queue, Job.ends monitor job)

structure Truthful (e : Impl) : Prop where
  jobs : ∀ job ∈ e.queue, Job.Faithful e.backend job
  workers : ∀ worker ∈ e.workers, Worker.Faithful e.backend worker
  active : ∀ key, (e.sessions key).phase = .active → e.Vouched key

/-- The next job makes a session active whose monitor is known to have ended. -/
def outrun (e : Impl) : Bool :=
  match e.batch with
  | .startDone _ monitor .ok :: batch =>
    e.backend.ended.contains monitor && !(batch ++ e.inbox).any (Job.ends monitor)
  | _ => false

/-- No terminal event is handled before its start is finished, or dropped by a shutdown. -/
def InTime (e : Impl) : Action → Prop
  | .control _ _ _ => e.pc = .runs →
    if e.shutdownRequested then ∀ job ∈ e.batch, Job.isEnd job = false else e.outrun = false
  | _ => True

instance (e : Impl) (action : Action) : Decidable (e.InTime action) :=
  match action with
  | .control _ _ _ => inferInstanceAs (Decidable (_ → ite _ _ _))
  | .send _ | .inventoryChanged | .event _ _ | .worker _ _ => isTrue trivial

-- ---------------------------------------------------------------------------
-- Handlers that make no session active
-- ---------------------------------------------------------------------------

structure Subdued (e e' : Impl) : Prop where
  thread : e.Thread e'
  monitors : e'.backend.monitors = e.backend.monitors
  succeeded : e'.backend.succeeded = e.backend.succeeded
  ended : e'.backend.ended = e.backend.ended
  phase : ∀ key, (e'.sessions key).phase = .active → (e.sessions key).phase = .active
  workers : ∀ worker ∈ e'.workers, worker ∈ e.workers ∨ ∀ b, Worker.Faithful b worker

theorem Subdued.trans (h : e.Subdued e') (h' : e'.Subdued e'') : e.Subdued e'' where
  thread := h.thread.trans h'.thread
  monitors := h'.monitors.trans h.monitors
  succeeded := h'.succeeded.trans h.succeeded
  ended := h'.ended.trans h.ended
  phase key hactive := h.phase key (h'.phase key hactive)
  workers worker hworker := (h'.workers worker hworker).elim (h.workers worker) .inr

theorem Calm.subdued (h : e.Calm e') : e.Subdued e' where
  thread := h.thread
  monitors := by rw [h.backend]
  succeeded := by rw [h.backend]
  ended := by rw [h.backend]
  phase key hactive := (h.phase key).symm.trans hactive
  workers worker hworker := by
    obtain ⟨new, hworkers, hnew⟩ := h.workers
    rw [hworkers] at hworker
    exact (List.mem_append.mp hworker).imp_right fun hmem => Worker.faithful_of_other (hnew worker hmem).1

theorem subdued_spawn (e : Impl) {worker : Worker} (hworker : ∀ b, worker.Faithful b) :
    e.Subdued (e.spawn worker) where
  thread := ⟨rfl, rfl, rfl⟩
  monitors := rfl
  succeeded := rfl
  ended := rfl
  phase _ := id
  workers other hmem := by
    refine (List.mem_append.mp hmem).imp_right fun hnew => ?_
    rw [List.mem_singleton.mp hnew]
    exact hworker

theorem subdued_setSession (e : Impl) (device : Identity) {session : Session}
    (hphase : session.phase = .active → (e.sessionFor device).phase = .active) :
    e.Subdued (e.setSession device session) where
  thread := ⟨rfl, rfl, rfl⟩
  monitors := rfl
  succeeded := rfl
  ended := rfl
  phase key hactive := by
    rw [sessions_setSession] at hactive
    split at hactive
    · rename_i hkey
      rw [hkey]
      exact hphase hactive
    · exact hactive
  workers _ := .inl

theorem subdued_setPhase (e : Impl) (device : Identity) {phase : Phase} (hphase : phase ≠ .active) :
    e.Subdued (e.setPhase device phase) := subdued_setSession e device fun hactive => absurd hactive hphase

theorem subdued_runDisconnect (e : Impl) (device : Identity) (stopFirst : Bool) :
    e.Subdued (e.runDisconnect device stopFirst) := by
  unfold runDisconnect
  split
  · exact (Calm.refl e).subdued
  · refine .trans ?_ (subdued_spawn _ fun _ => trivial)
    cases stopFirst with
    | false => exact ⟨⟨rfl, rfl, rfl⟩, rfl, rfl, rfl, fun _ => id, fun _ => .inl⟩
    | true =>
      refine .trans ?_ (subdued_setPhase _ device (by decide))
      exact ⟨⟨rfl, rfl, rfl⟩, rfl, rfl, rfl, fun _ => id, fun _ => .inl⟩

theorem subdued_resumeDisconnect (e : Impl) (device : Identity) : e.Subdued (e.resumeDisconnect device) := by
  unfold resumeDisconnect
  dsimp only
  split
  · exact (Calm.refl e).subdued
  · refine .trans ?_ (subdued_runDisconnect _ device _)
    exact subdued_setSession e device id

theorem subdued_acceptDisconnect (e : Impl) (device : Identity) : e.Subdued (e.acceptDisconnect device) := by
  have howed : e.Subdued (Impl.resetRetries
      { e with
        intents := e.intents.filter fun item => !sameIdentity item device
        backend := { e.backend with owed := identityKey device :: e.backend.owed } } device) :=
    ⟨⟨rfl, rfl, rfl⟩, rfl, rfl, rfl, fun _ => id, fun _ => .inl⟩
  unfold acceptDisconnect
  dsimp only
  refine howed.trans ?_
  split
  · exact subdued_setSession _ device id
  · exact subdued_setSession _ device id
  · exact subdued_runDisconnect _ device true
  · exact subdued_runDisconnect _ device false

theorem subdued_handleCommand (e : Impl) (command : Command) : e.Subdued (e.handleCommand command) := by
  cases command with
  | connect device =>
    show e.Subdued (e.handleConnect device)
    unfold handleConnect
    split
    · exact (Calm.refl e).subdued
    · split
      · exact (Calm.refl e).subdued
      · split
        · refine .trans ?_ (subdued_spawn _ fun _ => trivial)
          exact ⟨⟨rfl, rfl, rfl⟩, rfl, rfl, rfl, fun _ => id, fun _ => .inl⟩
        · exact (Calm.refl e).subdued
  | disconnect device =>
    show e.Subdued (e.handleDisconnect device)
    unfold handleDisconnect
    split
    · exact (Calm.refl e).subdued
    · split
      · exact (calm_spawn e ⟨rfl, rfl⟩).subdued
      · split
        · exact (Calm.refl e).subdued
        · split
          · exact subdued_acceptDisconnect e _
          · exact (Calm.refl e).subdued
  | _ => exact (calm_handleCommand e (fun _ heq => by cases heq) fun _ heq => by cases heq).subdued

theorem subdued_execute (e : Impl) (command : MonitorCommand) : e.Subdued (e.execute command) := by
  unfold execute
  split
  · refine .trans (subdued_setSession e _ ?_) (subdued_spawn _ fun _ => trivial)
    exact fun hactive => by cases hactive
  · exact (subdued_setPhase e _ (by decide)).trans (subdued_spawn _ fun _ => trivial)

theorem subdued_reconcile (e : Impl) (now : Nat) : e.Subdued (e.reconcile now) := by
  have hfold (commands : List MonitorCommand) : ∀ e : Impl, e.Subdued (commands.foldl execute e) := by
    induction commands with
    | nil => exact fun e => (Calm.refl e).subdued
    | cons command commands ih => exact fun e => (subdued_execute e command).trans (ih _)
  refine .trans ?_ (hfold _ _)
  exact ⟨⟨rfl, rfl, rfl⟩, rfl, rfl, rfl, fun _ => id, fun _ => .inl⟩

theorem Subdued.vouched (h : e.Subdued e') {key : Key} (hvouched : e.Vouched key) : e'.Vouched key := by
  obtain ⟨monitor, hkey, hsucceeded, hended⟩ := hvouched
  refine ⟨monitor, by rwa [Backend.keyOf, h.monitors], by rwa [h.succeeded], fun hmem => ?_⟩
  rw [queue, h.thread.batch, h.thread.inbox]
  exact hended (h.ended ▸ hmem)

theorem Subdued.truthful (h : e.Subdued e') (htruthful : e.Truthful) : e'.Truthful where
  jobs job hjob := by
    rw [queue, h.thread.batch, h.thread.inbox] at hjob
    exact (htruthful.jobs job hjob).mono (.of_eq h.monitors h.succeeded)
  workers worker hworker := by
    obtain hold | hnew := h.workers worker hworker
    · exact (htruthful.workers worker hold).mono (.of_eq h.monitors h.succeeded)
    · exact hnew _
  active key hactive := h.vouched (htruthful.active key (h.phase key hactive))

-- ---------------------------------------------------------------------------
-- Steps
-- ---------------------------------------------------------------------------

theorem keyOf_append {b : Backend} {key : Key} (m : Monitor) (h : b.keyOf monitor = some key) :
    Backend.keyOf { b with monitors := b.monitors ++ [m] } monitor = some key := by
  unfold Backend.keyOf at h ⊢
  obtain ⟨old, hold, hkey⟩ := Option.map_eq_some_iff.mp h
  rw [List.getElem?_append_left (List.getElem?_eq_some_iff.mp hold).1, hold, Option.map_some, hkey]

theorem keyOf_length (b : Backend) (m : Monitor) :
    Backend.keyOf { b with monitors := b.monitors ++ [m] } b.monitors.length = some (identityKey m.device) := by
  rw [Backend.keyOf, List.getElem?_append_right (Nat.le_refl _), Nat.sub_self]
  rfl

theorem extends_started (b : Backend) (monitor : Nat) (result : Result) :
    b.Extends (b.started monitor result) := by
  unfold Backend.started
  split
  · exact ⟨fun _ _ => id, fun _ => List.mem_cons_of_mem _⟩
  · exact .of_eq rfl rfl

theorem extends_advance (b : Backend) (worker : Worker) (reply : Reply) :
    b.Extends (b.advance worker reply).2.2 := by
  cases worker with
  | start device direct monitor =>
    cases monitor with
    | none => exact ⟨fun _ _ => keyOf_append ⟨device, direct⟩, fun _ => id⟩
    | some monitor => exact extends_started b monitor reply.result
  | stop device direct calling => cases calling <;> exact .of_eq rfl rfl
  | disconnect device stopFirst pc => cases pc <;> exact .of_eq rfl rfl
  | snapshot | scan | connect | cancelConnect => exact .of_eq rfl rfl

theorem ended_advance (b : Backend) (worker : Worker) (reply : Reply) :
    (b.advance worker reply).2.2.ended = b.ended := by
  cases worker with
  | start device direct monitor =>
    cases monitor with
    | none => rfl
    | some monitor =>
      show (b.started monitor reply.result).ended = b.ended
      unfold Backend.started
      split <;> rfl
  | stop device direct calling => cases calling <;> rfl
  | disconnect device stopFirst pc => cases pc <;> rfl
  | snapshot | scan | connect | cancelConnect => rfl

theorem faithful_advance {b : Backend} {worker : Worker} (h : worker.Faithful b) (reply : Reply) :
    (∀ next ∈ (b.advance worker reply).1, Worker.Faithful (b.advance worker reply).2.2 next) ∧
      ∀ job ∈ (b.advance worker reply).2.1, Job.Faithful (b.advance worker reply).2.2 job := by
  cases worker with
  | start device direct monitor =>
    cases monitor with
    | none =>
      refine ⟨fun next hnext => ?_, fun job hjob => absurd hjob List.not_mem_nil⟩
      rw [List.mem_singleton.mp hnext]
      cases direct with
      | true => trivial
      | false => exact keyOf_length b ⟨device, false⟩
    | some monitor =>
      refine ⟨fun next hnext => absurd hnext List.not_mem_nil, fun job hjob => ?_⟩
      rw [List.mem_singleton.mp hjob]
      cases direct with
      | true => trivial
      | false =>
        refine ⟨(extends_started b monitor reply.result).keyOf monitor _ h, fun hok => ?_⟩
        show monitor ∈ (b.started monitor reply.result).succeeded
        rw [Backend.started, if_pos hok]
        exact List.mem_cons_self
  | stop device direct calling =>
    cases calling with
    | false =>
      refine ⟨fun next hnext => ?_, fun job hjob => absurd hjob List.not_mem_nil⟩
      rw [List.mem_singleton.mp hnext]
      trivial
    | true =>
      refine ⟨fun next hnext => absurd hnext List.not_mem_nil, fun job hjob => ?_⟩
      rw [List.mem_singleton.mp hjob]
      cases direct <;> trivial
  | disconnect device stopFirst pc =>
    cases pc with
    | stops | stopping | disconnects =>
      refine ⟨fun next hnext => ?_, fun job hjob => absurd hjob List.not_mem_nil⟩
      rw [List.mem_singleton.mp hnext]
      trivial
    | disconnecting =>
      refine ⟨fun next hnext => absurd hnext List.not_mem_nil, fun job hjob => ?_⟩
      rw [List.mem_singleton.mp hjob]
      trivial
  | snapshot | scan | connect =>
    refine ⟨fun next hnext => absurd hnext List.not_mem_nil, fun job hjob => ?_⟩
    rw [List.mem_singleton.mp hjob]
    trivial
  | cancelConnect =>
    exact ⟨fun next hnext => absurd hnext List.not_mem_nil, fun job hjob => absurd hjob List.not_mem_nil⟩

theorem Truthful.runWorker (h : e.Truthful) {index : Nat} {reply : Reply}
    (hs : e.runWorker index reply = some e') :
    e'.Truthful := by
  obtain ⟨left, worker, right, hworkers, rfl⟩ := runWorker_cases hs
  have hextends := extends_advance e.backend worker reply
  obtain ⟨hnext, hposted⟩ := faithful_advance (h.workers worker (by simp [hworkers])) reply
  refine ⟨fun job hjob => ?_, fun other hother => ?_, fun key hactive => ?_⟩
  · rw [queue, ← List.append_assoc, List.mem_append] at hjob
    exact hjob.elim (fun hold => (h.jobs job hold).mono hextends) (hposted job)
  · have hold (hmem : other ∈ e.workers) := (h.workers other hmem).mono hextends
    rw [hworkers] at hold
    rw [List.mem_append, List.mem_append] at hother
    obtain (hleft | hmem) | hright := hother
    · exact hold (List.mem_append_left _ hleft)
    · exact hnext other hmem
    · exact hold (List.mem_append_right _ (List.mem_cons_of_mem _ hright))
  · obtain ⟨monitor, hkey, hsucceeded, hended⟩ := h.active key hactive
    refine ⟨monitor, hextends.keyOf monitor key hkey, hextends.succeeded monitor hsucceeded, fun hmem => ?_⟩
    obtain ⟨job, hjob, hends⟩ := hended (ended_advance e.backend worker reply ▸ hmem)
    refine ⟨job, ?_, hends⟩
    rw [queue, ← List.append_assoc]
    exact List.mem_append_left _ hjob

/-- A job that says nothing of an end is taken out. -/
theorem Truthful.pop (h : e.Truthful) {job : Job} {batch : List Job} (hbatch : e.batch = job :: batch)
    (hends : job.isEnd = false) : Truthful { e with batch } where
  jobs other hother := h.jobs other (by rw [queue, hbatch]; exact List.mem_cons_of_mem _ hother)
  workers := h.workers
  active key hactive := by
    obtain ⟨monitor, hkey, hsucceeded, hended⟩ := h.active key hactive
    refine ⟨monitor, hkey, hsucceeded, fun hmem => ?_⟩
    obtain ⟨other, hother, hother'⟩ := hended hmem
    rw [queue, hbatch] at hother
    obtain rfl | hrest := List.mem_cons.mp hother
    · cases other with
      | monitorEvent device number terminal =>
        obtain rfl : terminal = false := hends
        cases hother'
      | _ => cases hother'
    · exact ⟨other, hrest, hother'⟩

/-- The start of a monitor is finished that has not ended, or whose event is still to be handled. -/
theorem Truthful.startDone (h : e.Truthful) {device : Identity} {batch : List Job}
    (hbatch : e.batch = .startDone device monitor .ok :: batch) (hintime : e.outrun = false)
    (now : Nat) (jitter : Jitter) :
    (Impl.finishStart { e with batch } device .ok now jitter).Truthful := by
  obtain ⟨hkey, hsucceeded⟩ := h.jobs (.startDone device monitor .ok) (by
    rw [queue, hbatch]; exact List.mem_cons_self)
  have hpop := h.pop hbatch rfl
  have hactive : (Impl.setPhase { e with batch } device .active).Truthful := by
    refine ⟨hpop.jobs, hpop.workers, fun key hactive => ?_⟩
    rw [phase_setPhase] at hactive
    split at hactive
    · rename_i hsame
      refine ⟨monitor, hsame ▸ hkey, hsucceeded rfl, fun hended => ?_⟩
      have hended : e.backend.ended.contains monitor = true := List.contains_iff_mem.mpr hended
      rw [outrun, hbatch] at hintime
      simp only [hended, Bool.true_and, Bool.not_eq_false'] at hintime
      exact List.any_eq_true.mp hintime
    · exact hpop.active key hactive
  refine Subdued.truthful ?_ hactive
  refine .trans ?_ (subdued_resumeDisconnect _ device)
  exact ⟨⟨rfl, rfl, rfl⟩, rfl, rfl, rfl, fun _ => id, fun _ => .inl⟩

/-- A session whose monitor has ended is idle when that has been handled. -/
theorem Truthful.handleEnd (h : e.Truthful) {device : Identity} {batch : List Job}
    (hbatch : e.batch = .monitorEvent device monitor true :: batch) (now : Nat) (jitter : Jitter) :
    (Impl.handleMonitorEvent { e with batch } device true now jitter).Truthful := by
  have hkey : e.backend.keyOf monitor = some (identityKey device) :=
    h.jobs (.monitorEvent device monitor true) (by rw [queue, hbatch]; exact List.mem_cons_self)
  have hjobs (job : Job) (hjob : job ∈ batch ++ e.inbox) : job.Faithful e.backend :=
    h.jobs job (by rw [queue, hbatch]; exact List.mem_cons_of_mem _ hjob)
  have hrest {key : Key} (hne : key ≠ identityKey device) (hvouched : e.Vouched key) :
    Vouched { e with batch } key := by
    obtain ⟨other, hother, hsucceeded, hended⟩ := hvouched
    refine ⟨other, hother, hsucceeded, fun hmem => ?_⟩
    obtain ⟨job, hjob, hends⟩ := hended hmem
    rw [queue, hbatch] at hjob
    obtain rfl | hlater := List.mem_cons.mp hjob
    · obtain rfl : monitor = other := by simpa [Job.ends] using hends
      exact absurd (Option.some.inj (hother.symm.trans hkey)) hne
    · exact ⟨job, hlater, hends⟩
  unfold handleMonitorEvent
  split
  · have hidle : (Impl.setPhase { e with batch } device .idle).Truthful := by
      refine ⟨hjobs, h.workers, fun key hactive => ?_⟩
      rw [phase_setPhase] at hactive
      split at hactive
      · cases hactive
      · rename_i hne
        exact hrest hne (h.active key hactive)
    dsimp only
    split
    · exact (calm_recordFailure _ device now jitter).subdued.truthful hidle
    · exact hidle
  · rename_i hinactive
    refine ⟨hjobs, h.workers, fun key hactive => ?_⟩
    refine hrest (fun hsame => hinactive ?_) (h.active key hactive)
    rw [hsame] at hactive
    exact decide_eq_true hactive

theorem subdued_runJob (e : Impl) (now : Nat) (jitter : Jitter) {job : Job} (hend : job.isEnd = false)
    (hstart : ∀ device monitor, job ≠ .startDone device monitor .ok) : e.Subdued (e.runJob now jitter job) := by
  cases job with
  | command command => exact subdued_handleCommand e command
  | inventoryChanged => exact (calm_refreshInventory e).subdued
  | snapshotDone reply =>
    unfold runJob
    dsimp only
    split <;> exact ⟨⟨rfl, rfl, rfl⟩, rfl, rfl, rfl, fun _ => id, fun _ => .inl⟩
  | scanDone | connectDone =>
    refine .trans ?_ (calm_refreshInventory _).subdued
    exact ⟨⟨rfl, rfl, rfl⟩, rfl, rfl, rfl, fun _ => id, fun _ => .inl⟩
  | disconnectDone device stopFirst =>
    refine .trans ?_ (calm_refreshInventory _).subdued
    cases stopFirst with
    | false => exact ⟨⟨rfl, rfl, rfl⟩, rfl, rfl, rfl, fun _ => id, fun _ => .inl⟩
    | true =>
      refine .trans ?_ (subdued_setPhase _ device (by decide))
      exact ⟨⟨rfl, rfl, rfl⟩, rfl, rfl, rfl, fun _ => id, fun _ => .inl⟩
  | startDone device monitor result =>
    cases result with
    | ok => exact absurd rfl (hstart device monitor)
    | error cancelled =>
      refine .trans ?_ (subdued_resumeDisconnect _ device)
      dsimp only
      split
      · exact (subdued_setPhase e device (by decide)).trans (calm_recordFailure _ device now jitter).subdued
      · exact subdued_setPhase e device (by decide)
  | stopDone device => exact (subdued_setPhase e device (by decide)).trans (subdued_resumeDisconnect _ device)
  | monitorEvent device monitor terminal =>
    obtain rfl : terminal = false := hend
    exact (Calm.refl e).subdued
  | directStartDone result => exact (calm_finishDirectStart e result).subdued
  | directStopDone => exact ⟨⟨rfl, rfl, rfl⟩, rfl, rfl, rfl, fun _ => id, fun _ => .inl⟩

theorem Truthful.runJob (h : e.Truthful) {job : Job} {batch : List Job} (hbatch : e.batch = job :: batch)
    (hintime : e.outrun = false) (now : Nat) (jitter : Jitter) :
    (runJob { e with batch } now jitter job).Truthful := by
  by_cases hstart : ∃ device monitor, job = .startDone device monitor .ok
  · obtain ⟨device, monitor, rfl⟩ := hstart
    exact h.startDone hbatch hintime now jitter
  · cases hend : job.isEnd with
    | true =>
      cases job with
      | monitorEvent device monitor terminal =>
        obtain rfl : terminal = true := hend
        exact h.handleEnd hbatch now jitter
      | _ => cases hend
    | false =>
      refine (subdued_runJob _ now jitter hend fun device monitor heq => hstart ⟨device, monitor,
        heq⟩).truthful ?_
      exact h.pop hbatch hend

theorem Truthful.shutdown (h : e.Truthful) (hends : ∀ job ∈ e.batch, Job.isEnd job = false) :
    e.beginShutdown.Truthful where
  jobs job hjob := h.jobs job (List.mem_append_right _ hjob)
  workers := h.workers
  active key hactive := by
    obtain ⟨monitor, hkey, hsucceeded, hended⟩ := h.active key hactive
    refine ⟨monitor, hkey, hsucceeded, fun hmem => ?_⟩
    obtain ⟨job, hjob, hjob'⟩ := hended hmem
    obtain hdropped | hkept := List.mem_append.mp hjob
    · cases job with
      | monitorEvent device number terminal =>
        obtain rfl : terminal = false := hends _ hdropped
        cases hjob'
      | _ => cases hjob'
    · exact ⟨job, hkept, hjob'⟩

/-- Nothing is left of a batch where the control thread waits. -/
structure Settled (e : Impl) : Prop where
  truthful : e.Truthful
  waits : e.pc = .waits → e.batch = []

theorem Settled.control (h : e.Settled) {now : Nat} {refresh : Bool} {jitter : Jitter}
    (hok : e.InTime (.control now refresh jitter)) (hs : e.control now refresh jitter = some e') :
    e'.Settled := by
  unfold Impl.control at hs
  split at hs
  · rename_i hwaits
    obtain rfl := Option.some.inj hs
    have hqueue : e.queue = e.inbox := by rw [queue, h.waits hwaits, List.nil_append]
    refine ⟨⟨fun job hjob => ?_, h.truthful.workers, fun key hactive => ?_⟩, by rintro ⟨⟩⟩
    · exact h.truthful.jobs job (by rwa [queue, List.append_nil, ← hqueue] at hjob)
    · obtain ⟨monitor, hkey, hsucceeded, hended⟩ := h.truthful.active key hactive
      refine ⟨monitor, hkey, hsucceeded, fun hmem => ?_⟩
      rw [queue, List.append_nil, ← hqueue]
      exact hended hmem
  · rename_i hruns
    have hok := hok hruns
    split at hs
    · rename_i hrequested
      obtain rfl := Option.some.inj hs
      rw [if_pos hrequested] at hok
      exact ⟨h.truthful.shutdown hok, by rintro ⟨⟩⟩
    · rename_i hrequested
      rw [if_neg hrequested] at hok
      split at hs
      · rename_i job batch hbatch
        obtain rfl := Option.some.inj hs
        refine ⟨h.truthful.runJob hbatch hok now jitter, fun hwaits => ?_⟩
        have hpc : (Impl.runJob { e with batch } now jitter job).pc = .runs :=
          (thread_runJob _ now jitter job).pc.trans hruns
        cases hpc.symm.trans hwaits
      · rename_i hbatch
        obtain rfl := Option.some.inj hs
        have hrefreshed : e.Subdued (if refresh then e.refreshInventory else e) := by
          split
          · exact (calm_refreshInventory e).subdued
          · exact (Calm.refl e).subdued
        have hreconciled := hrefreshed.trans (subdued_reconcile _ now)
        have htruthful := hreconciled.truthful h.truthful
        exact ⟨⟨htruthful.jobs, htruthful.workers, htruthful.active⟩,
          fun _ => hreconciled.thread.batch.trans hbatch⟩
  · split at hs
    · obtain rfl := Option.some.inj hs
      exact ⟨⟨h.truthful.jobs, h.truthful.workers, h.truthful.active⟩, by rintro ⟨⟩⟩
    · cases hs
  · obtain rfl := Option.some.inj hs
    refine ⟨⟨fun job hjob => ?_, fun worker hworker => ?_, h.truthful.active⟩, by rintro ⟨⟩⟩
    · exact (h.truthful.jobs job hjob).mono (.of_eq rfl rfl)
    · exact (h.truthful.workers worker hworker).mono (.of_eq rfl rfl)
  · obtain rfl := Option.some.inj hs
    exact ⟨⟨h.truthful.jobs, h.truthful.workers, h.truthful.active⟩, by rintro ⟨⟩⟩
  · cases hs

theorem Settled.post (h : e.Settled) {job : Job} (hjob : job.Faithful e.backend) : (e.post [job]).Settled where
  truthful := by
    refine ⟨fun other hother => ?_, h.truthful.workers, fun key hactive => ?_⟩
    · rw [queue, Impl.post, ← List.append_assoc, List.mem_append] at hother
      exact hother.elim (h.truthful.jobs other) fun hnew => List.mem_singleton.mp hnew ▸ hjob
    · obtain ⟨monitor, hkey, hsucceeded, hended⟩ := h.truthful.active key hactive
      refine ⟨monitor, hkey, hsucceeded, fun hmem => ?_⟩
      obtain ⟨other, hother, hends⟩ := hended hmem
      refine ⟨other, ?_, hends⟩
      rw [queue, Impl.post, ← List.append_assoc]
      exact List.mem_append_left _ hother
  waits := h.waits

/-- The event that a monitor has ended is posted. -/
theorem Settled.terminated (h : e.Settled) {m : Monitor} (hm : e.backend.monitors[monitor]? = some m) :
    (Impl.post { e with backend := e.backend.terminated monitor }
    [.monitorEvent m.device monitor true]).Settled where
  truthful := by
    have hkey : e.backend.keyOf monitor = some (identityKey m.device) := by rw [Backend.keyOf, hm]; rfl
    refine ⟨fun job hjob => ?_, fun worker hworker => ?_, fun key hactive => ?_⟩
    · rw [queue, Impl.post, ← List.append_assoc, List.mem_append] at hjob
      obtain hold | hnew := hjob
      · exact (h.truthful.jobs job hold).mono (.of_eq rfl rfl)
      · rw [List.mem_singleton.mp hnew]
        exact hkey
    · exact (h.truthful.workers worker hworker).mono (.of_eq rfl rfl)
    · obtain ⟨other, hother, hsucceeded, hended⟩ := h.truthful.active key hactive
      refine ⟨other, hother, hsucceeded, fun hmem => ?_⟩
      rw [queue, Impl.post, ← List.append_assoc]
      obtain rfl | hold := List.mem_cons.mp hmem
      · exact ⟨_, List.mem_append_right _ (List.mem_singleton_self _), by simp [Job.ends]⟩
      · obtain ⟨job, hjob, hends⟩ := hended hold
        exact ⟨job, List.mem_append_left _ hjob, hends⟩
  waits := h.waits

theorem Settled.step {action : Action} (h : e.Settled) (hok : e.InTime action) (hs : e.step action = some e') :
    e'.Settled := by
  cases action with
  | send command =>
    simp only [Impl.step] at hs
    split at hs
    · cases hs
    · obtain rfl := Option.some.inj hs
      exact h.post trivial
  | inventoryChanged =>
    obtain rfl := Option.some.inj hs
    exact h.post trivial
  | event monitor terminal =>
    simp only [Impl.step] at hs
    split at hs
    · cases hs
    · rename_i m hm
      obtain rfl := Option.some.inj hs
      cases terminal with
      | false =>
        have hfaithful : Job.Faithful e.backend (.monitorEvent m.device monitor false) := by
          show e.backend.keyOf monitor = some (identityKey m.device)
          rw [Backend.keyOf, hm]
          rfl
        exact h.post hfaithful
      | true => exact h.terminated hm
  | worker index reply =>
    refine ⟨h.truthful.runWorker hs, ?_⟩
    obtain ⟨left, worker, right, -, rfl⟩ := runWorker_cases hs
    exact h.waits
  | control now refresh jitter => exact h.control hok hs

theorem settled_new (inventoryEnabled : Bool) : (new inventoryEnabled).Settled where
  truthful := by
    refine (calm_refreshInventory { inventoryEnabled }).subdued.truthful ?_
    exact ⟨fun job hjob => absurd hjob List.not_mem_nil, fun worker hworker => absurd hworker List.not_mem_nil,
      fun key hactive => by cases hactive⟩
  waits _ := (calm_refreshInventory { inventoryEnabled }).batch

theorem settled_of_reaches {inventoryEnabled : Bool} (h : ReachesBy step InTime (new inventoryEnabled) e) :
    e.Settled :=
  h.invariant (settled_new _) Settled.step

theorem control_next {job : Job} {batch : List Job} (hruns : e.pc = .runs)
    (hrequested : e.shutdownRequested = false)
    (hbatch : e.batch = job :: batch) (now : Nat) (refresh : Bool) (jitter : Jitter) :
    e.control now refresh jitter = some (runJob { e with batch } now jitter job) := by
  unfold Impl.control
  split
  · rename_i hpc
    cases hpc.symm.trans hruns
  · rw [if_neg (ne_true_of_eq_false hrequested)]
    split
    · rename_i hbatch'
      obtain ⟨rfl, rfl⟩ := List.cons.inj (hbatch.symm.trans hbatch')
      rfl
    · rename_i hbatch'
      cases hbatch.symm.trans hbatch'
  all_goals
    rename_i hpc
    cases hpc.symm.trans hruns

/-- A session that was active is idle when its terminal event has been handled,
and the next attempt of an intended monitor is put off by a minute at most. -/
theorem control_end {device : Identity} {batch : List Job} {now : Nat} {refresh : Bool} {jitter : Jitter}
    (hruns : e.pc = .runs) (hrequested : e.shutdownRequested = false)
    (hbatch : e.batch = .monitorEvent device monitor true :: batch)
    (hactive : (e.sessionFor device).phase = .active)
    (hs : e.control now refresh jitter = some e') :
    (e'.sessionFor device).phase = .idle ∧
      (contains e.intents device → (e'.controller.stateOf device).nextAttempt ≤ now + kMaximumRetryDelay) := by
  obtain rfl := Option.some.inj ((control_next hruns hrequested hbatch now refresh jitter).symm.trans hs)
  have hidle : ((Impl.setPhase { e with batch } device .idle).sessionFor device).phase = .idle := by
    rw [sessionFor, phase_setPhase, if_pos rfl]
  have hactive : ((true : Bool) && decide ((Impl.sessionFor { e with batch } device).phase = .active)) = true :=
    decide_eq_true hactive
  unfold runJob handleMonitorEvent
  dsimp only
  rw [if_pos hactive]
  split
  · refine ⟨hidle, fun _ => ?_⟩
    unfold recordFailure
    dsimp only
    split
    · rename_i hrecorded
      exact MonitorController.nextAttempt_le hrecorded jitter.maximum
    · rename_i hthrows
      -- the jitter is in its range
      rw [MonitorController.recordStartFailure, if_neg] at hthrows
      · cases hthrows
      · rintro (hlow | hhigh)
        · exact absurd jitter.minimum (Nat.not_le.mpr hlow)
        · exact absurd jitter.maximum (Nat.not_le.mpr hhigh)
  · rename_i hintended
    exact ⟨hidle, fun hcontains => absurd hcontains hintended⟩

/-- Nothing is missing for the monitor of a device, and it is not at work. -/
structure Wants (e : Impl) (entry : DeviceEntry) : Prop where
  listed : entry ∈ e.selection.devices
  saved : contains e.selection.savedSelection entry.identity
  intended : contains e.intents entry.identity
  present : entry.present
  paired : entry.paired = some true
  connected : entry.connected = some true
  idle : (e.sessionFor entry.identity).phase = .idle

theorem mem_workers_execute {worker : Worker} {command : MonitorCommand} (h : worker ∈ e.workers) :
    worker ∈ (e.execute command).workers := by
  unfold execute
  split <;> exact List.mem_append_left _ h

theorem mem_workers_foldl {commands : List MonitorCommand} {worker : Worker} (h : worker ∈ e.workers) :
    worker ∈ (commands.foldl execute e).workers := by
  induction commands generalizing e with
  | nil => exact h
  | cons command commands ih => exact ih (mem_workers_execute h)

theorem start_mem_foldl {commands : List MonitorCommand} {device : Identity}
    (h : ⟨device, .start⟩ ∈ commands) : .start device false none ∈ (commands.foldl execute e).workers := by
  induction commands generalizing e with
  | nil => cases h
  | cons command commands ih =>
    rcases List.mem_cons.mp h with rfl | h
    · have hstarted : .start device false none ∈ (e.execute ⟨device, .start⟩).workers :=
        List.mem_append_right _ (List.mem_singleton.mpr rfl)
      exact mem_workers_foldl (e := e.execute ⟨device, .start⟩) hstarted
    · exact ih h

/-- A monitor that is wanted is started once its next attempt is due. -/
theorem Wants.start (h : e.Wants entry) (hopen : e.shuttingDown = false) {now : Nat}
    (hdue : (e.controller.stateOf entry.identity).nextAttempt ≤ now) :
    .start entry.identity false none ∈ (e.reconcile now).workers := by
  have hcommand : ⟨entry.identity, .start⟩ ∈ (e.monitorCommands now).2 := by
    unfold monitorCommands
    rw [hopen]
    have hmem : e.deviceState entry ∈ _ := List.mem_map_of_mem h.listed
    refine MonitorController.start_of_due hmem ?_ ?_ ?_ hdue
    · simp [deviceState, h.idle]
    · simp [MonitorController.lapsed, deviceState, h.saved, h.intended, h.present, h.paired, h.connected]
    · simp [deviceState, h.idle]
  exact start_mem_foldl hcommand

theorem Wants.refreshInventory (h : e.Wants entry) : (e.refreshInventory).Wants entry := by
  unfold Impl.refreshInventory
  split
  · exact h
  · exact ⟨h.listed, h.saved, h.intended, h.present, h.paired, h.connected, h.idle⟩

/-- The round that ends a batch starts it. -/
theorem Wants.control (h : e.Wants entry) (hopen : e.shuttingDown = false) {now : Nat} {refresh : Bool}
    {jitter : Jitter}
    (hdue : (e.controller.stateOf entry.identity).nextAttempt ≤ now) (hruns : e.pc = .runs)
    (hrequested : e.shutdownRequested = false) (hbatch : e.batch = [])
    (hs : e.control now refresh jitter = some e') :
    .start entry.identity false none ∈ e'.workers := by
  have hrefreshed : (e.refreshInventory).controller = e.controller ∧ (e.refreshInventory).shuttingDown =
    e.shuttingDown := by
    unfold Impl.refreshInventory
    split <;> exact ⟨rfl, rfl⟩
  unfold Impl.control at hs
  rw [hruns] at hs
  dsimp only at hs
  rw [if_neg (ne_true_of_eq_false hrequested), hbatch] at hs
  obtain rfl := Option.some.inj hs
  cases refresh with
  | false => exact h.start hopen hdue
  | true => exact h.refreshInventory.start (hrefreshed.2.trans hopen) (by rwa [hrefreshed.1])

/-- The monitor of the first device is called for. -/
def startCalled : List Action := configured [phone] ++ [.worker 0 {}]

/-- Its start is finished. -/
def monitored : List Action := startCalled ++ [.worker 0 {}, goesOn, goesOn, goesOn]

/-- The monitor ends, and its event is handled, before its start is finished. -/
def endedEarly : List Action :=
  startCalled ++ [.event 0 true, goesOn, goesOn, goesOn, .worker 0 {}, goesOn, goesOn, goesOn]

end Impl
end Dmn.Engine
