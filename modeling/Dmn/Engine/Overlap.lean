import Dmn.Engine.Devices

/-!
# Calls that do not overlap

The phase of a session says what is pending for its device. A monitor that
lives belongs to a session that is not idle, and will not be when the jobs that
wait have been run.
-/

namespace Dmn.Engine

open Dmn.Lib

def Op.starts (key : Key) (op : Op) : Bool := op = .start key

def Op.stops (key : Key) (op : Op) : Bool := op = .stop key ∨ op = .disconnect key true

/-- The monitor is one of a session. -/
def Backend.runs (b : Backend) (monitor : Nat) (key : Key) : Bool :=
  b.monitors[monitor]?.any fun m => !m.direct && identityKey m.device == key

def Backend.Lives (b : Backend) (key : Key) : Prop := ∃ monitor ∈ b.live, b.runs monitor key

instance (b : Backend) (key : Key) : Decidable (b.Lives key) := inferInstanceAs
    (Decidable (∃ monitor ∈ b.live, _))

/-- A worker knows its monitor, and disconnects at once what is not to be stopped first. -/
def Worker.Apt (b : Backend) : Worker → Prop
  | .start device direct (some monitor) => b.monitors[monitor]? = some ⟨device, direct⟩
  | .disconnect _ false pc => pc = .disconnects ∨ pc = .disconnecting
  | _ => True

/-- The worker is in a call that starts or stops the monitor of a device. -/
def Worker.calls (key : Key) : Worker → Bool
  | .start device _ (some _) | .stop device _ true | .disconnect device _ .stopping => identityKey device = key
  | _ => false

/-- The phase of a session after a job. Terminal events may be left out. -/
def settle (heeds : Bool) (key : Key) (phase : Phase) : Job → Phase
  | .startDone device _ result =>
    if identityKey device = key then if result = .ok then .active else .idle else phase
  | .stopDone device | .disconnectDone device true => if identityKey device = key then .idle else phase
  | .monitorEvent device _ terminal =>
    if heeds && terminal && identityKey device = key && phase = .active then .idle else phase
  | _ => phase

/-- A session that is idle gets active by a start only. -/
theorem settle_idle {heeds : Bool} {key : Key} {jobs : List Job}
    (h : (jobs.map Job.op).countP (Op.starts key) = 0) :
    jobs.foldl (settle heeds key) .idle = .idle := by
  induction jobs with
  | nil => rfl
  | cons job jobs ih =>
    rw [List.map_cons, List.countP_cons, Nat.add_eq_zero_iff] at h
    have hsame : settle heeds key .idle job = .idle := by
      cases job with
      | startDone device monitor result =>
        have hne : identityKey device ≠ key := by simpa [Op.starts, Job.op] using h.2
        exact if_neg hne
      | disconnectDone device stopFirst => cases stopFirst <;> simp [settle]
      | _ => simp [settle]
    rw [List.foldl_cons, hsame]
    exact ih h.1

/-- A session that is being stopped stays so until that is done. -/
theorem settle_stopping {heeds : Bool} {key : Key} {jobs : List Job}
    (hstarts : (jobs.map Job.op).countP (Op.starts key) = 0)
    (hstops : (jobs.map Job.op).countP (Op.stops key) = 0) :
    jobs.foldl (settle heeds key) .stopping = .stopping := by
  induction jobs with
  | nil => rfl
  | cons job jobs ih =>
    rw [List.map_cons, List.countP_cons, Nat.add_eq_zero_iff] at hstarts hstops
    have hsame : settle heeds key .stopping job = .stopping := by
      cases job with
      | startDone device monitor result =>
        have hne : identityKey device ≠ key := by simpa [Op.starts, Job.op] using hstarts.2
        exact if_neg hne
      | stopDone device =>
        have hne : identityKey device ≠ key := by simpa [Op.stops, Job.op] using hstops.2
        exact if_neg hne
      | disconnectDone device stopFirst =>
        cases stopFirst with
        | false => rfl
        | true =>
          have hne : identityKey device ≠ key := by simpa [Op.stops, Job.op] using hstops.2
          exact if_neg hne
      | _ => simp [settle]
    rw [List.foldl_cons, hsame]
    exact ih hstarts.1 hstops.1

namespace Impl

variable {e e' : Impl} {debt : Op} {heeds apart : Bool}

-- ---------------------------------------------------------------------------
-- Phases
-- ---------------------------------------------------------------------------

/-- A session starts while a start is pending, and stops while a stop is. -/
structure Phased (debt : Op) (e : Impl) : Prop where
  starts : ∀ key, e.total debt (Op.starts key) = if (e.sessions key).phase = .starting then 1 else 0
  stops : ∀ key, e.total debt (Op.stops key) = if (e.sessions key).phase = .stopping then 1 else 0

theorem Phased.frame (h : Phased debt e) (hpending : ∀ p, p .other = false → e'.pending p = e.pending p)
    (hphase : ∀ key, (e'.sessions key).phase = (e.sessions key).phase) : Phased debt e' where
  starts key := by
    rw [total, hpending _ rfl, hphase]
    exact h.starts key
  stops key := by
    rw [total, hpending _ rfl, hphase]
    exact h.stops key

theorem Calm.phased (h : e.Calm e') (hphased : Phased .other e) : Phased .other e' :=
  hphased.frame (fun _ => h.pending) h.phase

theorem Phased.pop (h : Phased .other e) {job : Job} {batch : List Job} (hbatch : e.batch = job :: batch) :
    Phased job.op { e with batch } where
  starts key := by
    have hold := h.starts key
    rw [total_other rfl] at hold
    rw [total_pop hbatch]
    exact hold
  stops key := by
    have hold := h.stops key
    rw [total_other rfl] at hold
    rw [total_pop hbatch]
    exact hold

/-- An operation that is neither a start nor a stop is over. -/
theorem Phased.clear (h : Phased debt e) (hstarts : ∀ key, Op.starts key debt = false)
    (hstops : ∀ key, Op.stops key debt = false) : Phased .other e where
  starts key := by
    have hold := h.starts key
    rw [total, List.countP_singleton, hstarts] at hold
    rw [total_other rfl]
    exact hold
  stops key := by
    have hold := h.stops key
    rw [total, List.countP_singleton, hstops] at hold
    rw [total_other rfl]
    exact hold

/-- The start or the stop of a device is over, and nothing else of it is pending. -/
theorem Phased.over (h : Phased debt e) {key : Key}
    (hdebt : debt = .start key ∨ debt = .stop key ∨ debt = .disconnect key true) :
    e.pending (Op.starts key) = 0 ∧ e.pending (Op.stops key) = 0 := by
  have hstarts := h.starts key
  have hstops := h.stops key
  rw [total, List.countP_singleton] at hstarts hstops
  obtain rfl | rfl | rfl := hdebt <;> cases hphase : (e.sessions key).phase <;>
    simp [hphase, Op.starts, Op.stops] at hstarts hstops <;> exact ⟨by simpa [Op.starts] using hstarts, by
      simpa [Op.stops] using hstops⟩

theorem Phased.settles (h : Phased debt e) {device : Identity} {phase : Phase}
    (hdebt : debt = .start (identityKey device) ∨ debt = .stop (identityKey device) ∨ debt =
    .disconnect (identityKey device) true)
    (hphase : phase = .idle ∨ phase = .active) : Phased .other (e.setPhase device phase) := by
  obtain ⟨hstarts, hstops⟩ := h.over hdebt
  refine ⟨fun key => ?_, fun key => ?_⟩
  · rw [total_other rfl, phase_setPhase]
    by_cases hkey : key = identityKey device
    · rw [if_pos hkey, hkey, if_neg (by rintro rfl; obtain heq | heq := hphase <;> cases heq)]
      exact hstarts
    · have hold := h.starts key
      rw [total, List.countP_singleton, if_neg] at hold
      · rw [if_neg hkey]
        exact hold
      · obtain rfl | rfl | rfl := hdebt <;> simp [Op.starts, Ne.symm hkey]
  · rw [total_other rfl, phase_setPhase]
    by_cases hkey : key = identityKey device
    · rw [if_pos hkey, hkey, if_neg (by rintro rfl; obtain heq | heq := hphase <;> cases heq)]
      exact hstops
    · have hold := h.stops key
      rw [total, List.countP_singleton, if_neg] at hold
      · rw [if_neg hkey]
        exact hold
      · obtain rfl | rfl | rfl := hdebt <;> simp [Op.stops, Ne.symm hkey]

/-- A session that is active, or idle, gets the other of the two phases. -/
theorem Phased.setPhase (h : Phased debt e) {device : Identity} {phase : Phase}
    (hold : (e.sessionFor device).phase = .idle ∨ (e.sessionFor device).phase = .active)
    (hphase : phase = .idle ∨ phase = .active) : Phased debt (e.setPhase device phase) := by
  have hsame (target : Phase) (htarget : target = .starting ∨ target = .stopping) (key : Key) :
      (((e.setPhase device phase).sessions key).phase = target) = ((e.sessions key).phase = target) := by
    rw [phase_setPhase]
    split
    · rename_i hkey
      rw [hkey]
      unfold sessionFor at hold
      rcases hold with hold | hold <;> rcases hphase with rfl | rfl <;> rcases htarget with rfl | rfl <;>
        simp [hold]
    · rfl
  refine ⟨fun key => ?_, fun key => ?_⟩
  · rw [if_congr (iff_of_eq (hsame .starting (.inl rfl) key)) rfl rfl]
    exact h.starts key
  · rw [if_congr (iff_of_eq (hsame .stopping (.inr rfl) key)) rfl rfl]
    exact h.stops key

/-- What is spawned fits the phases that are set for it. -/
theorem Phased.spawns (h : Phased .other e) {worker : Worker} (hpending : ∀ p, e'.pending p = e.pending p)
    (hstarts : ∀ key, (if (e'.sessions key).phase = .starting then 1 else 0) =
      (if (e.sessions key).phase = .starting then 1 else 0) + if Op.starts key worker.op then 1 else 0)
    (hstops : ∀ key, (if (e'.sessions key).phase = .stopping then 1 else 0) =
      (if (e.sessions key).phase = .stopping then 1 else 0) + if Op.stops key worker.op then 1 else 0) :
    Phased .other (e'.spawn worker) where
  starts key := by
    have hold := h.starts key
    rw [total_other rfl] at hold
    rw [total_other rfl, pending_spawn, hpending, hold]
    exact (hstarts key).symm
  stops key := by
    have hold := h.stops key
    rw [total_other rfl] at hold
    rw [total_other rfl, pending_spawn, hpending, hold]
    exact (hstops key).symm

theorem Phased.runDisconnect (h : Phased .other e) (device : Identity) {stopFirst : Bool}
    (hactive : stopFirst = true → (e.sessionFor device).phase = .active) :
    Phased .other (e.runDisconnect device stopFirst) := by
  unfold Impl.runDisconnect
  split
  · exact h
  · dsimp only
    cases stopFirst with
    | false => exact h.spawns (fun _ => rfl) (fun key => rfl) fun key => by simp [Op.stops, Worker.op]
    | true =>
      have hactive : (e.sessions (identityKey device)).phase = .active := hactive rfl
      refine h.spawns (fun _ => rfl) (fun key => ?_) fun key => ?_
      · rw [if_pos rfl, phase_setPhase]
        by_cases hkey : key = identityKey device
        · simp [hkey, hactive, Op.starts, Worker.op]
        · simp [hkey, Op.starts, Worker.op]
      · rw [if_pos rfl, phase_setPhase]
        by_cases hkey : key = identityKey device
        · simp [hkey, hactive, Op.stops, Worker.op]
        · simp [hkey, Ne.symm hkey, Op.stops, Worker.op]

theorem phase_setSession (e : Impl) (device : Identity) {session : Session}
    (hphase : session.phase = (e.sessionFor device).phase) (key : Key) :
    ((e.setSession device session).sessions key).phase = (e.sessions key).phase := by
  rw [sessions_setSession]
  split
  · rename_i hkey
    rw [hkey]
    exact hphase
  · rfl

theorem Phased.setSession (h : Phased debt e) (device : Identity) {session : Session}
    (hphase : session.phase = (e.sessionFor device).phase) : Phased debt (e.setSession device session) :=
  h.frame (fun _ _ => rfl) (phase_setSession e device hphase)

theorem Phased.resumeDisconnect (h : Phased .other e) (device : Identity) : Phased .other
    (e.resumeDisconnect device) := by
  unfold Impl.resumeDisconnect
  dsimp only
  split
  · exact h
  · refine Phased.runDisconnect (h.setSession device ?_) device fun hactive => ?_
    · rfl
    · exact (phase_setSession e device (by rfl) _).trans (of_decide_eq_true hactive)

theorem Phased.acceptDisconnect (h : Phased .other e) (device : Identity) : Phased .other
    (e.acceptDisconnect device) := by
  have hreset : Phased .other (Impl.resetRetries
      { e with
        intents := e.intents.filter fun item => !sameIdentity item device
        backend := { e.backend with owed := identityKey device :: e.backend.owed } } device) :=
    h.frame (fun _ _ => rfl) fun _ => rfl
  unfold Impl.acceptDisconnect
  dsimp only
  split
  · exact hreset.setSession device rfl
  · exact hreset.setSession device rfl
  · rename_i hactive
    exact hreset.runDisconnect device fun _ => hactive
  · exact hreset.runDisconnect device nofun

theorem Phased.handleCommand (h : Phased .other e) (command : Command) : Phased .other
    (e.handleCommand command) := by
  cases command with
  | connect device =>
    show Phased .other (e.handleConnect device)
    unfold handleConnect
    split
    · exact h
    · split
      · exact h
      · split
        · exact h.spawns (fun _ => rfl) (fun key => rfl) fun key => rfl
        · exact h
  | disconnect device =>
    show Phased .other (e.handleDisconnect device)
    unfold handleDisconnect
    split
    · exact h
    · split
      · exact (calm_spawn e ⟨rfl, rfl⟩).phased h
      · split
        · exact h
        · split
          · exact h.acceptDisconnect _
          · exact h
  | _ => exact (calm_handleCommand e (fun _ heq => by cases heq) fun _ heq => by cases heq).phased h

theorem Phased.execute (h : Phased .other e) {command : MonitorCommand}
    (hfits : (e.sessionFor command.identity).phase =
      match command.action with | .start => .idle | .stop => .active) :
    Phased .other (e.execute command) := by
  unfold Impl.execute
  split
  · rename_i haction
    rw [haction] at hfits
    have hidle : (e.sessions (identityKey command.identity)).phase = .idle := hfits
    refine h.spawns (fun _ => rfl) (fun key => ?_) fun key => ?_
    · rw [sessions_setSession]
      by_cases hkey : key = identityKey command.identity
      · simp [hkey, hidle, Op.starts, Worker.op]
      · simp [hkey, Ne.symm hkey, Op.starts, Worker.op]
    · rw [sessions_setSession]
      by_cases hkey : key = identityKey command.identity
      · simp [hkey, hidle, Op.stops, Worker.op]
      · simp [hkey, Op.stops, Worker.op]
  · rename_i haction
    rw [haction] at hfits
    have hactive : (e.sessions (identityKey command.identity)).phase = .active := hfits
    refine h.spawns (fun _ => rfl) (fun key => ?_) fun key => ?_
    · rw [phase_setPhase]
      by_cases hkey : key = identityKey command.identity
      · simp [hkey, hactive, Op.starts, Worker.op]
      · simp [hkey, Op.starts, Worker.op]
    · rw [phase_setPhase]
      by_cases hkey : key = identityKey command.identity
      · simp [hkey, hactive, Op.stops, Worker.op]
      · simp [hkey, Ne.symm hkey, Op.stops, Worker.op]

/-- Nothing of a device is pending whose session is idle or active. -/
theorem Phased.rests (h : Phased .other e) {key : Key}
    (hphase : (e.sessions key).phase = .idle ∨ (e.sessions key).phase = .active) :
    (e.queue.map Job.op).countP (Op.starts key) = 0 ∧ (e.queue.map Job.op).countP (Op.stops key) = 0 := by
  have hstarts := h.starts key
  have hstops := h.stops key
  rw [total_other rfl, pending, if_neg (by obtain heq | heq := hphase <;> simp [heq])] at hstarts hstops
  omega

-- ---------------------------------------------------------------------------
-- Monitors
-- ---------------------------------------------------------------------------

/-- The phase of a session when the jobs that wait have been run. -/
def predicted (heeds : Bool) (e : Impl) (key : Key) : Phase := e.queue.foldl (settle heeds key)
    (e.sessions key).phase

/-- What a worker that has just been spawned is like. -/
structure Begins (b : Backend) (worker : Worker) : Prop where
  apt : worker.Apt b
  unnumbered : worker.numbered = false
  starts : ∀ key, worker.op = .start key → ¬ b.Lives key
  stops : ∀ device pc, worker = .disconnect device true pc → pc = .stops

structure Attended (heeds apart : Bool) (e : Impl) : Prop where
  apt : ∀ worker ∈ e.workers, Worker.Apt e.backend worker
  called : ∀ monitor ∈ e.backend.live, monitor < e.backend.monitors.length
  -- Only the latest monitor of a session lives.
  latest : ∀ monitor ∈ e.backend.live, ∀ key, e.backend.runs monitor key → ∀ other, monitor < other →
    e.backend.runs other key = false
  newest : ∀ device monitor, .start device false (some monitor) ∈ e.workers → ∀ other, monitor < other →
    e.backend.runs other (identityKey device) = false
  lives : ∀ key, e.backend.Lives key → e.predicted heeds key ≠ .idle
  starts : ∀ worker ∈ e.workers, ∀ key, Worker.op worker = .start key → ¬ e.backend.Lives key
  stopped : ∀ device pc, .disconnect device true pc ∈ e.workers → pc = .disconnects ∨ pc = .disconnecting →
    ¬ e.backend.Lives (identityKey device)
  apart : apart = true → ∀ device pc, .disconnect device false pc ∈ e.workers →
    (e.sessionFor device).phase = .idle

/-- What holds between the steps. -/
structure Tended (heeds apart : Bool) (e : Impl) : Prop where
  phased : Phased .other e
  attended : Attended heeds apart e

theorem runs_congr {b b' : Backend} (hmonitors : b'.monitors = b.monitors) (monitor : Nat) (key : Key) :
    b'.runs monitor key = b.runs monitor key := by
  rw [Backend.runs, Backend.runs, hmonitors]

theorem lives_congr {b b' : Backend} (hmonitors : b'.monitors = b.monitors) (hlive : b'.live = b.live)
    (key : Key) :
    b'.Lives key ↔ b.Lives key := by
  rw [Backend.Lives, Backend.Lives, hlive]
  simp only [runs_congr hmonitors]

theorem Worker.Apt.congr {b b' : Backend} {worker : Worker} (h : worker.Apt b)
    (hmonitors : b'.monitors = b.monitors) :
    worker.Apt b' := by
  cases worker with
  | start device direct monitor =>
    cases monitor with
    | none => trivial
    | some monitor => exact (congrArg (·[monitor]?) hmonitors).trans h
  | disconnect device stopFirst pc =>
    cases stopFirst with
    | false => exact h
    | true => trivial
  | _ => trivial

theorem begins_of_other {worker : Worker} (h : worker.op = .other ∧ worker.numbered = false) (b : Backend) :
    Begins b worker := by
  refine ⟨?_, h.2, fun key hop => ?_, fun device pc heq => ?_⟩
  · cases worker with
    | start device direct monitor =>
      cases monitor with
      | none => trivial
      | some monitor => cases h.2
    | disconnect device stopFirst pc => cases h.1
    | _ => trivial
  · cases h.1.symm.trans hop
  · subst heq
    cases h.1

/-- The control thread may write phases and spawn workers. -/
theorem Attended.moves (h : Attended heeds apart e) (hmonitors : e'.backend.monitors = e.backend.monitors)
    (hlive : e'.backend.live = e.backend.live)
    (hworkers : ∀ worker ∈ e'.workers, worker ∈ e.workers ∨ Begins e.backend worker)
    (hlives : ∀ key, e.backend.Lives key → e'.predicted heeds key ≠ .idle)
    (hapart : apart = true → ∀ device pc, .disconnect device false pc ∈ e'.workers →
    (e'.sessionFor device).phase = .idle) :
    Attended heeds apart e' where
  apt worker hworker := by
    have hapt : worker.Apt e.backend := (hworkers worker hworker).elim (h.apt worker) Begins.apt
    exact Worker.Apt.congr hapt hmonitors
  called monitor hmonitor := by
    rw [hmonitors]
    exact h.called monitor (hlive ▸ hmonitor)
  latest monitor hmonitor key hruns other hlt := by
    rw [runs_congr hmonitors] at hruns ⊢
    exact h.latest monitor (hlive ▸ hmonitor) key hruns other hlt
  newest device monitor hmem other hlt := by
    rw [runs_congr hmonitors]
    obtain hold | hnew := hworkers _ hmem
    · exact h.newest device monitor hold other hlt
    · cases hnew.unnumbered
  lives key hlives' := hlives key ((lives_congr hmonitors hlive key).mp hlives')
  starts worker hworker key hop hlives' := by
    have hlives' := (lives_congr hmonitors hlive key).mp hlives'
    obtain hold | hnew := hworkers worker hworker
    · exact h.starts worker hold key hop hlives'
    · exact hnew.starts key hop hlives'
  stopped device pc hmem hpc hlives' := by
    have hlives' := (lives_congr hmonitors hlive _).mp hlives'
    obtain hold | hnew := hworkers _ hmem
    · exact h.stopped device pc hold hpc hlives'
    · obtain rfl := hnew.stops device pc rfl
      obtain heq | heq := hpc <;> cases heq
  apart := hapart

/-- A job has been run that does to the phases what it says. -/
theorem predicted_pop {job : Job} {batch : List Job} (hbatch : e.batch = job :: batch) {key : Key}
    (hphase : (e'.sessions key).phase = settle heeds key (e.sessions key).phase job)
    (hqueue : e'.queue = batch ++ e.inbox) :
    e'.predicted heeds key = e.predicted heeds key := by
  rw [predicted, predicted, hqueue, hphase, queue, hbatch]
  rfl

theorem predicted_congr {key : Key} (hphase : (e'.sessions key).phase = (e.sessions key).phase)
    (hqueue : e'.queue = e.queue) :
    e'.predicted heeds key = e.predicted heeds key := by
  rw [predicted, predicted, hqueue, hphase]

theorem Tended.calm (h : Tended heeds apart e) (hcalm : e.Calm e') : Tended heeds apart e' where
  phased := hcalm.phased h.phased
  attended := by
    obtain ⟨new, hworkers, hnew⟩ := hcalm.workers
    refine h.attended.moves (by rw [hcalm.backend]) (by rw [hcalm.backend]) (fun worker hworker =>
      ?_) (fun key hlives => ?_)
      fun hapart device pc hmem => ?_
    · rw [hworkers] at hworker
      exact (List.mem_append.mp hworker).imp_right fun hmem => begins_of_other (hnew worker hmem) _
    · rw [predicted_congr (hcalm.phase key) (by rw [queue, queue, hcalm.batch, hcalm.inbox])]
      exact h.attended.lives key hlives
    · rw [hworkers] at hmem
      obtain hold | hmem := List.mem_append.mp hmem
      · exact (hcalm.phase _).trans (h.attended.apart hapart device pc hold)
      · cases (hnew _ hmem).1

/-- Only fields of a session that are not its phase change. -/
theorem Tended.setSession (h : Tended heeds apart e) (device : Identity) {session : Session}
    (hphase : session.phase = (e.sessionFor device).phase) :
    Tended heeds apart (e.setSession device session) where
  phased := h.phased.setSession device hphase
  attended := by
    refine h.attended.moves rfl rfl (fun _ => .inl) (fun key hlives => ?_) fun hapart other pc hmem => ?_
    · rw [predicted_congr (phase_setSession e device hphase key) rfl]
      exact h.attended.lives key hlives
    · exact (phase_setSession e device hphase _).trans (h.attended.apart hapart other pc hmem)

/-- No monitor of a session that rests in the idle phase lives. -/
theorem Tended.idle (h : Tended heeds apart e) {key : Key} (hidle : (e.sessions key).phase = .idle) :
    ¬ e.backend.Lives key := by
  intro hlives
  refine h.attended.lives key hlives ?_
  rw [predicted, hidle]
  exact settle_idle (h.phased.rests (.inl hidle)).1

/-- A session that was active and is being stopped is so until its stop is done. -/
theorem predicted_stopping (h : Phased .other e) {key : Key} (hactive : (e.sessions key).phase = .active)
    (hqueue : e'.queue = e.queue) (hstopping : (e'.sessions key).phase = .stopping) :
    e'.predicted heeds key ≠ .idle := by
  obtain ⟨hstarts, hstops⟩ := h.rests (.inr hactive)
  rw [predicted, hqueue, hstopping, settle_stopping hstarts hstops]
  decide

theorem Tended.runDisconnect (h : Tended heeds apart e) (device : Identity) {stopFirst : Bool}
    (hphase : (e.sessionFor device).phase = if stopFirst then .active else .idle) :
    Tended heeds apart (e.runDisconnect device stopFirst) where
  phased := h.phased.runDisconnect device fun hstop => by rw [hphase, if_pos hstop]
  attended := by
    unfold Impl.runDisconnect
    split
    · exact h.attended
    · dsimp only
      cases stopFirst with
      | false =>
        refine h.attended.moves rfl rfl (fun worker hworker => ?_) (fun key hlives =>
          ?_) fun hapart other pc hmem => ?_
        · refine (List.mem_append.mp hworker).imp_right fun hmem => ?_
          rw [List.mem_singleton.mp hmem]
          exact ⟨.inl rfl, rfl, (fun _ hop => by cases hop), fun _ _ heq => by cases heq⟩
        · exact h.attended.lives key hlives
        · obtain hold | hnew := List.mem_append.mp hmem
          · exact h.attended.apart hapart other pc hold
          · obtain ⟨rfl, -, -⟩ := Worker.disconnect.inj (List.mem_singleton.mp hnew)
            exact hphase
      | true =>
        have hactive : (e.sessionFor device).phase = .active := hphase
        have hphases := phase_setPhase { e with connectionBusy := true, pendingDisconnect := some device }
          device .stopping
        refine h.attended.moves rfl rfl (fun worker hworker => ?_) (fun key hlives =>
          ?_) fun hapart other pc hmem => ?_
        · refine (List.mem_append.mp hworker).imp_right fun hmem => ?_
          rw [List.mem_singleton.mp hmem]
          exact ⟨trivial, rfl, (fun _ hop => by cases hop), fun _ _ heq => (Worker.disconnect.inj heq).2.2.symm⟩
        · by_cases hkey : key = identityKey device
          · subst hkey
            exact predicted_stopping h.phased hactive rfl ((hphases _).trans (if_pos rfl))
          · exact fun hidle => h.attended.lives key hlives
              ((predicted_congr ((hphases key).trans (if_neg hkey)) rfl).symm.trans hidle)
        · obtain hold | hnew := List.mem_append.mp hmem
          · have hidle := h.attended.apart hapart other pc hold
            refine (hphases _).trans ((if_neg fun hkey => ?_).trans hidle)
            rw [sessionFor, hkey] at hidle
            cases hidle.symm.trans hactive
          · cases List.mem_singleton.mp hnew

/-- Only fields that nothing of this is about change. -/
theorem Tended.frame (h : Tended heeds apart e) (hqueue : e'.queue = e.queue)
    (hworkers : e'.workers = e.workers)
    (hsessions : e'.sessions = e.sessions) (hmonitors : e'.backend.monitors = e.backend.monitors)
    (hlive : e'.backend.live = e.backend.live) : Tended heeds apart e' where
  phased := h.phased.frame (fun p _ => by rw [pending, pending, hqueue, hworkers]) fun key => by rw [hsessions]
  attended := by
    refine h.attended.moves hmonitors hlive (fun worker hworker => .inl (hworkers ▸ hworker))
      (fun key hlives => ?_)
      fun hapart device pc hmem => ?_
    · rw [predicted_congr (by rw [hsessions]) hqueue]
      exact h.attended.lives key hlives
    · rw [sessionFor, hsessions]
      exact h.attended.apart hapart device pc (hworkers ▸ hmem)

theorem Tended.resumeDisconnect (h : Tended heeds apart e) (device : Identity) :
    Tended heeds apart (e.resumeDisconnect device) := by
  unfold Impl.resumeDisconnect
  dsimp only
  split
  · exact h
  · rename_i hgoes
    refine Tended.runDisconnect (h.setSession device ?_) device ((phase_setSession e device (by
      rfl) _).trans ?_)
    · rfl
    · cases hphase : (e.sessionFor device).phase with
      | idle => exact hphase
      | active => exact hphase
      | starting => simp [hphase] at hgoes
      | stopping => simp [hphase] at hgoes

theorem Tended.acceptDisconnect (h : Tended heeds apart e) (device : Identity) :
    Tended heeds apart (e.acceptDisconnect device) := by
  have hreset : Tended heeds apart (Impl.resetRetries
      { e with
        intents := e.intents.filter fun item => !sameIdentity item device
        backend := { e.backend with owed := identityKey device :: e.backend.owed } } device) :=
    h.frame rfl rfl rfl rfl rfl
  unfold Impl.acceptDisconnect
  dsimp only
  split
  · exact hreset.setSession device rfl
  · exact hreset.setSession device rfl
  · rename_i hactive
    exact hreset.runDisconnect device hactive
  · rename_i hidle
    exact hreset.runDisconnect device hidle

theorem Tended.handleCommand (h : Tended heeds apart e) (command : Command) :
    Tended heeds apart (e.handleCommand command) := by
  cases command with
  | connect device =>
    show Tended heeds apart (e.handleConnect device)
    unfold handleConnect
    split
    · exact h
    · split
      · exact h
      · split
        · refine ⟨h.phased.spawns (fun _ => rfl) (fun key => rfl) fun key => rfl, ?_⟩
          refine h.attended.moves rfl rfl (fun worker hworker => ?_) h.attended.lives
            fun hapart other pc hmem => ?_
          · refine (List.mem_append.mp hworker).imp_right fun hmem => ?_
            rw [List.mem_singleton.mp hmem]
            exact ⟨trivial, rfl, (fun _ hop => by cases hop), fun _ _ heq => by cases heq⟩
          · obtain hold | hnew := List.mem_append.mp hmem
            · exact h.attended.apart hapart other pc hold
            · cases List.mem_singleton.mp hnew
        · exact h
  | disconnect device =>
    show Tended heeds apart (e.handleDisconnect device)
    unfold handleDisconnect
    split
    · exact h
    · split
      · exact h.calm (calm_spawn e ⟨rfl, rfl⟩)
      · split
        · exact h
        · split
          · exact h.acceptDisconnect _
          · exact h
  | _ => exact h.calm (calm_handleCommand e (fun _ heq => by cases heq) fun _ heq => by cases heq)

/-- A job that neither ends a start or a stop nor says that a monitor has ended is taken out. -/
theorem Tended.pop (h : Tended heeds apart e) {job : Job} {batch : List Job} (hbatch : e.batch = job :: batch)
    (hstarts : ∀ key, Op.starts key job.op = false) (hstops : ∀ key, Op.stops key job.op = false)
    (hsettle : ∀ key phase, settle heeds key phase job = phase) : Tended heeds apart { e with batch } where
  phased := (h.phased.pop hbatch).clear hstarts hstops
  attended := by
    refine h.attended.moves rfl rfl (fun _ => .inl) (fun key hlives => ?_) h.attended.apart
    have hsame : Impl.predicted heeds { e with batch } key = _ := predicted_pop hbatch (hsettle key _).symm rfl
    rw [hsame]
    exact h.attended.lives key hlives

/-- The start or the stop of a device is over. -/
theorem Tended.settles (h : Tended heeds apart e) {job : Job} {batch : List Job}
    (hbatch : e.batch = job :: batch)
    {device : Identity} {phase : Phase}
    (hop : job.op = .start (identityKey device) ∨ job.op = .stop (identityKey device) ∨
      job.op = .disconnect (identityKey device) true)
    (hphase : phase = .idle ∨ phase = .active)
    (hsettle : ∀ key old, settle heeds key old job = if key = identityKey device then phase else old) :
    Tended heeds apart (Impl.setPhase { e with batch } device phase) where
  phased := (h.phased.pop hbatch).settles hop hphase
  attended := by
    have hphases := phase_setPhase { e with batch } device phase
    refine h.attended.moves rfl rfl (fun _ => .inl) (fun key hlives => ?_) fun hapart other pc hmem => ?_
    · rw [predicted_pop hbatch ((hphases key).trans (hsettle key _).symm) rfl]
      exact h.attended.lives key hlives
    · have hidle := h.attended.apart hapart other pc hmem
      refine (hphases _).trans ((if_neg fun hkey => ?_).trans hidle)
      -- nothing of the other device is pending
      have hrests := h.phased.rests (.inl hidle)
      rw [queue, hbatch, hkey] at hrests
      obtain hop | hop | hop := hop <;> simp [hop, Op.starts, Op.stops] at hrests

/-- An active session whose monitor has ended is idle. -/
theorem Tended.handleMonitorEvent (h : Tended heeds apart e) {device : Identity} {monitor : Nat}
    {terminal : Bool}
    {batch : List Job} (hbatch : e.batch = .monitorEvent device monitor terminal :: batch)
    (hstale : heeds = false → terminal = true → (e.sessionFor device).phase = .active →
      ¬ e.backend.Lives (identityKey device)) (now : Nat) (jitter : Jitter) :
    Tended heeds apart (Impl.handleMonitorEvent { e with batch } device terminal now jitter) := by
  have hpop : Phased .other { e with batch } := (h.phased.pop hbatch).clear (fun _ => rfl) fun _ => rfl
  unfold Impl.handleMonitorEvent
  split
  · rename_i hends
    obtain ⟨rfl, hactive⟩ := Bool.and_eq_true_iff.mp hends
    have hactive : (e.sessionFor device).phase = .active := of_decide_eq_true hactive
    have hphases := phase_setPhase { e with batch } device .idle
    have hidle : Tended heeds apart (Impl.setPhase { e with batch } device .idle) := by
      refine ⟨hpop.setPhase (.inr hactive) (.inl rfl), ?_⟩
      refine h.attended.moves rfl rfl (fun _ => .inl) (fun key hlives => ?_) fun hapart other pc hmem => ?_
      · by_cases hkey : key = identityKey device
        · cases heeds with
          | false => exact absurd (hkey ▸ hlives) (hstale rfl rfl hactive)
          | true =>
            have hsettle : ((Impl.setPhase { e with batch } device .idle).sessions key).phase =
                settle true key (e.sessions key).phase (.monitorEvent device monitor true) := by
              have hactive : (e.sessions key).phase = .active := hkey ▸ hactive
              rw [hphases, if_pos hkey, hactive, settle, hkey]
              simp
            rw [predicted_pop hbatch hsettle rfl]
            exact h.attended.lives key hlives
        · have hsettle : ((Impl.setPhase { e with batch } device .idle).sessions key).phase =
              settle heeds key (e.sessions key).phase (.monitorEvent device monitor true) := by
            rw [hphases, if_neg hkey, settle]
            simp [Ne.symm hkey]
          rw [predicted_pop hbatch hsettle rfl]
          exact h.attended.lives key hlives
      · refine (hphases _).trans ?_
        split
        · rfl
        · exact h.attended.apart hapart other pc hmem
    dsimp only
    split
    · exact hidle.calm (calm_recordFailure _ device now jitter)
    · exact hidle
  · rename_i hends
    refine ⟨hpop, h.attended.moves rfl rfl (fun _ => .inl) (fun key hlives => ?_) h.attended.apart⟩
    have hsettle : (e.sessions key).phase = settle heeds key (e.sessions key).phase
      (.monitorEvent device monitor terminal) := by
      rw [settle]
      split
      · rename_i hheeded
        simp only [Bool.and_eq_true, decide_eq_true_eq] at hheeded
        obtain ⟨⟨⟨-, hterminal⟩, rfl⟩, hactive⟩ := hheeded
        exact absurd (Bool.and_eq_true_iff.mpr ⟨hterminal, decide_eq_true hactive⟩) hends
      · rfl
    have hsame : Impl.predicted heeds { e with batch } key = _ := predicted_pop hbatch hsettle rfl
    rw [hsame]
    exact h.attended.lives key hlives

theorem Tended.runJob (h : Tended heeds apart e) {job : Job} {batch : List Job}
    (hbatch : e.batch = job :: batch)
    (hstale : heeds = false → ∀ device monitor, job = .monitorEvent device monitor true →
      (e.sessionFor device).phase = .active → ¬ e.backend.Lives (identityKey device)) (now : Nat)
        (jitter : Jitter) :
    Tended heeds apart (runJob { e with batch } now jitter job) := by
  cases job with
  | command command => exact (h.pop hbatch (fun _ => rfl) (fun _ => rfl) fun _ _ => rfl).handleCommand command
  | inventoryChanged =>
    exact (h.pop hbatch (fun _ => rfl) (fun _ => rfl) fun _ _ => rfl).calm (calm_refreshInventory _)
  | snapshotDone reply =>
    refine (h.pop hbatch (fun _ => rfl) (fun _ => rfl) fun _ _ => rfl).calm ?_
    unfold Impl.runJob
    dsimp only
    split <;> exact .of_eq rfl rfl rfl rfl rfl rfl rfl rfl rfl
  | scanDone enabled result =>
    refine (h.pop hbatch (fun _ => rfl) (fun _ => rfl) fun _ _ => rfl).calm
      (.trans ?_ (calm_refreshInventory _))
    exact .of_eq rfl rfl rfl rfl rfl rfl rfl rfl rfl
  | connectDone =>
    refine Tended.calm ?_ (calm_refreshInventory _)
    exact (h.pop hbatch (fun _ => rfl) (fun _ => rfl) fun _ _ => rfl).frame rfl rfl rfl rfl rfl
  | disconnectDone device stopFirst =>
    refine Tended.calm ?_ (calm_refreshInventory _)
    cases stopFirst with
    | false =>
      have hpop := h.pop hbatch (fun _ => rfl) (fun key => by simp [Op.stops, Job.op]) fun _ _ => rfl
      exact hpop.frame rfl rfl rfl rfl rfl
    | true =>
      have hsettled := h.settles hbatch (.inr (.inr rfl)) (.inl rfl) fun key old => if_congr eq_comm rfl rfl
      exact hsettled.frame rfl rfl rfl rfl rfl
  | startDone device monitor result =>
    refine Tended.resumeDisconnect ?_ device
    cases result with
    | ok =>
      have hsettled := h.settles hbatch (.inl rfl) (.inr rfl) fun key old => if_congr eq_comm rfl rfl
      exact hsettled.frame rfl rfl rfl rfl rfl
    | error cancelled =>
      have hsettled := h.settles hbatch (.inl rfl) (.inl rfl) fun key old => if_congr eq_comm rfl rfl
      dsimp only
      split
      · exact hsettled.calm (calm_recordFailure _ device now jitter)
      · exact hsettled
  | stopDone device =>
    have hsettled := h.settles hbatch (.inr (.inl rfl)) (.inl rfl) fun key old => if_congr eq_comm rfl rfl
    exact hsettled.resumeDisconnect device
  | monitorEvent device monitor terminal =>
    refine h.handleMonitorEvent hbatch (fun hheeds hterminal => ?_) now jitter
    subst hterminal
    exact hstale hheeds device monitor rfl
  | directStartDone result =>
    exact (h.pop hbatch (fun _ => rfl) (fun _ => rfl) fun _ _ => rfl).calm (calm_finishDirectStart _ result)
  | directStopDone =>
    exact (h.pop hbatch (fun _ => rfl) (fun _ => rfl) fun _ _ => rfl).frame rfl rfl rfl rfl rfl

-- ---------------------------------------------------------------------------
-- Commands of the controller
-- ---------------------------------------------------------------------------

/-- A command fits the phase of its session, and a start no disconnect if the two are to be kept apart. -/
structure Fits (apart : Bool) (e : Impl) (command : MonitorCommand) : Prop where
  phase : (e.sessionFor command.identity).phase = match command.action with | .start => .idle | .stop => .active
  free : apart = true → command.action = .start → ∀ device pc, .disconnect device false pc ∈ e.workers →
    identityKey device ≠ identityKey command.identity

theorem Tended.execute (h : Tended heeds apart e) {command : MonitorCommand} (hfits : Fits apart e command) :
    Tended heeds apart (e.execute command) where
  phased := h.phased.execute hfits.phase
  attended := by
    have hphase := hfits.phase
    unfold Impl.execute
    split
    · rename_i haction
      rw [haction] at hphase
      have hidle : (e.sessions (identityKey command.identity)).phase = .idle := hphase
      have hsession (key : Key) (hne : key ≠ identityKey command.identity) :
          ((e.startMonitor command.identity).sessions key).phase = (e.sessions key).phase := by
        refine congrArg Session.phase ((sessions_setSession e command.identity _ key).trans ?_)
        exact if_neg hne
      refine h.attended.moves rfl rfl (fun worker hworker => ?_) (fun key hlives =>
        ?_) fun hapart other pc hmem => ?_
      · refine (List.mem_append.mp hworker).imp_right fun hmem => ?_
        rw [List.mem_singleton.mp hmem]
        refine ⟨trivial, rfl, fun key hop => ?_, fun _ _ heq => by cases heq⟩
        rw [← Op.start.inj hop]
        exact h.idle hidle
      · by_cases hkey : key = identityKey command.identity
        · exact absurd (hkey ▸ hlives) (h.idle hidle)
        · exact fun heq => h.attended.lives key hlives
            ((predicted_congr (hsession key hkey) rfl).symm.trans heq)
      · obtain hold | hnew := List.mem_append.mp hmem
        · exact (hsession _ (hfits.free hapart haction other pc hold)).trans
            (h.attended.apart hapart other pc hold)
        · cases List.mem_singleton.mp hnew
    · rename_i haction
      rw [haction] at hphase
      have hactive : (e.sessions (identityKey command.identity)).phase = .active := hphase
      have hphases (key : Key) := phase_setPhase e command.identity .stopping key
      refine h.attended.moves rfl rfl (fun worker hworker => ?_) (fun key hlives =>
        ?_) fun hapart other pc hmem => ?_
      · refine (List.mem_append.mp hworker).imp_right fun hmem => ?_
        rw [List.mem_singleton.mp hmem]
        exact ⟨trivial, rfl, (fun _ hop => by cases hop), fun _ _ heq => by cases heq⟩
      · by_cases hkey : key = identityKey command.identity
        · subst hkey
          exact predicted_stopping h.phased hactive rfl ((hphases _).trans (if_pos rfl))
        · exact fun heq => h.attended.lives key hlives
            ((predicted_congr ((hphases key).trans (if_neg hkey)) rfl).symm.trans heq)
      · obtain hold | hnew := List.mem_append.mp hmem
        · have hidle := h.attended.apart hapart other pc hold
          refine (hphases _).trans ((if_neg fun hkey => ?_).trans hidle)
          rw [sessionFor, hkey] at hidle
          cases hidle.symm.trans hactive
        · cases List.mem_singleton.mp hnew

/-- A command leaves the sessions of the other devices alone. -/
theorem Fits.execute {command other : MonitorCommand} (h : Fits apart e other)
    (hne : identityKey other.identity ≠ identityKey command.identity) :
    Fits apart (e.execute command) other := by
  unfold Impl.execute
  split
  · refine ⟨(congrArg Session.phase ((sessions_setSession e command.identity _ _).trans (if_neg hne))).trans
      h.phase,
      fun hapart haction device pc hmem => ?_⟩
    obtain hold | hnew := List.mem_append.mp hmem
    · exact h.free hapart haction device pc hold
    · cases List.mem_singleton.mp hnew
  · refine ⟨((phase_setPhase e command.identity .stopping _).trans (if_neg hne)).trans h.phase,
      fun hapart haction device pc hmem => ?_⟩
    obtain hold | hnew := List.mem_append.mp hmem
    · exact h.free hapart haction device pc hold
    · cases List.mem_singleton.mp hnew

theorem Tended.foldl_execute (h : Tended heeds apart e) {commands : List MonitorCommand}
    (hnodup : (commands.map fun command => identityKey command.identity).Nodup)
    (hfits : ∀ command ∈ commands, Fits apart e command) :
    Tended heeds apart (commands.foldl Impl.execute e) := by
  induction commands generalizing e with
  | nil => exact h
  | cons command commands ih =>
    rw [List.map_cons, List.nodup_cons] at hnodup
    refine ih (h.execute (hfits command List.mem_cons_self)) hnodup.2 fun other hother => ?_
    refine (hfits other (List.mem_cons_of_mem _ hother)).execute fun heq => hnodup.1 ?_
    exact heq ▸ List.mem_map_of_mem (f := fun command : MonitorCommand => identityKey command.identity) hother

/-- The commands of the controller fit the phases that it has been told. -/
theorem Fits.of_issued {now : Nat} {command : MonitorCommand} (h : command ∈ (e.monitorCommands now).2)
    (hfree : apart = true → command.action = .start → ∀ device pc, .disconnect device false pc ∈ e.workers →
      identityKey device ≠ identityKey command.identity) : Fits apart e command := by
  obtain ⟨entry, -, hidentity, hbusy, haction⟩ := monitorCommands_issued e now h
  refine ⟨?_, hfree⟩
  rw [hidentity]
  simp only [deviceState, Bool.or_eq_false_iff, decide_eq_false_iff_not] at hbusy
  obtain ⟨hstarting, hstopping⟩ := hbusy
  show (e.sessionFor entry.identity).phase = _
  cases hcommand : command.action with
  | start =>
    rw [hcommand] at haction
    have hinactive := of_decide_eq_false haction.2.2
    cases hphase : (e.sessionFor entry.identity).phase with
    | idle => rfl
    | starting => exact absurd hphase hstarting
    | active => exact absurd hphase hinactive
    | stopping => exact absurd hphase hstopping
  | stop =>
    rw [hcommand] at haction
    exact of_decide_eq_true haction

theorem Tended.reconcile (h : Tended heeds apart e) (hknown : Known e.selection) (now : Nat)
    (hfree : apart = true → ∀ command ∈ (e.monitorCommands now).2, command.action = .start →
      ∀ device pc, .disconnect device false pc ∈ e.workers → identityKey device ≠ identityKey
        command.identity) :
    Tended heeds apart (e.reconcile now) := by
  have hfits (command : MonitorCommand) (hmem : command ∈ (e.monitorCommands now).2) : Fits apart e command :=
    .of_issued hmem fun hapart => hfree hapart command hmem
  show Tended heeds apart ((e.monitorCommands now).2.foldl Impl.execute _)
  refine Tended.foldl_execute ?_ (nodup_monitorCommands hknown now) fun command hmem => ?_
  · exact h.frame rfl rfl rfl rfl rfl
  · exact ⟨(hfits command hmem).phase, (hfits command hmem).free⟩

/-- Asking for an inventory changes nothing that the controller is told. -/
theorem monitorCommands_refreshInventory (e : Impl) (now : Nat) :
    e.refreshInventory.monitorCommands now = e.monitorCommands now := by
  unfold refreshInventory
  split <;> rfl

-- ---------------------------------------------------------------------------
-- Workers
-- ---------------------------------------------------------------------------

theorem predicted_post (e : Impl) (jobs : List Job) {workers : List Worker} {backend : Backend} (key : Key) :
    Impl.predicted heeds { e with workers, inbox := e.inbox ++ jobs, backend } key =
      jobs.foldl (settle heeds key) (e.predicted heeds key) := by
  rw [predicted, predicted, queue, ← List.append_assoc, List.foldl_append]
  rfl

/-- Two workers cannot both be starting a monitor of one device. -/
theorem Phased.unique (h : Phased .other e) {left right : List Worker} {worker other : Worker} {key : Key}
    (hworkers : e.workers = left ++ worker :: right) (hop : worker.op = .start key)
    (hother : other.op = .start key) :
    other ∉ left ++ right := by
  intro hmem
  have hstarts := h.starts key
  rw [total_other rfl, pending, hworkers] at hstarts
  have hpos : 0 < ((left ++ right).map Worker.op).countP (Op.starts key) :=
    List.countP_pos_iff.mpr ⟨_, List.mem_map_of_mem hmem, by simp [hother, Op.starts]⟩
  simp only [List.map_append, List.map_cons, List.countP_append, List.countP_cons, hop] at hstarts hpos
  rw [if_pos (by simp [Op.starts])] at hstarts
  split at hstarts <;> omega

/-- No stop of a device is pending that is being started. -/
theorem Phased.unstopped (h : Phased .other e) {worker other : Worker} {key : Key} (hmem : worker ∈ e.workers)
    (hop : worker.op = .start key) (hother : other.op = .stop key ∨ other.op = .disconnect key true) :
    other ∉ e.workers := by
  intro hmem'
  have hstarts := h.starts key
  have hstops := h.stops key
  rw [total_other rfl, pending] at hstarts hstops
  have hpos : 0 < (e.workers.map Worker.op).countP (Op.starts key) :=
    List.countP_pos_iff.mpr ⟨_, List.mem_map_of_mem hmem, by simp [hop, Op.starts]⟩
  have hpos' : 0 < (e.workers.map Worker.op).countP (Op.stops key) :=
    List.countP_pos_iff.mpr ⟨_, List.mem_map_of_mem hmem', decide_eq_true hother⟩
  cases hphase : (e.sessions key).phase <;>
    simp only [hphase, reduceCtorEq, if_true, if_false] at hstarts hstops <;> omega

/-- A worker goes on and calls nothing that starts a monitor. -/
theorem Attended.works (h : Attended heeds apart e) {left right next : List Worker} {worker : Worker}
    {jobs : List Job}
    {backend : Backend} (hworkers : e.workers = left ++ worker :: right)
    (hmonitors : backend.monitors = e.backend.monitors) (hlive : ∀ monitor ∈ backend.live,
    monitor ∈ e.backend.live)
    (hnext : ∀ other ∈ next, other.Apt backend ∧ (∀ key, other.op ≠ .start key) ∧
      (∀ device pc, other = .disconnect device true pc → pc = .disconnects ∨ pc = .disconnecting →
        ¬ backend.Lives (identityKey device)) ∧
      ∀ device pc, other = .disconnect device false pc → ∃ pc', worker = .disconnect device false pc')
    (hlives : ∀ key, backend.Lives key → jobs.foldl (settle heeds key) (e.predicted heeds key) ≠ .idle) :
    Attended heeds apart { e with workers := left ++ next ++ right, inbox := e.inbox ++ jobs, backend } := by
  have hsub (key : Key) : backend.Lives key → e.backend.Lives key := by
    rintro ⟨monitor, hmem, hruns⟩
    exact ⟨monitor, hlive monitor hmem, (runs_congr hmonitors monitor key).symm.trans hruns⟩
  have hcases (other : Worker) (hother : other ∈ left ++ next ++ right) : other ∈ e.workers ∨ other ∈ next := by
    rw [hworkers]
    simp only [List.mem_append, List.mem_cons] at hother ⊢
    tauto
  refine ⟨fun other hother => ?_, fun monitor hmonitor => ?_, fun monitor hmonitor key hruns other hlt => ?_,
    fun device monitor hmem other hlt => ?_, fun key hmem => ?_, fun other hother key hop hmem => ?_,
    fun device pc hmem hpc hmem' => ?_, fun hapart device pc hmem => ?_⟩
  · obtain hold | hnew := hcases other hother
    · exact Worker.Apt.congr (h.apt other hold) hmonitors
    · exact (hnext other hnew).1
  · show monitor < backend.monitors.length
    rw [hmonitors]
    exact h.called monitor (hlive monitor hmonitor)
  · have hruns : e.backend.runs monitor key = true := (runs_congr hmonitors monitor key).symm.trans hruns
    exact (runs_congr hmonitors other key).trans (h.latest monitor (hlive monitor hmonitor) key hruns other hlt)
  · obtain hold | hnew := hcases _ hmem
    · exact (runs_congr hmonitors other _).trans (h.newest device monitor hold other hlt)
    · exact absurd rfl ((hnext _ hnew).2.1 _)
  · rw [predicted_post]
    exact hlives key hmem
  · obtain hold | hnew := hcases other hother
    · exact h.starts other hold key hop (hsub key hmem)
    · exact (hnext other hnew).2.1 key hop
  · obtain hold | hnew := hcases _ hmem
    · exact h.stopped device pc hold hpc (hsub _ hmem')
    · exact (hnext _ hnew).2.2.1 device pc rfl hpc hmem'
  · obtain hold | hnew := hcases _ hmem
    · exact h.apart hapart device pc hold
    · obtain ⟨pc', rfl⟩ := (hnext _ hnew).2.2.2 device pc rfl
      exact h.apart hapart device pc' (by simp [hworkers])

/-- After a stop no monitor of the device lives. -/
theorem not_lives_stopped (b : Backend) (device : Identity) : ¬ (b.stopped device).Lives
    (identityKey device) := by
  rintro ⟨monitor, hmem, hruns⟩
  obtain ⟨-, hne⟩ := List.mem_filter.mp hmem
  refine of_decide_eq_true hne ?_
  obtain ⟨m, hm, hm'⟩ := (Option.any_eq_true _ _).mp hruns
  have hkey : identityKey m.device = identityKey device := by simpa using (Bool.and_eq_true_iff.mp hm').2
  have hm : b.monitors[monitor]? = some m := hm
  rw [Backend.keyOf, hm, Option.map_some, hkey]

theorem runs_append (b : Backend) (m : Monitor) {monitor : Nat} (hlt : monitor < b.monitors.length)
    (key : Key) :
    Backend.runs { b with monitors := b.monitors ++ [m] } monitor key = b.runs monitor key := by
  unfold Backend.runs
  rw [List.getElem?_append_left hlt]

theorem runs_length (b : Backend) (m : Monitor) {monitor : Nat} (hle : b.monitors.length ≤ monitor) {key : Key}
    (hruns : Backend.runs { b with monitors := b.monitors ++ [m] } monitor key = true) :
    monitor = b.monitors.length ∧ m.direct = false ∧ identityKey m.device = key := by
  unfold Backend.runs at hruns
  rw [List.getElem?_append_right hle] at hruns
  obtain ⟨m', hm', hruns⟩ := (Option.any_eq_true _ _).mp hruns
  obtain ⟨hzero, rfl⟩ := List.getElem?_eq_some_iff.mp hm'
  rw [List.length_singleton] at hzero
  simp only [List.getElem_singleton, Bool.and_eq_true, Bool.not_eq_true', beq_iff_eq] at hruns
  exact ⟨by omega, hruns⟩

/-- `startMonitor` is called: no monitor of the device lives, and none is being started. -/
theorem Attended.calls (h : Attended heeds apart e) (hphased : Phased .other e) {left right : List Worker}
    {device : Identity}
    {direct : Bool} (hworkers : e.workers = left ++ .start device direct none :: right) :
    Attended heeds apart { e with
      workers := left ++ [.start device direct (some e.backend.monitors.length)] ++ right
      inbox := e.inbox ++ []
      backend := { e.backend with monitors := e.backend.monitors ++ [⟨device, direct⟩] } } := by
  have hmem : .start device direct none ∈ e.workers := by simp [hworkers]
  have hcases (other : Worker)
      (hother : other ∈ left ++ [.start device direct (some e.backend.monitors.length)] ++ right) :
      other ∈ left ++ right ∨ other = .start device direct (some e.backend.monitors.length) := by
    simp only [List.mem_append, List.mem_singleton] at hother ⊢
    tauto
  have hold {other : Worker} (hother : other ∈ left ++ right) : other ∈ e.workers := by
    rw [hworkers]
    simp only [List.mem_append, List.mem_cons] at hother ⊢
    tauto
  have hlives (key : Key) (hlives : Backend.Lives
    { e.backend with monitors := e.backend.monitors ++ [⟨device, direct⟩] } key) :
      e.backend.Lives key := by
    obtain ⟨monitor, hlive, hruns⟩ := hlives
    exact ⟨monitor, hlive, (runs_append e.backend _ (h.called monitor hlive) key).symm.trans hruns⟩
  refine ⟨fun other hother => ?_, fun monitor hmonitor => ?_, fun monitor hmonitor key hruns other hlt => ?_,
    fun other monitor hother later hlt => ?_, fun key hkey => ?_, fun other hother key hop hkey => ?_,
    fun other pc hother hpc hkey => ?_, fun hapart other pc hother => ?_⟩
  · obtain hother | rfl := hcases other hother
    · have hapt := h.apt other (hold hother)
      cases other with
      | start other direct' monitor =>
        cases monitor with
        | none => trivial
        | some monitor => exact (List.getElem?_append_left (List.getElem?_eq_some_iff.mp hapt).1).trans hapt
      | disconnect other stopFirst pc =>
        cases stopFirst with
        | false => exact hapt
        | true => trivial
      | _ => trivial
    · show (e.backend.monitors ++ [⟨device, direct⟩])[e.backend.monitors.length]? = _
      rw [List.getElem?_append_right (Nat.le_refl _), Nat.sub_self]
      rfl
  · show monitor < (e.backend.monitors ++ [Monitor.mk device direct]).length
    rw [List.length_append]
    exact Nat.lt_of_lt_of_le (h.called monitor hmonitor) (Nat.le_add_right _ _)
  · have hlive := h.called monitor hmonitor
    have hold : e.backend.runs monitor key = true := (runs_append e.backend _ hlive key).symm.trans hruns
    refine eq_false_of_ne_true fun hother => ?_
    by_cases hcalled : other < e.backend.monitors.length
    · have hlatest := h.latest monitor hmonitor key hold other hlt
      exact Bool.false_ne_true (hlatest.symm.trans ((runs_append e.backend _ hcalled key).symm.trans hother))
    · obtain ⟨-, rfl, rfl⟩ := runs_length e.backend ⟨device, direct⟩ (Nat.le_of_not_lt hcalled) hother
      exact h.starts _ hmem _ rfl ⟨monitor, hmonitor, hold⟩
  · refine eq_false_of_ne_true fun hruns => ?_
    obtain hrest | heq := hcases _ hother
    · by_cases hcalled : later < e.backend.monitors.length
      · have hnewest := h.newest other monitor (hold hrest) later hlt
        exact Bool.false_ne_true (hnewest.symm.trans ((runs_append e.backend _ hcalled _).symm.trans hruns))
      · obtain ⟨-, rfl, hkey⟩ := runs_length e.backend ⟨device, direct⟩ (Nat.le_of_not_lt hcalled) hruns
        exact hphased.unique hworkers (congrArg Op.start hkey) rfl hrest
    · obtain ⟨-, -, heq⟩ := Worker.start.inj heq
      obtain rfl := Option.some.inj heq
      exact absurd (runs_length e.backend ⟨device, direct⟩ hlt.le hruns).1 hlt.ne'
  · rw [predicted_post]
    exact h.lives key (hlives key hkey)
  · obtain hrest | rfl := hcases other hother
    · exact h.starts other (hold hrest) key hop (hlives key hkey)
    · exact h.starts _ hmem key (by cases direct <;> exact hop) (hlives key hkey)
  · obtain hrest | heq := hcases _ hother
    · exact h.stopped other pc (hold hrest) hpc (hlives _ hkey)
    · cases heq
  · obtain hrest | heq := hcases _ hother
    · exact h.apart hapart other pc (hold hrest)
    · cases heq

theorem monitors_started (b : Backend) (monitor : Nat) (result : Result) :
    (b.started monitor result).monitors = b.monitors := by
  unfold Backend.started
  split <;> rfl

theorem mem_started {b : Backend} {monitor other : Nat} {result : Result}
    (h : other ∈ (b.started monitor result).live) :
    other ∈ b.live ∨ other = monitor ∧ result = .ok := by
  unfold Backend.started at h
  split at h
  · rename_i hok
    dsimp only at h
    split at h
    · exact .inl h
    · exact (List.mem_cons.mp h).symm.imp_right fun heq => ⟨heq, hok⟩
  · exact .inl h

/-- `startMonitor` returns: its monitor lives if that was a success and it has not ended. -/
theorem Attended.returns (h : Attended heeds apart e) (hphased : Phased .other e) {left right : List Worker}
    {device : Identity} {direct : Bool} {monitor : Nat}
    (hworkers : e.workers = left ++ .start device direct (some monitor) :: right) (result : Result) :
    Attended heeds apart { e with
      workers := left ++ [] ++ right
      inbox := e.inbox ++ [if direct then .directStartDone result else .startDone device monitor result]
      backend := e.backend.started monitor result } := by
  have hmem : .start device direct (some monitor) ∈ e.workers := by simp [hworkers]
  have hapt : e.backend.monitors[monitor]? = some ⟨device, direct⟩ := h.apt _ hmem
  have hold {other : Worker} (hother : other ∈ left ++ [] ++ right) : other ∈ e.workers := by
    rw [hworkers]
    simp only [List.append_nil, List.mem_append, List.mem_cons] at hother ⊢
    tauto
  have hmonitors := monitors_started e.backend monitor result
  have hruns (key : Key) : e.backend.runs monitor key = (!direct && identityKey device == key) := by
    rw [Backend.runs, hapt]
    rfl
  -- a session's monitor that lives now and did not before is this one
  have hlives (key : Key) (hkey : (e.backend.started monitor result).Lives key) :
      e.backend.Lives key ∨ direct = false ∧ identityKey device = key ∧ result = .ok := by
    obtain ⟨other, hother, hruns'⟩ := hkey
    rw [runs_congr hmonitors] at hruns'
    obtain hother | ⟨rfl, hok⟩ := mem_started hother
    · exact .inl ⟨other, hother, hruns'⟩
    · rw [hruns] at hruns'
      exact .inr ⟨by simpa using (Bool.and_eq_true_iff.mp hruns').1, by
        simpa using (Bool.and_eq_true_iff.mp hruns').2, hok⟩
  refine ⟨fun other hother => Worker.Apt.congr (h.apt other (hold hother)) hmonitors, fun other hother => ?_,
    fun other hother key hruns' later hlt => ?_, fun other number hother later hlt => ?_, fun key hkey => ?_,
    fun other hother key hop hkey => ?_, fun other pc hother hpc hkey => ?_,
    fun hapart other pc hother => h.apart hapart other pc (hold hother)⟩
  · show other < (e.backend.started monitor result).monitors.length
    rw [hmonitors]
    obtain hother | ⟨rfl, -⟩ := mem_started hother
    · exact h.called other hother
    · exact (List.getElem?_eq_some_iff.mp hapt).1
  · refine (runs_congr hmonitors later key).trans ?_
    have hsame : e.backend.runs other key = true := (runs_congr hmonitors other key).symm.trans hruns'
    obtain hother | ⟨rfl, -⟩ := mem_started hother
    · exact h.latest other hother key hsame later hlt
    · obtain ⟨hdirect, hkey⟩ := Bool.and_eq_true_iff.mp ((hruns key).symm.trans hsame)
      obtain rfl : direct = false := by simpa using hdirect
      obtain rfl : identityKey device = key := by simpa using hkey
      exact h.newest device _ hmem later hlt
  · exact (runs_congr hmonitors later _).trans (h.newest other number (hold hother) later hlt)
  · rw [predicted_post]
    obtain hbefore | ⟨rfl, rfl, rfl⟩ := hlives key hkey
    · cases direct with
      | true => exact h.lives key hbefore
      | false =>
        have hne : identityKey device ≠ key := fun heq => h.starts _ hmem key (congrArg Op.start heq) hbefore
        show settle heeds key (e.predicted heeds key) (.startDone device monitor result) ≠ .idle
        rw [settle, if_neg hne]
        exact h.lives key hbefore
    · show settle heeds (identityKey device) (e.predicted heeds (identityKey device))
        (.startDone device monitor .ok) ≠ .idle
      rw [settle, if_pos rfl, if_pos rfl]
      decide
  · obtain hbefore | ⟨rfl, rfl, -⟩ := hlives key hkey
    · exact h.starts other (hold hother) key hop hbefore
    · refine hphased.unique hworkers rfl hop ?_
      rwa [List.append_nil] at hother
  · obtain hbefore | ⟨rfl, hsame, -⟩ := hlives _ hkey
    · exact h.stopped other pc (hold hother) hpc hbefore
    · exact hphased.unstopped hmem (congrArg Op.start hsame) (.inr rfl) (hold hother)

theorem Attended.runWorker (h : Attended heeds apart e) (hphased : Phased .other e) {index : Nat}
    {reply : Reply}
    (hs : e.runWorker index reply = some e') : Attended heeds apart e' := by
  obtain ⟨left, worker, right, hworkers, rfl⟩ := runWorker_cases hs
  have hmem : worker ∈ e.workers := by simp [hworkers]
  have hnone {p : Worker → Prop} : ∀ other ∈ ([] : List Worker), p other :=
    fun _ hmem => absurd hmem List.not_mem_nil
  cases worker with
  | snapshot | scan | connect | cancelConnect => exact h.works hworkers rfl (fun _ => id) hnone h.lives
  | stop device direct calling =>
    cases calling with
    | false =>
      refine h.works hworkers rfl (fun _ => id) (fun other hother => ?_) h.lives
      rw [List.mem_singleton.mp hother]
      exact ⟨trivial, (fun _ hop => by cases direct <;> cases hop), (fun _ _ heq => by cases heq),
        fun _ _ heq => by cases heq⟩
    | true =>
      refine h.works hworkers rfl (fun _ hold => (List.mem_filter.mp hold).1) hnone fun key hlives => ?_
      have hkey : identityKey device ≠ key := fun heq => not_lives_stopped e.backend device (heq ▸ hlives)
      have hold : e.backend.Lives key := by
        obtain ⟨monitor, hlive, hruns⟩ := hlives
        exact ⟨monitor, (List.mem_filter.mp hlive).1, hruns⟩
      cases direct with
      | true => exact h.lives key hold
      | false =>
        show settle heeds key (e.predicted heeds key) (.stopDone device) ≠ .idle
        rw [settle, if_neg hkey]
        exact h.lives key hold
  | disconnect device stopFirst pc =>
    have hapt := h.apt _ hmem
    cases pc with
    | stops =>
      refine h.works hworkers rfl (fun _ => id) (fun other hother => ?_) h.lives
      rw [List.mem_singleton.mp hother]
      refine ⟨?_, (fun _ hop => by cases hop), fun _ _ heq hpc => ?_, fun _ _ heq => ?_⟩
      · cases stopFirst with
        | false => obtain heq | heq := hapt <;> cases heq
        | true => trivial
      · obtain ⟨-, -, rfl⟩ := Worker.disconnect.inj heq
        obtain heq | heq := hpc <;> cases heq
      · obtain ⟨rfl, rfl, -⟩ := Worker.disconnect.inj heq
        exact ⟨_, rfl⟩
    | stopping =>
      refine h.works hworkers rfl (fun _ hold => (List.mem_filter.mp hold).1) (fun other hother =>
        ?_) fun key hlives => ?_
      · rw [List.mem_singleton.mp hother]
        refine ⟨?_, (fun _ hop => by cases hop), fun _ _ heq _ => ?_, fun _ _ heq => ?_⟩
        · cases stopFirst with
          | false => exact .inl rfl
          | true => trivial
        · obtain ⟨rfl, -, -⟩ := Worker.disconnect.inj heq
          exact not_lives_stopped e.backend device
        · obtain ⟨rfl, rfl, -⟩ := Worker.disconnect.inj heq
          exact ⟨_, rfl⟩
      · obtain ⟨monitor, hlive, hruns⟩ := hlives
        exact h.lives key ⟨monitor, (List.mem_filter.mp hlive).1, hruns⟩
    | disconnects =>
      refine h.works hworkers rfl (fun _ => id) (fun other hother => ?_) h.lives
      rw [List.mem_singleton.mp hother]
      refine ⟨?_, (fun _ hop => by cases hop), fun _ _ heq _ => ?_, fun _ _ heq => ?_⟩
      · cases stopFirst with
        | false => exact .inr rfl
        | true => trivial
      · obtain ⟨rfl, rfl, -⟩ := Worker.disconnect.inj heq
        exact h.stopped device .disconnects hmem (.inl rfl)
      · obtain ⟨rfl, rfl, -⟩ := Worker.disconnect.inj heq
        exact ⟨_, rfl⟩
    | disconnecting =>
      refine h.works hworkers rfl (fun _ => id) hnone fun key hlives => ?_
      cases stopFirst with
      | false => exact h.lives key hlives
      | true =>
        have hkey : identityKey device ≠ key := fun heq => h.stopped device .disconnecting hmem
          (.inr rfl) (heq ▸ hlives)
        show settle heeds key (e.predicted heeds key) (.disconnectDone device true) ≠ .idle
        rw [settle, if_neg hkey]
        exact h.lives key hlives
  | start device direct monitor =>
    cases monitor with
    | none => exact h.calls hphased hworkers
    | some monitor => exact h.returns hphased hworkers reply.result

theorem Tended.runWorker (h : Tended heeds apart e) {index : Nat} {reply : Reply}
    (hs : e.runWorker index reply = some e') :
    Tended heeds apart e' := by
  refine ⟨?_, h.attended.runWorker h.phased hs⟩
  refine h.phased.frame (fun p => pending_runWorker hs) fun key => ?_
  obtain ⟨left, worker, right, -, rfl⟩ := runWorker_cases hs
  rfl

-- ---------------------------------------------------------------------------
-- Steps
-- ---------------------------------------------------------------------------

/-- Monitors end, and jobs are posted. -/
theorem Attended.retires (h : Attended heeds apart e) {jobs : List Job} {backend : Backend}
    (hmonitors : backend.monitors = e.backend.monitors) (hlive : ∀ monitor ∈ backend.live,
    monitor ∈ e.backend.live)
    (hlives : ∀ key, backend.Lives key → jobs.foldl (settle heeds key) (e.predicted heeds key) ≠ .idle) :
    Attended heeds apart { e with inbox := e.inbox ++ jobs, backend } := by
  have hsub (key : Key) : backend.Lives key → e.backend.Lives key := by
    rintro ⟨monitor, hmem, hruns⟩
    exact ⟨monitor, hlive monitor hmem, (runs_congr hmonitors monitor key).symm.trans hruns⟩
  refine ⟨fun other hother => Worker.Apt.congr (h.apt other hother) hmonitors, fun monitor hmonitor => ?_,
    fun monitor hmonitor key hruns other hlt => ?_, fun device monitor hmem other hlt => ?_, fun key hmem => ?_,
    fun other hother key hop hmem => h.starts other hother key hop (hsub key hmem),
    fun device pc hmem hpc hmem' => h.stopped device pc hmem hpc (hsub _ hmem'), h.apart⟩
  · show monitor < backend.monitors.length
    rw [hmonitors]
    exact h.called monitor (hlive monitor hmonitor)
  · have hruns : e.backend.runs monitor key = true := (runs_congr hmonitors monitor key).symm.trans hruns
    exact (runs_congr hmonitors other key).trans (h.latest monitor (hlive monitor hmonitor) key hruns other hlt)
  · exact (runs_congr hmonitors other _).trans (h.newest device monitor hmem other hlt)
  · rw [predicted_post]
    exact hlives key hmem

theorem Tended.post (h : Tended heeds apart e) {job : Job} (hop : job.op = .other)
    (hsettle : ∀ key phase, settle heeds key phase job = phase) : Tended heeds apart (e.post [job]) where
  phased := h.phased.frame (fun p hother => pending_post e job (hop ▸ hother)) fun _ => rfl
  attended := h.attended.retires rfl (fun _ => id) fun key hlives => by
    rw [List.foldl_cons, hsettle]
    exact h.attended.lives key hlives

/-- The device has been started anew by no later call. -/
def Timely (e : Impl) (monitor : Nat) : Prop :=
  ∀ other < e.backend.monitors.length, monitor < other → e.backend.keyOf other ≠ e.backend.keyOf monitor

instance (e : Impl) (monitor : Nat) : Decidable (e.Timely monitor) := inferInstanceAs (Decidable (∀ _ < _, _))

theorem keyOf_of_runs {b : Backend} {monitor : Nat} {key : Key} (h : b.runs monitor key = true) :
    b.keyOf monitor = some key := by
  obtain ⟨m, hm, hm'⟩ := (Option.any_eq_true _ _).mp h
  have hm : b.monitors[monitor]? = some m := hm
  rw [Backend.keyOf, hm, Option.map_some]
  exact congrArg some (by simpa using (Bool.and_eq_true_iff.mp hm').2)

/-- After a terminal event that comes in time no monitor of its device lives. -/
theorem Attended.lone (h : Attended heeds apart e) (hconfined : e.Confined) {monitor : Nat} {m : Monitor}
    (hm : e.backend.monitors[monitor]? = some m) (htimely : e.Timely monitor) :
    ¬ (e.backend.terminated monitor).Lives (identityKey m.device) := by
  have hkey : e.backend.keyOf monitor = some (identityKey m.device) := by rw [Backend.keyOf, hm]; rfl
  have hmonitor : e.backend.runs monitor (identityKey m.device) = true := by
    have hdirect := hconfined.monitors m (List.mem_of_getElem? hm)
    rw [Backend.runs, hm, Option.any_some, hdirect, beq_self_eq_true]
    rfl
  rintro ⟨other, hother, hruns⟩
  obtain ⟨hlive, hne⟩ := List.mem_filter.mp hother
  have hne := of_decide_eq_true hne
  have hruns : e.backend.runs other (identityKey m.device) = true := hruns
  obtain hlt | heq | hlt := Nat.lt_trichotomy other monitor
  · exact Bool.false_ne_true ((h.latest other hlive _ hruns monitor hlt).symm.trans hmonitor)
  · exact hne heq
  · exact htimely other (h.called other hlive) hlt ((keyOf_of_runs hruns).trans hkey.symm)

theorem Tended.terminated (h : Tended heeds apart e) {monitor : Nat} {m : Monitor}
    (hlone : heeds = true → ¬ (e.backend.terminated monitor).Lives (identityKey m.device)) :
    Tended heeds apart
      (Impl.post { e with backend := e.backend.terminated monitor } [.monitorEvent m.device monitor true]) where
  phased := h.phased.frame (fun p hother => pending_post _ _ hother) fun _ => rfl
  attended := by
    refine h.attended.retires rfl (fun other hother => (List.mem_filter.mp hother).1) fun key hlives => ?_
    have hbefore : e.backend.Lives key := by
      obtain ⟨other, hother, hruns⟩ := hlives
      exact ⟨other, (List.mem_filter.mp hother).1, hruns⟩
    have hsettle : settle heeds key (e.predicted heeds key) (.monitorEvent m.device monitor true) =
      e.predicted heeds key := by
      cases heeds with
      | false => rfl
      | true =>
        have hne : identityKey m.device ≠ key := fun heq => hlone rfl (heq ▸ hlives)
        simp [settle, hne]
    rw [List.foldl_cons, hsettle]
    exact h.attended.lives key hbefore

theorem Tended.step {action : Action} (h : Tended heeds apart e) (hrunning : e.Running) (hconfined : e.Confined)
    (hevent : heeds = true → ∀ monitor, action = .event monitor true → e.Timely monitor)
    (hstale : heeds = false → ∀ now refresh jitter device monitor batch,
    action = .control now refresh jitter → e.pc = .runs →
      e.batch = .monitorEvent device monitor true :: batch → (e.sessionFor device).phase = .active →
      ¬ e.backend.Lives (identityKey device))
    (hfree : apart = true → ∀ now refresh jitter, action = .control now refresh jitter → e.pc =
    .runs → e.batch = [] →
      ∀ command ∈ (e.monitorCommands now).2, command.action = .start →
      ∀ device pc, .disconnect device false pc ∈ e.workers → identityKey device ≠ identityKey command.identity)
    (hs : e.step action = some e') : Tended heeds apart e' := by
  cases action with
  | send command =>
    simp only [Impl.step] at hs
    split at hs
    · cases hs
    · obtain rfl := Option.some.inj hs
      exact h.post rfl fun _ _ => rfl
  | inventoryChanged =>
    obtain rfl := Option.some.inj hs
    exact h.post rfl fun _ _ => rfl
  | event monitor terminal =>
    simp only [Impl.step] at hs
    split at hs
    · cases hs
    · rename_i m hm
      obtain rfl := Option.some.inj hs
      cases terminal with
      | false => exact h.post rfl fun _ _ => by simp [settle]
      | true => exact h.terminated fun hheeds => h.attended.lone hconfined hm (hevent hheeds monitor rfl)
  | worker index reply => exact h.runWorker hs
  | control now refresh jitter =>
    obtain ⟨-, hbatch, rfl⟩ | ⟨job, batch, hruns, hbatch, rfl⟩ | ⟨hruns, hbatch, rfl⟩ :=
      control_cases hrunning hconfined.requested hs
    · refine h.frame ?_ rfl rfl rfl rfl
      rw [queue, queue, hbatch, List.append_nil]
      rfl
    · refine h.runJob hbatch (fun hheeds device monitor heq => ?_) now jitter
      subst heq
      exact hstale hheeds now refresh jitter device monitor batch rfl hruns hbatch
    · cases refresh with
      | false =>
        have hreconciled := h.reconcile hconfined.known now fun hapart => hfree hapart now false
          jitter rfl hruns hbatch
        exact hreconciled.frame rfl rfl rfl rfl rfl
      | true =>
        have hrefreshed := h.calm (calm_refreshInventory e)
        have hplain := plain_refreshInventory e
        have hknown : Known e.refreshInventory.selection := hplain.selection ▸ hconfined.known
        have hreconciled := hrefreshed.reconcile hknown now fun hapart command hcommand hstart device
          pc hmem => by
          rw [monitorCommands_refreshInventory] at hcommand
          refine hfree hapart now true jitter rfl hruns hbatch command hcommand hstart device pc ?_
          obtain ⟨new, hworkers, hnew⟩ := (calm_refreshInventory e).workers
          rw [hworkers] at hmem
          refine (List.mem_append.mp hmem).resolve_right fun hmem => ?_
          cases (hnew _ hmem).1
        exact hreconciled.frame rfl rfl rfl rfl rfl

theorem tended_new (inventoryEnabled : Bool) : Tended heeds apart (new inventoryEnabled) := by
  refine Tended.calm ?_ (calm_refreshInventory { inventoryEnabled })
  have hnone {α : Type} {p : Prop} (a : α) (hmem : a ∈ ([] : List α)) : p := absurd hmem List.not_mem_nil
  refine ⟨⟨fun _ => rfl, fun _ => rfl⟩, ⟨fun worker hmem => hnone worker hmem,
    fun monitor hmem => hnone monitor hmem,
    fun monitor hmem => hnone monitor hmem, fun _ _ hmem => hnone _ hmem, fun key hlives => ?_,
      fun worker hmem => hnone worker hmem,
    fun _ _ hmem => hnone _ hmem, fun _ _ _ hmem => hnone _ hmem⟩⟩
  obtain ⟨monitor, hmem, -⟩ := hlives
  exact hnone monitor hmem

-- ---------------------------------------------------------------------------
-- Without direct monitors
-- ---------------------------------------------------------------------------

/-- No terminal event is posted after a later start of its device. -/
def Timed (e : Impl) (action : Action) : Prop :=
  Confines action ∧ match action with
    | .event monitor true => e.Timely monitor
    | _ => True

instance (e : Impl) (action : Action) : Decidable (e.Timed action) :=
  have : Decidable (match action with | .event monitor true => e.Timely monitor | _ => True) :=
    match action with
    | .event monitor true => inferInstanceAs (Decidable (e.Timely monitor))
    | .event _ false | .send _ | .inventoryChanged | .worker _ _ | .control _ _ _ => isTrue trivial
  inferInstanceAs (Decidable (_ ∧ _))

theorem tended_of_timed {inventoryEnabled : Bool} (h : ReachesBy step Timed (new inventoryEnabled) e) :
    Tended true false e ∧ e.Running ∧ e.Confined := by
  refine h.invariant (I := fun e => Tended true false e ∧ e.Running ∧ e.Confined)
    ⟨tended_new _, running_new _, confined_new _⟩ ?_
  rintro e action e' ⟨htended, hrunning, hconfined⟩ ⟨hconfines, htimely⟩ hs
  refine ⟨htended.step hrunning hconfined (fun _ monitor heq => ?_) nofun nofun hs,
    hrunning.step (fun _ _ _ _ => hconfined.requested) hs, hconfined.step hrunning hconfines hs⟩
  subst heq
  exact htimely

/-- A call of a session's worker belongs to what is pending. -/
theorem Tended.pending_of_calls (h : Tended heeds apart e) (hconfined : e.Confined) {worker : Worker}
    {key : Key}
    (hmem : worker ∈ e.workers) (hcalls : worker.calls key = true) :
    (Op.starts key worker.op || Op.stops key worker.op) = true := by
  have hdirect := hconfined.workers worker hmem
  have hapt := h.attended.apt worker hmem
  cases worker with
  | start device direct monitor =>
    obtain rfl : direct = false := hdirect
    cases monitor with
    | none => cases hcalls
    | some monitor =>
      have hkey : identityKey device = key := of_decide_eq_true hcalls
      simp [Worker.op, Op.starts, hkey]
  | stop device direct calling =>
    obtain rfl : direct = false := hdirect
    cases calling with
    | false => cases hcalls
    | true =>
      have hkey : identityKey device = key := of_decide_eq_true hcalls
      simp [Worker.op, Op.stops, hkey]
  | disconnect device stopFirst pc =>
    cases pc with
    | stopping =>
      have hkey : identityKey device = key := of_decide_eq_true hcalls
      cases stopFirst with
      | false => obtain heq | heq := hapt <;> cases heq
      | true => simp [Worker.op, Op.stops, hkey]
    | stops | disconnects | disconnecting => cases hcalls
  | _ => cases hcalls

/-- At most one start or stop of a device is pending. -/
theorem Phased.pending_le (h : Phased .other e) (key : Key) : e.pending (Op.starts key) + e.pending
    (Op.stops key) ≤ 1 := by
  have hstarts := h.starts key
  have hstops := h.stops key
  rw [total_other rfl] at hstarts hstops
  cases hphase : (e.sessions key).phase <;>
    simp only [hphase, reduceCtorEq, if_true, if_false] at hstarts hstops <;> omega

theorem countP_calls_le (h : Tended heeds apart e) (hconfined : e.Confined) (key : Key) :
    e.workers.countP (Worker.calls key) ≤ 1 := by
  have hor (ops : List Op) : ops.countP (fun op => Op.starts key op || Op.stops key op) ≤
      ops.countP (Op.starts key) + ops.countP (Op.stops key) := by
    induction ops with
    | nil => exact Nat.le_refl _
    | cons op ops ih =>
      simp only [List.countP_cons]
      cases Op.starts key op <;> cases Op.stops key op <;> simp <;> omega
  calc e.workers.countP (Worker.calls key)
      ≤ e.workers.countP fun worker => Op.starts key worker.op || Op.stops key worker.op :=
        List.countP_mono_left fun worker hmem => h.pending_of_calls hconfined hmem
    _ = (e.workers.map Worker.op).countP fun op => Op.starts key op || Op.stops key op := by
        rw [List.countP_map]
        rfl
    _ ≤ (e.workers.map Worker.op).countP (Op.starts key) + (e.workers.map Worker.op).countP (Op.stops key) :=
      hor _
    _ ≤ e.pending (Op.starts key) + e.pending (Op.stops key) := Nat.add_le_add (Nat.le_add_right _ _)
      (Nat.le_add_right _ _)
    _ ≤ 1 := h.phased.pending_le key

/-- Where nothing is direct, every monitor that lives is one of a session. -/
theorem Confined.runs (h : e.Confined) {monitor : Nat} {key : Key} (hkey : e.backend.keyOf monitor = some key) :
    e.backend.runs monitor key = true := by
  obtain ⟨m, hm, rfl⟩ := Option.map_eq_some_iff.mp hkey
  have hdirect := h.monitors m (List.mem_of_getElem? hm)
  rw [Backend.runs, hm, Option.any_some, hdirect, beq_self_eq_true]
  rfl

/-- Calls of one device do not overlap, the phase says which is pending, and nothing lives that is
started anew. -/
theorem calls_alone {inventoryEnabled : Bool} (h : ReachesBy step Timed (new inventoryEnabled) e) (key : Key) :
    e.workers.countP (Worker.calls key) ≤ 1 ∧
    ((e.sessions key).phase = .starting ↔ 0 < e.pending (Op.starts key)) ∧
    ((e.sessions key).phase = .stopping ↔ 0 < e.pending (Op.stops key)) ∧
    ∀ device direct, .start device direct none ∈ e.workers → identityKey device = key →
      (∀ monitor ∈ e.backend.live, e.backend.keyOf monitor ≠ some key) ∧
      ∀ other direct' monitor, .start other direct' (some monitor) ∈ e.workers → identityKey other ≠ key := by
  obtain ⟨htended, -, hconfined⟩ := tended_of_timed h
  have hstarts := htended.phased.starts key
  have hstops := htended.phased.stops key
  rw [total_other rfl] at hstarts hstops
  refine ⟨countP_calls_le htended hconfined key, ⟨fun hphase => ?_, fun hpending => ?_⟩,
    ⟨fun hphase => ?_, fun hpending => ?_⟩, fun device direct hmem hkey => ⟨fun monitor hlive hmonitor => ?_,
      fun other direct' monitor hother hsame => ?_⟩⟩
  · rw [if_pos hphase] at hstarts
    omega
  · by_contra hphase
    rw [if_neg hphase] at hstarts
    omega
  · rw [if_pos hphase] at hstops
    omega
  · by_contra hphase
    rw [if_neg hphase] at hstops
    omega
  · obtain rfl : direct = false := hconfined.workers _ hmem
    exact htended.attended.starts _ hmem key (congrArg Op.start hkey) ⟨monitor, hlive, hconfined.runs hmonitor⟩
  · obtain rfl : direct = false := hconfined.workers _ hmem
    obtain rfl : direct' = false := hconfined.workers _ hother
    obtain ⟨left, right, hworkers⟩ := List.append_of_mem hmem
    have hop : (Worker.start other false (some monitor)).op = .start key := congrArg Op.start hsame
    refine htended.phased.unique hworkers (congrArg Op.start hkey) hop ?_
    rw [hworkers, List.mem_append, List.mem_cons] at hother
    obtain hleft | heq | hright := hother
    · exact List.mem_append_left _ hleft
    · cases heq
    · exact List.mem_append_right _ hright

/-- The first device's monitor starts, ends and is started again. -/
def restarted : List Action :=
  configured [phone] ++ [.worker 0 {}, .worker 0 {}, goesOn, goesOn, goesOn, .event 0 true, goesOn, goesOn,
    goesOnAt 5000]

theorem calls_alone_once : ∃ e : Impl, .start phone false none ∈ e.workers ∧
    ∀ monitor ∈ e.backend.live, e.backend.keyOf monitor ≠ some (identityKey phone) :=
  have h : ReachesBy step Timed (new true) _ := ReachesBy.of_isSome_by restarted (by decide +kernel)
  ⟨_, by decide +kernel, ((calls_alone h (identityKey phone)).2.2.2 phone false (by decide +kernel) rfl).1⟩

end Impl
end Dmn.Engine
