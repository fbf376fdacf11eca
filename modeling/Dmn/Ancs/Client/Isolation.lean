import Dmn.Ancs.Client.Machine

/-!
# Sessions one after the other

What is left when a session has been stopped, and what readiness stands for.
`start` clears nothing but flags, so a session begins with what the last one
has left. The writer publishes its results under `m_mutex` alone: one that
comes between the second clearing of `stop` and the shutdown flags stays, and
the next session takes it for its own.
-/

namespace Dmn.Ancs.Client

open Dmn.Lib

-- ---------------------------------------------------------------------------
-- Places
-- ---------------------------------------------------------------------------

inductive Phase
  | early
  | starting
  | failing
  | clearing
  -- `stop` has cleared the session data for the second time.
  | wiped
  | draining
  | joined

def ApiPc.phase : ApiPc → Phase
  | .idle | .stop | .clear | .lockWork => .early
  | .execWorker | .execControlPointWorker | .starting | .resolvingServices | .waitForServicesResolved
  | .resolved | .discoveringANCS | .discover | .controlPoint _ | .subscribingDataSource
  | .startNotifyData | .dataSubscription
  | .dataSubscribed | .subscribingNotificationSource | .startNotifyNotification | .notificationSubscription
  | .notificationSubscribed | .ready => .starting
  | .failStartup _ | .failCleanup _ | .failed => .failing
  | .clearAgain => .clearing
  | .stopping | .stopSubscriptions | .stopped | .shutdown | .cleanupError _ | .stopFailed => .wiped
  | .waitWorker => .draining
  | .waitControlPointWorker => .joined

/-- `start` has set `m_control_point_id`. -/
def ApiPc.hasControlPoint : ApiPc → Bool
  | .subscribingDataSource | .startNotifyData | .dataSubscription | .dataSubscribed
  | .subscribingNotificationSource | .startNotifyNotification | .notificationSubscription
  | .notificationSubscribed | .ready => true
  | _ => false

def ApiPc.hasDataSource : ApiPc → Bool
  | .dataSubscribed | .subscribingNotificationSource | .startNotifyNotification | .notificationSubscription
  | .notificationSubscribed | .ready => true
  | _ => false

def ApiPc.hasNotificationSource : ApiPc → Bool
  | .notificationSubscribed | .ready => true
  | _ => false

def ApiPc.shutsDown : ApiPc → Bool
  | .shutdown => true
  | _ => false

/-- A session may still be ready. -/
def ApiPc.leavesReady : ApiPc → Bool
  | .idle | .stop | .clear => true
  | _ => false

/-- Nothing that the worker does from here is about a session. -/
def WorkerPc.calm : WorkerPc → Bool
  | .off | .waits | .picked (.event _) | .picked .nothing | .works (.event _) | .works .nothing | .next => true
  | _ => false

/-- What the worker may still do after a `stop`. -/
def WorkerPc.shallow : WorkerPc → Bool
  | .off | .waits | .picked _ | .works _ | .fail _ | .next => true
  | _ => false

/-- Nor is this, a failure included. -/
def WorkerPc.quiet : WorkerPc → Bool
  | .off | .waits | .picked _ | .works _ | .fail _ | .next | .cleanup _ | .report _ => true
  | _ => false

/-- In `failRuntime`, past its first section. -/
def WorkerPc.cleaning : WorkerPc → Bool
  | .cleanup _ | .report _ => true
  | _ => false

def WriterPc.rests : WriterPc → Bool
  | .off | .waits => true
  | _ => false

-- ---------------------------------------------------------------------------
-- Invariant
-- ---------------------------------------------------------------------------

structure Blank (c : Client) : Prop where
  jobs : c.controlPointJobs = []
  records : ∀ uid, c.records uid = none
  pending : c.pendingRequests = []
  queued : ∀ uid, c.queuedUids uid = false
  active : c.activeRequest = none

structure Closed (c : Client) : Prop where
  ready : c.ready = false
  accept : c.acceptGattEvents = false

section
-- Whether every `stop` has found the results drained.
variable (drained : Prop)

/-- After a `stop`. -/
structure Rest (c : Client) : Prop extends c.Blank, c.Closed where
  results : drained → c.controlPointResults = []
  worker : c.worker = .off
  writer : c.writer = .off

structure Startup (c : Client) : Prop extends c.Blank where
  ready : c.ready = false
  results : drained → c.controlPointResults = []
  quiet : c.worker.quiet
  calm : drained → c.worker.calm
  rests : c.writer.rests

structure Opening (c : Client) : Prop where
  accept : c.acceptGattEvents
  device : c.deviceId ≠ ""
  state : c.state ≠ .failed ∧ c.state ≠ .ready
  controlPoint : c.api.hasControlPoint → c.controlPointId ≠ ""
  named : ∀ id, c.api = .controlPoint id → id ≠ ""
  dataSource : c.api.hasDataSource → c.dataSourceSubscription
  notificationSource : c.api.hasNotificationSource → c.notificationSourceSubscription

/-- What readiness stands for. -/
structure Ready (c : Client) : Prop where
  state : c.state = .ready
  accept : c.acceptGattEvents
  device : c.deviceId ≠ ""
  controlPoint : c.controlPointId ≠ ""
  dataSource : c.dataSourceSubscription
  notificationSource : c.notificationSourceSubscription

/-- `stop` waits for the threads. -/
structure Ending (c : Client) : Prop extends c.Blank, c.Closed where
  results : drained → c.controlPointResults = []
  state : c.state = .stopped
  shutdown : c.controlPointShutdown

def Phase.Holds (c : Client) : Phase → Prop
  | .early => (c.state = .stopped → c.Rest drained) ∧ (c.api = .lockWork → c.Closed)
  | .starting => c.Startup drained ∧ (drained → c.Opening)
  | .failing => c.Startup drained
  | .clearing => c.Closed ∧ c.worker.working = false
  | .wiped => c.Blank ∧ c.Closed ∧ c.worker.working = false ∧ (c.api = .shutdown → c.state = .stopped)
  | .draining => c.Ending drained ∧ c.worker.shallow
  | .joined => c.Ending drained ∧ c.worker = .off

structure Isolated (c : Client) : Prop where
  queue : c.acceptGattEvents = false → c.gattQueue = []
  workerOff : c.workerStarted = false → c.worker = .off
  writerOff : c.controlPointWorkerStarted = false → c.writer = .off
  leaves : c.ready → c.api.leavesReady
  ready : drained → c.ready → c.Ready
  cleaning : drained → c.worker.cleaning → c.state = .failed
  phase : c.api.phase.Holds drained c

end

/-- When `stop` is about to set the shutdown flags, no result of a write is left. -/
def Drained (c : Client) : Action → Prop
  | .api _ => c.api.shutsDown → c.controlPointResults = []
  | _ => True

instance (c : Client) (action : Action) : Decidable (c.Drained action) :=
  match action with
  | .api _ => inferInstanceAs (Decidable (c.api.shutsDown → c.controlPointResults = []))
  | .start .. | .callStop | .stop | .worker _ | .writer _ | .gattEvent .. | .tick => .isTrue trivial

/-- A call of `start` that is not refused because of the state. -/
def Starts (c : Client) : Action → Prop
  | .start .. => c.state = .stopped
  | _ => False

/-- `stop` sets the state to Stopped. -/
def Stops (c : Client) : Action → Prop
  | .api _ => c.api = .stopped
  | _ => False

variable {c c' : Client} {outcome : Outcome} {pc : ApiPc} {drained : Prop}

-- ---------------------------------------------------------------------------
-- Steps of `start` and `stop`
-- ---------------------------------------------------------------------------

/-- Such a step leaves the threads and the session data alone. -/
structure Keeps (c c' : Client) : Prop where
  accept : c'.acceptGattEvents = c.acceptGattEvents
  ready : c'.ready = c.ready
  queue : c'.gattQueue = c.gattQueue
  jobs : c'.controlPointJobs = c.controlPointJobs
  results : c'.controlPointResults = c.controlPointResults
  records : c'.records = c.records
  pending : c'.pendingRequests = c.pendingRequests
  queued : c'.queuedUids = c.queuedUids
  active : c'.activeRequest = c.activeRequest
  worker : c'.worker = c.worker
  writer : c'.writer = c.writer
  workerStarted : c'.workerStarted = c.workerStarted
  writerStarted : c'.controlPointWorkerStarted = c.controlPointWorkerStarted

theorem Blank.keeps (h : c.Blank) (hkeeps : c.Keeps c') : c'.Blank :=
  ⟨hkeeps.jobs ▸ h.jobs, hkeeps.records ▸ h.records, hkeeps.pending ▸ h.pending, hkeeps.queued ▸ h.queued,
    hkeeps.active ▸ h.active⟩

theorem Closed.keeps (h : c.Closed) (hkeeps : c.Keeps c') : c'.Closed :=
  ⟨hkeeps.ready ▸ h.ready, hkeeps.accept ▸ h.accept⟩

theorem Startup.keeps (h : c.Startup drained) (hkeeps : c.Keeps c') : c'.Startup drained :=
  ⟨h.toBlank.keeps hkeeps, hkeeps.ready ▸ h.ready, hkeeps.results ▸ h.results, hkeeps.worker ▸ h.quiet,
    hkeeps.worker ▸ h.calm, hkeeps.writer ▸ h.rests⟩

theorem WorkerPc.not_cleaning_of_calm {p : WorkerPc} (h : p.calm) : p.cleaning = false := by
  cases p <;> first | rfl | cases h

theorem WorkerPc.not_cleaning_of_idle {p : WorkerPc} (h : p.working = false) : p.cleaning = false := by
  cases p <;> first | rfl | cases h

theorem WorkerPc.shallow_of_idle {p : WorkerPc} (h : p.working = false) : p.shallow := by
  cases p <;> first | rfl | cases h

theorem WorkerPc.quiet_of_shallow {p : WorkerPc} (h : p.shallow) : p.quiet := by
  cases p <;> first | rfl | cases h

/-- A session that is not ready, and no failure that is under way. -/
theorem Isolated.next (h : c.Isolated drained) (hkeeps : c.Keeps c') (hready : c.ready = false)
    (hcleaning : drained → c.worker.cleaning → c'.state = .failed) (hphase : c'.api.phase.Holds drained c') :
    c'.Isolated drained where
  queue := by
    rw [hkeeps.accept, hkeeps.queue]
    exact h.queue
  workerOff := by
    rw [hkeeps.workerStarted, hkeeps.worker]
    exact h.workerOff
  writerOff := by
    rw [hkeeps.writerStarted, hkeeps.writer]
    exact h.writerOff
  leaves hr := by
    rw [hkeeps.ready, hready] at hr
    cases hr
  ready _ hr := by
    rw [hkeeps.ready, hready] at hr
    cases hr
  cleaning := hkeeps.worker ▸ hcleaning
  phase := hphase

/-- `start` goes on. -/
theorem Isolated.opens (h : c.Isolated drained) (hkeeps : c.Keeps c') (hphase : c.api.phase = .starting)
    (hphase' : c'.api.phase = .starting) (hopening : c.Opening → c'.Opening) : c'.Isolated drained := by
  obtain ⟨hstartup, hold⟩ : c.Startup drained ∧ (drained → c.Opening) := by
    have hholds := h.phase
    rw [hphase] at hholds
    exact hholds
  refine h.next hkeeps hstartup.ready (fun hd hcleaning => ?_) ?_
  · rw [WorkerPc.not_cleaning_of_calm (hstartup.calm hd)] at hcleaning
    cases hcleaning
  · rw [hphase']
    exact ⟨hstartup.keeps hkeeps, fun hd => hopening (hold hd)⟩

/-- `start` fails. -/
theorem Isolated.fails (h : c.Isolated drained) (hkeeps : c.Keeps c')
    (hphase : c.api.phase = .starting ∨ c.api.phase = .failing) (hphase' : c'.api.phase = .failing) :
    c'.Isolated drained := by
  have hstartup : c.Startup drained := by
    have hholds := h.phase
    rcases hphase with hphase | hphase
    · rw [hphase] at hholds
      exact hholds.1
    · rw [hphase] at hholds
      exact hholds
  refine h.next hkeeps hstartup.ready (fun hd hcleaning => ?_) ?_
  · rw [WorkerPc.not_cleaning_of_calm (hstartup.calm hd)] at hcleaning
    cases hcleaning
  · rw [hphase']
    exact hstartup.keeps hkeeps

/-- `stop` goes on, with `m_worker_work_mutex`. -/
theorem Isolated.wipes (h : c.Isolated drained) (hkeeps : c.Keeps c') (hphase : c.api.phase = .wiped)
    (hphase' : c'.api.phase = .wiped) (hstate : c'.api = .shutdown → c'.state = .stopped) :
    c'.Isolated drained := by
  obtain ⟨hblank, hclosed, hidle, -⟩ : c.Blank ∧ c.Closed ∧ c.worker.working = false ∧ _ := by
    have hholds := h.phase
    rw [hphase] at hholds
    exact hholds
  refine h.next hkeeps hclosed.ready (fun _ hcleaning => ?_) ?_
  · rw [WorkerPc.not_cleaning_of_idle hidle] at hcleaning
    cases hcleaning
  · rw [hphase']
    exact ⟨hblank.keeps hkeeps, hclosed.keeps hkeeps, hkeeps.worker ▸ hidle, hstate⟩

/-- An identifier that the services give is not empty. -/
theorem controlPointOf_ne {services : List Service} {id : String} (h : controlPointOf services = .ok id)
    (hids : ¬services.any fun service => service.characteristics.any fun characteristic =>
    characteristic.id.isEmpty) :
    id ≠ "" := by
  unfold controlPointOf at h
  split at h
  · cases h
  · split at h
    · rename_i source controlPoint dataSource hsource hcontrolPoint hdataSource
      split at h
      · obtain rfl := Except.ok.inj h
        rintro hempty
        refine hids ?_
        have hmem := List.mem_of_find?_eq_some hcontrolPoint
        rw [List.mem_reverse, List.mem_flatMap] at hmem
        obtain ⟨service, hservice, hmem⟩ := hmem
        refine List.any_eq_true.mpr ⟨service, (List.mem_filter.mp hservice).1, ?_⟩
        exact List.any_eq_true.mpr ⟨controlPoint, hmem, by rw [hempty]; rfl⟩
      · cases h
    · cases h

/-- A call into the GATT client. -/
theorem Isolated.goOn (h : c.Isolated drained) (hphase : c.api.phase = .starting)
    (hphase' : pc.phase = .starting)
    (hopening : c.Opening → { c with api := pc }.Opening) : (c.goOn outcome pc).Isolated drained := by
  unfold Client.goOn
  cases outcome.error with
  | none =>
    exact h.opens ⟨rfl, rfl, rfl, rfl, rfl, rfl, rfl, rfl, rfl, rfl, rfl, rfl, rfl⟩ hphase hphase' hopening
  | some error =>
    exact h.fails ⟨rfl, rfl, rfl, rfl, rfl, rfl, rfl, rfl, rfl, rfl, rfl, rfl, rfl⟩ (.inl hphase) rfl

theorem Isolated.checkCancelled (h : c.Isolated drained) (hphase : c.api.phase = .starting)
    (hphase' : pc.phase = .starting) (hopening : c.Opening → { c with api := pc }.Opening) :
    (c.checkCancelled pc).Isolated drained := by
  unfold Client.checkCancelled
  split
  · exact h.fails ⟨rfl, rfl, rfl, rfl, rfl, rfl, rfl, rfl, rfl, rfl, rfl, rfl, rfl⟩ (.inl hphase) rfl
  · exact h.opens ⟨rfl, rfl, rfl, rfl, rfl, rfl, rfl, rfl, rfl, rfl, rfl, rfl, rfl⟩ hphase hphase' hopening

/-- `start` sets the next state. -/
theorem Isolated.setsState {state : SessionState} (h : c.Isolated drained) (hphase : c.api.phase = .starting)
    (hphase' : pc.phase = .starting) (hstate : state ≠ .failed ∧ state ≠ .ready)
    (hopening : c.Opening → { c with api := pc }.Opening) :
    Isolated drained { c.setState state with api := pc } :=
  h.opens ⟨rfl, rfl, rfl, rfl, rfl, rfl, rfl, rfl, rfl, rfl, rfl, rfl, rfl⟩ hphase hphase' fun hold =>
    let hnew := hopening hold
    ⟨hnew.accept, hnew.device, hstate, hnew.controlPoint, hnew.named, hnew.dataSource, hnew.notificationSource⟩

/-- `start` comes to a place that stands for no more than the last one. -/
theorem Opening.moves (h : c.Opening) (hcontrolPoint : pc.hasControlPoint → c.api.hasControlPoint)
    (hnamed : ∀ id, pc ≠ .controlPoint id) (hdata : pc.hasDataSource → c.api.hasDataSource)
    (hnotification : pc.hasNotificationSource → c.api.hasNotificationSource) : { c with api := pc }.Opening :=
  ⟨h.accept, h.device, h.state, fun hpc => h.controlPoint (hcontrolPoint hpc),
    fun id hid => absurd hid (hnamed id),
    fun hpc => h.dataSource (hdata hpc), fun hpc => h.notificationSource (hnotification hpc)⟩

/-- Only readiness and its consequences are new. -/
theorem Isolated.becomesReady (h : c.Isolated drained) (hapi : c.api = .ready) :
    Isolated drained { { c with ready := true }.setState .ready with api := .idle } := by
  obtain ⟨hstartup, hopening⟩ : c.Startup drained ∧ (drained → c.Opening) := by
    have hholds := h.phase
    rw [hapi] at hholds
    exact hholds
  refine ⟨h.queue, h.workerOff, h.writerOff, fun _ => rfl, fun hd _ => ?_, fun hd hcleaning => ?_, nofun, nofun⟩
  · have hold := hopening hd
    exact ⟨rfl, hold.accept, hold.device, hold.controlPoint (by rw [hapi]; rfl), hold.dataSource (by
      rw [hapi]; rfl),
      hold.notificationSource (by rw [hapi]; rfl)⟩
  · have hcalm : c.worker.cleaning = true := hcleaning
    rw [WorkerPc.not_cleaning_of_calm (hstartup.calm hd)] at hcalm
    cases hcalm

/-- The first section of `stop`. -/
theorem Isolated.closes (h : c.Isolated drained) (hapi : c.api = .clear) :
    Isolated drained { c.close with api := .lockWork } := by
  refine ⟨fun _ => rfl, h.workerOff, h.writerOff, nofun, fun _ => nofun, h.cleaning, fun hstate => ?_,
    fun _ => ⟨rfl, rfl⟩⟩
  have hholds := h.phase
  rw [hapi] at hholds
  have hrest := hholds.1 hstate
  exact ⟨⟨rfl, fun _ => rfl, rfl, fun _ => rfl, rfl⟩, ⟨rfl, rfl⟩, fun _ => rfl, hrest.worker, hrest.writer⟩

/-- `stop` returns. -/
theorem Isolated.returns {started : Bool} (h : c.Isolated drained) (hapi : c.api = .waitControlPointWorker)
    (hwriter : c.writer = .off) : Isolated drained
    { c with controlPointWorkerStarted := started, api := .idle } := by
  obtain ⟨hending, hworker⟩ : c.Ending drained ∧ c.worker = .off := by
    have hholds := h.phase
    rw [hapi] at hholds
    exact hholds
  have hunready : c.ready = true → False := fun hready => by
    rw [hending.ready] at hready
    cases hready
  refine ⟨h.queue, h.workerOff, fun _ => hwriter, fun _ => rfl, fun _ hr => (hunready hr).elim,
    h.cleaning, fun _ => ?_,
    nofun⟩
  · have hblank := hending.toBlank
    exact ⟨⟨hblank.jobs, hblank.records, hblank.pending, hblank.queued, hblank.active⟩,
      ⟨hending.ready, hending.accept⟩, hending.results, hworker, hwriter⟩

/-- The worker has ended. -/
theorem Isolated.joins {started : Bool} (h : c.Isolated drained) (hapi : c.api = .waitWorker)
    (hworker : c.worker = .off) : Isolated drained
    { c with workerStarted := started, api := .waitControlPointWorker } := by
  obtain ⟨hending, -⟩ : c.Ending drained ∧ _ := by
    have hholds := h.phase
    rw [hapi] at hholds
    exact hholds
  have hunready : c.ready = true → False := fun hready => by
    rw [hending.ready] at hready
    cases hready
  refine ⟨h.queue, fun _ => hworker, h.writerOff, fun hr => (hunready hr).elim, fun _ hr => (hunready hr).elim,
    h.cleaning, ?_, hworker⟩
  · have hblank := hending.toBlank
    exact ⟨⟨hblank.jobs, hblank.records, hblank.pending, hblank.queued, hblank.active⟩,
      ⟨hending.ready, hending.accept⟩, hending.results, hending.state, hending.shutdown⟩

/-- A thread of a new session. -/
theorem Isolated.execs (h : c.Isolated drained) (hphase : c.api.phase = .starting)
    (hphase' : c'.api.phase = .starting)
    (hopening : c.Opening → c'.Opening) (hready : c'.ready = c.ready) (hqueue : c'.gattQueue = c.gattQueue)
    (haccept : c'.acceptGattEvents = c.acceptGattEvents) (hblank : c.Blank → c'.Blank)
    (hresults : c'.controlPointResults = c.controlPointResults) (hcalm : c.worker.calm → c'.worker.calm)
    (hquiet : c.worker.quiet → c'.worker.quiet) (hrests : c.writer.rests → c'.writer.rests)
    (hworker : c'.workerStarted = false → c'.worker = .off)
    (hwriter : c'.controlPointWorkerStarted = false → c'.writer = .off) : c'.Isolated drained := by
  obtain ⟨hstartup, hold⟩ : c.Startup drained ∧ (drained → c.Opening) := by
    have hholds := h.phase
    rw [hphase] at hholds
    exact hholds
  have hunready : c'.ready = true → False := fun hr => by
    rw [hready, hstartup.ready] at hr
    cases hr
  refine ⟨by rw [haccept, hqueue]; exact h.queue, hworker, hwriter, fun hr => (hunready hr).elim,
    fun _ hr => (hunready hr).elim, fun hd hcleaning => ?_, ?_⟩
  · rw [WorkerPc.not_cleaning_of_calm (hcalm (hstartup.calm hd))] at hcleaning
    cases hcleaning
  · rw [hphase']
    exact ⟨⟨hblank hstartup.toBlank, hready ▸ hstartup.ready, hresults ▸ hstartup.results,
      hquiet hstartup.quiet,
      fun hd => hcalm (hstartup.calm hd), hrests hstartup.rests⟩, fun hd => hopening (hold hd)⟩

theorem Isolated.runApi (h : c.Isolated drained) (hdrained : drained → c.Drained (.api outcome))
    (hs : c.runApi outcome = some c') : c'.Isolated drained := by
  unfold Client.runApi at hs
  split at hs
  · cases hs
  · rename_i hapi
    obtain rfl := Option.some.inj hs
    have hphase : c.api.phase = .starting := by rw [hapi]; rfl
    have hmoves : c.Opening → { c with api := .execControlPointWorker }.Opening :=
      fun hold => hold.moves nofun nofun nofun nofun
    split
    · exact h.opens (by constructor <;> rfl) hphase rfl hmoves
    · split
      · exact h.fails (by constructor <;> rfl) (.inl hphase) rfl
      · exact h.execs hphase rfl
          (fun hold => let hnew := hmoves hold
            ⟨hnew.accept, hnew.device, hnew.state, nofun, nofun, nofun, nofun⟩)
          rfl rfl rfl (fun hblank => ⟨hblank.jobs, hblank.records, hblank.pending, hblank.queued,
            hblank.active⟩)
          rfl (fun _ => rfl) (fun _ => rfl) id nofun h.writerOff
  · rename_i hapi
    obtain rfl := Option.some.inj hs
    have hphase : c.api.phase = .starting := by rw [hapi]; rfl
    have hmoves : c.Opening → { c with api := .starting }.Opening :=
      fun hold => hold.moves nofun nofun nofun nofun
    split
    · exact h.opens (by constructor <;> rfl) hphase rfl hmoves
    · split
      · exact h.fails (by constructor <;> rfl) (.inl hphase) rfl
      · exact h.execs hphase rfl
          (fun hold => let hnew := hmoves hold
            ⟨hnew.accept, hnew.device, hnew.state, nofun, nofun, nofun, nofun⟩)
          rfl rfl rfl (fun hblank => ⟨hblank.jobs, hblank.records, hblank.pending, hblank.queued,
            hblank.active⟩)
          rfl id id (fun _ => rfl) h.workerOff nofun
  · rename_i hapi
    obtain rfl := Option.some.inj hs
    exact h.setsState (by rw [hapi]; rfl) rfl (by decide) fun hold => hold.moves nofun nofun nofun nofun
  · rename_i hapi
    obtain rfl := Option.some.inj hs
    exact h.setsState (by rw [hapi]; rfl) rfl (by decide) fun hold => hold.moves nofun nofun nofun nofun
  · rename_i hapi
    obtain rfl := Option.some.inj hs
    exact h.goOn (by rw [hapi]; rfl) rfl fun hold => hold.moves nofun nofun nofun nofun
  · rename_i hapi
    obtain rfl := Option.some.inj hs
    exact h.checkCancelled (by rw [hapi]; rfl) rfl fun hold => hold.moves nofun nofun nofun nofun
  · rename_i hapi
    obtain rfl := Option.some.inj hs
    exact h.setsState (by rw [hapi]; rfl) rfl (by decide) fun hold => hold.moves nofun nofun nofun nofun
  · rename_i hapi
    have hphase : c.api.phase = .starting := by rw [hapi]; rfl
    split at hs
    · cases hs
    · rename_i hids
      obtain rfl := Option.some.inj hs
      split
      · exact h.fails (by constructor <;> rfl) (.inl hphase) rfl
      · exact h.fails (by constructor <;> rfl) (.inl hphase) rfl
      · rename_i id hid
        refine h.opens (by constructor <;> rfl) hphase rfl fun hold => ?_
        refine ⟨hold.accept, hold.device, hold.state, nofun, fun id' hid' => ?_, nofun, nofun⟩
        obtain rfl := ApiPc.controlPoint.inj hid'
        exact controlPointOf_ne hid hids
  · rename_i id hapi
    obtain rfl := Option.some.inj hs
    exact h.opens (by constructor <;> rfl) (by rw [hapi]; rfl) rfl fun hold =>
      ⟨hold.accept, hold.device, hold.state, fun _ => hold.named id hapi, nofun, nofun, nofun⟩
  · rename_i hapi
    obtain rfl := Option.some.inj hs
    exact h.setsState (by rw [hapi]; rfl) rfl (by decide) fun hold =>
      hold.moves (fun _ => by rw [hapi]; rfl) nofun nofun nofun
  · rename_i hapi
    obtain rfl := Option.some.inj hs
    exact h.goOn (by rw [hapi]; rfl) rfl fun hold => hold.moves (fun _ => by rw [hapi]; rfl) nofun nofun nofun
  · rename_i hapi
    obtain rfl := Option.some.inj hs
    exact h.opens (by constructor <;> rfl) (by rw [hapi]; rfl) rfl fun hold =>
      ⟨hold.accept, hold.device, hold.state, fun _ => hold.controlPoint (by rw [hapi]; rfl), nofun,
        fun _ => rfl, nofun⟩
  · rename_i hapi
    obtain rfl := Option.some.inj hs
    exact h.checkCancelled (by rw [hapi]; rfl) rfl fun hold =>
      hold.moves (fun _ => by rw [hapi]; rfl) nofun (fun _ => by rw [hapi]; rfl) nofun
  · rename_i hapi
    obtain rfl := Option.some.inj hs
    exact h.setsState (by rw [hapi]; rfl) rfl (by decide) fun hold =>
      hold.moves (fun _ => by rw [hapi]; rfl) nofun (fun _ => by rw [hapi]; rfl) nofun
  · rename_i hapi
    obtain rfl := Option.some.inj hs
    exact h.goOn (by rw [hapi]; rfl) rfl fun hold =>
      hold.moves (fun _ => by rw [hapi]; rfl) nofun (fun _ => by rw [hapi]; rfl) nofun
  · rename_i hapi
    obtain rfl := Option.some.inj hs
    exact h.opens (by constructor <;> rfl) (by rw [hapi]; rfl) rfl fun hold =>
      ⟨hold.accept, hold.device, hold.state, fun _ => hold.controlPoint (by rw [hapi]; rfl), nofun,
        fun _ => hold.dataSource (by rw [hapi]; rfl), fun _ => rfl⟩
  · rename_i hapi
    obtain rfl := Option.some.inj hs
    exact h.checkCancelled (by rw [hapi]; rfl) rfl fun hold =>
      hold.moves (fun _ => by rw [hapi]; rfl) nofun (fun _ => by rw [hapi]; rfl) (fun _ => by rw [hapi]; rfl)
  · rename_i hapi
    obtain rfl := Option.some.inj hs
    exact h.becomesReady hapi
  · rename_i error hapi
    obtain rfl := Option.some.inj hs
    obtain ⟨-, hready, hresults, hquiet, hcalm, hrests⟩ : c.Startup drained := by
      have hholds := h.phase
      rw [hapi] at hholds
      exact hholds
    refine ⟨fun _ => rfl, h.workerOff, h.writerOff, nofun, fun _ => nofun, fun hd hcleaning => ?_,
      ⟨rfl, fun _ => rfl, rfl, fun _ => rfl, rfl⟩, rfl, fun _ => rfl, hquiet, hcalm, hrests⟩
    have hnot : c.worker.cleaning = true := hcleaning
    rw [WorkerPc.not_cleaning_of_calm (hcalm hd)] at hnot
    cases hnot
  · rename_i error hapi
    obtain rfl := Option.some.inj hs
    exact h.fails (by constructor <;> rfl) (.inr (by rw [hapi]; rfl)) rfl
  · rename_i hapi
    obtain rfl := Option.some.inj hs
    have hstartup : c.Startup drained := by
      have hholds := h.phase
      rw [hapi] at hholds
      exact hholds
    exact h.next (by constructor <;> rfl) hstartup.ready (fun _ _ => rfl) ⟨nofun, nofun⟩
  · rename_i hapi
    obtain rfl := Option.some.inj hs
    obtain ⟨hrest, -⟩ : (c.state = .stopped → c.Rest drained) ∧ _ := by
      have hholds := h.phase
      rw [hapi] at hholds
      exact hholds
    have hstays : ∀ {pc}, pc.leavesReady → pc.phase = .early → Isolated drained { c with api := pc } := by
      intro pc hpc hphase
      refine ⟨h.queue, h.workerOff, h.writerOff, fun _ => hpc, fun hd hready => ?_, h.cleaning, ?_⟩
      · have hold := h.ready hd hready
        exact ⟨hold.state, hold.accept, hold.device, hold.controlPoint, hold.dataSource,
          hold.notificationSource⟩
      · rw [hphase]
        refine ⟨fun hstate => ?_, fun hlock => ?_⟩
        · obtain ⟨hblank, hclosed, hresults, hworker, hwriter⟩ := hrest hstate
          exact ⟨⟨hblank.jobs, hblank.records, hblank.pending, hblank.queued, hblank.active⟩,
            ⟨hclosed.ready, hclosed.accept⟩, hresults, hworker, hwriter⟩
        · rw [show pc = .lockWork from hlock] at hpc
          cases hpc
    split
    · exact hstays rfl rfl
    · exact hstays rfl rfl
  · rename_i hapi
    obtain rfl := Option.some.inj hs
    exact h.closes hapi
  · rename_i hapi
    split at hs
    · cases hs
    · rename_i hidle
      obtain rfl := Option.some.inj hs
      have hclosed : c.Closed := by
        have hholds := h.phase
        rw [hapi] at hholds
        exact hholds.2 hapi
      exact h.next (by constructor <;> rfl) hclosed.ready h.cleaning
        ⟨⟨hclosed.ready, hclosed.accept⟩, by simpa using hidle⟩
  · rename_i hapi
    obtain rfl := Option.some.inj hs
    obtain ⟨hclosed, hidle⟩ : c.Closed ∧ c.worker.working = false := by
      have hholds := h.phase
      rw [hapi] at hholds
      exact hholds
    have hunready : c.ready = true → False := fun hready => by
      rw [hclosed.ready] at hready
      cases hready
    exact ⟨fun _ => rfl, h.workerOff, h.writerOff, fun hr => (hunready hr).elim, fun _ hr => (hunready hr).elim,
      h.cleaning, ⟨rfl, fun _ => rfl, rfl, fun _ => rfl, rfl⟩, ⟨hclosed.ready, hclosed.accept⟩, hidle, nofun⟩
  · rename_i hapi
    obtain rfl := Option.some.inj hs
    exact h.wipes (by constructor <;> rfl) (by rw [hapi]; rfl) rfl nofun
  · rename_i hapi
    have hphase : c.api.phase = .wiped := by rw [hapi]; rfl
    split at hs
    · cases hs
    · obtain rfl := Option.some.inj hs
      refine h.wipes (by constructor <;> rfl) hphase ?_ ?_
      · dsimp only
        split <;> rfl
      · dsimp only
        split <;> exact nofun
  · rename_i hapi
    obtain rfl := Option.some.inj hs
    exact h.wipes (by constructor <;> rfl) (by rw [hapi]; rfl) rfl fun _ => rfl
  · rename_i hapi
    obtain rfl := Option.some.inj hs
    obtain ⟨hblank, hclosed, hidle, hstate⟩ : c.Blank ∧ c.Closed ∧ c.worker.working = false ∧ _ := by
      have hholds := h.phase
      rw [hapi] at hholds
      exact hholds
    have hunready : c.ready = true → False := fun hready => by
      rw [hclosed.ready] at hready
      cases hready
    refine ⟨h.queue, h.workerOff, h.writerOff, fun hr => (hunready hr).elim,
      fun _ hr => (hunready hr).elim, h.cleaning,
      ?_, ?_⟩
    · exact ⟨⟨rfl, hblank.records, hblank.pending, hblank.queued, hblank.active⟩, ⟨hclosed.ready,
        hclosed.accept⟩,
        fun hd => hdrained hd (by rw [hapi]; rfl), hstate hapi, rfl⟩
    · exact WorkerPc.shallow_of_idle hidle
  · rename_i hapi
    split at hs
    · split at hs
      · rename_i hoff
        obtain rfl := Option.some.inj hs
        exact h.joins hapi hoff
      · cases hs
    · rename_i hstarted
      obtain rfl := Option.some.inj hs
      exact h.joins hapi (h.workerOff (by simpa using hstarted))
  · rename_i hapi
    split at hs
    · split at hs
      · rename_i hoff
        obtain rfl := Option.some.inj hs
        exact h.returns hapi hoff
      · cases hs
    · rename_i hstarted
      obtain rfl := Option.some.inj hs
      exact h.returns hapi (h.writerOff (by simpa using hstarted))
  · rename_i error hapi
    obtain rfl := Option.some.inj hs
    exact h.wipes (by constructor <;> rfl) (by rw [hapi]; rfl) rfl nofun
  · rename_i hapi
    obtain rfl := Option.some.inj hs
    obtain ⟨-, hclosed, hidle, -⟩ : c.Blank ∧ c.Closed ∧ c.worker.working = false ∧ _ := by
      have hholds := h.phase
      rw [hapi] at hholds
      exact hholds
    exact h.next (by constructor <;> rfl) hclosed.ready (fun _ _ => rfl) ⟨nofun, nofun⟩

-- ---------------------------------------------------------------------------
-- Steps of the event worker
-- ---------------------------------------------------------------------------

/-- What the worker leaves alone, but for a failure. -/
structure Works (c c' : Client) : Prop where
  api : c'.api = c.api
  state : c'.state = c.state
  ready : c'.ready = c.ready
  accept : c'.acceptGattEvents = c.acceptGattEvents
  device : c'.deviceId = c.deviceId
  controlPoint : c'.controlPointId = c.controlPointId
  dataSource : c'.dataSourceSubscription = c.dataSourceSubscription
  notificationSource : c'.notificationSourceSubscription = c.notificationSourceSubscription
  writer : c'.writer = c.writer
  shutdown : c'.controlPointShutdown = c.controlPointShutdown
  workerStarted : c'.workerStarted = c.workerStarted
  writerStarted : c'.controlPointWorkerStarted = c.controlPointWorkerStarted
  queue : c.gattQueue = [] → c'.gattQueue = []

theorem Works.refl (c : Client) : c.Works c := ⟨rfl, rfl, rfl, rfl, rfl, rfl, rfl, rfl, rfl, rfl, rfl, rfl, id⟩

theorem Works.goes (h : c.Works c') (worker : WorkerPc) : c.Works { c' with worker } :=
  ⟨h.api, h.state, h.ready, h.accept, h.device, h.controlPoint, h.dataSource, h.notificationSource, h.writer,
    h.shutdown, h.workerStarted, h.writerStarted, h.queue⟩

theorem Works.trans {c'' : Client} (h : c.Works c') (h' : c'.Works c'') : c.Works c'' :=
  ⟨h'.api.trans h.api, h'.state.trans h.state, h'.ready.trans h.ready, h'.accept.trans h.accept,
    h'.device.trans h.device, h'.controlPoint.trans h.controlPoint, h'.dataSource.trans h.dataSource,
    h'.notificationSource.trans h.notificationSource, h'.writer.trans h.writer, h'.shutdown.trans h.shutdown,
    h'.workerStarted.trans h.workerStarted, h'.writerStarted.trans h.writerStarted, h'.queue ∘ h.queue⟩

/-- The requests change. -/
theorem Works.requests (h : c.Works c') (pendingRequests : List UInt32) (queuedUids : UInt32 → Bool)
    (activeRequest : Option ActiveRequest) (backlogLimitReported : Bool) :
    c.Works { c' with pendingRequests, queuedUids, activeRequest, backlogLimitReported } :=
  ⟨h.api, h.state, h.ready, h.accept, h.device, h.controlPoint, h.dataSource, h.notificationSource, h.writer,
    h.shutdown, h.workerStarted, h.writerStarted, h.queue⟩

/-- The worker takes something, unless it ends. -/
theorem take_worker (hs : c.take = some c') : c'.worker = .off ∨ ∃ item, c'.worker = .picked item := by
  unfold take at hs
  split at hs
  · obtain rfl := Option.some.inj hs
    exact .inl rfl
  · split at hs
    · obtain rfl := Option.some.inj hs
      exact .inr ⟨_, rfl⟩
    · obtain rfl := Option.some.inj hs
      exact .inr ⟨_, rfl⟩
    · obtain rfl := Option.some.inj hs
      exact .inr ⟨_, rfl⟩
    · obtain rfl := Option.some.inj hs
      exact .inr ⟨_, rfl⟩
    · split at hs
      · obtain rfl := Option.some.inj hs
        exact .inr ⟨_, rfl⟩
      · cases hs
    · split at hs
      · obtain rfl := Option.some.inj hs
        exact .inr ⟨_, rfl⟩
      · cases hs

theorem processGattPacket_not_cleaning (c : Client) (packet : GattPacket) :
    (c.processGattPacket packet).cleaning = false := by
  unfold processGattPacket
  split
  · rfl
  · split
    · rfl
    · rfl
    · split
      · rfl
      · split
        · split <;> rfl
        · rfl

theorem take_works (hs : c.take = some c') : c.Works c' := by
  unfold take at hs
  split at hs
  · obtain rfl := Option.some.inj hs
    exact (Works.refl c).goes _
  · split at hs
    · obtain rfl := Option.some.inj hs
      exact ⟨rfl, rfl, rfl, rfl, rfl, rfl, rfl, rfl, rfl, rfl, rfl, rfl, id⟩
    · rename_i hqueue
      obtain rfl := Option.some.inj hs
      refine ⟨rfl, rfl, rfl, rfl, rfl, rfl, rfl, rfl, rfl, rfl, rfl, rfl, fun hempty => ?_⟩
      rw [hqueue] at hempty
      cases hempty
    · obtain rfl := Option.some.inj hs
      exact ⟨rfl, rfl, rfl, rfl, rfl, rfl, rfl, rfl, rfl, rfl, rfl, rfl, id⟩
    · obtain rfl := Option.some.inj hs
      exact ⟨rfl, rfl, rfl, rfl, rfl, rfl, rfl, rfl, rfl, rfl, rfl, rfl, id⟩
    · split at hs
      · obtain rfl := Option.some.inj hs
        exact (Works.refl c).goes _
      · cases hs
    · split at hs
      · obtain rfl := Option.some.inj hs
        exact (Works.refl c).goes _
      · cases hs

theorem acknowledge_works (c : Client) (uid : UInt32) : c.Works (c.acknowledgeControlPointWrite uid) := by
  unfold acknowledgeControlPointWrite
  split
  · exact .refl c
  · split
    · exact ⟨rfl, rfl, rfl, rfl, rfl, rfl, rfl, rfl, rfl, rfl, rfl, rfl, id⟩
    · exact .refl c

theorem setRecord_works (c : Client) (uid : UInt32) (record : Option NotificationRecord) :
    c.Works (c.setRecord uid record) :=
  ⟨rfl, rfl, rfl, rfl, rfl, rfl, rfl, rfl, rfl, rfl, rfl, rfl, id⟩

theorem note_works (c : Client) (entry : Entry) : c.Works (c.note entry) :=
  ⟨rfl, rfl, rfl, rfl, rfl, rfl, rfl, rfl, rfl, rfl, rfl, rfl, id⟩

theorem pushPending_works (c : Client) (uid : UInt32) : c.Works (c.pushPending uid) :=
  (Works.refl c).requests _ _ _ _

theorem dropPending_works (c : Client) : c.Works c.dropPending.1 := by
  unfold dropPending
  dsimp only
  split
  · split
    · exact .refl c
    · exact ((setRecord_works c _ none).requests _ _ _ _).trans (note_works _ _)
  · exact (Works.refl c).requests _ _ _ _

theorem addNotification_works (c : Client) (notification : Notification) :
    c.Works (c.addNotification notification).1 := by
  have hnoted := (setRecord_works c notification.uid (some (c.recordOf notification))).trans
    (note_works _ (.event notification))
  unfold addNotification
  dsimp only
  split
  · exact (hnoted.trans (dropPending_works _)).trans (pushPending_works _ _)
  · exact hnoted

theorem removeNotification_works (c : Client) (notification : Notification) :
    c.Works (c.removeNotification notification).1 :=
  ((setRecord_works c notification.uid none).requests _ _ _ _).trans (note_works _ _)

theorem recordAttributes_works (c : Client) (uid : UInt32) (attributes : AttributeSet) :
    c.Works (c.recordAttributes uid attributes).1 := by
  unfold recordAttributes
  split
  · exact .refl c
  · exact setRecord_works c uid _

theorem markUnavailable_works (c : Client) (uid : UInt32) (error : Error) :
    c.Works (c.markUnavailable uid error).1 := by
  unfold markUnavailable
  split
  · exact (setRecord_works c uid _).trans (note_works _ _)
  · exact note_works c _

theorem failTimedOutRequest_works (c : Client) : c.Works c.failTimedOutRequest.1 := by
  unfold failTimedOutRequest
  split
  · exact .refl c
  · split
    · exact ((setRecord_works c _ _).requests _ _ _ _).trans (note_works _ _)
    · exact .refl c

theorem startNextRequest_works (c : Client) : c.Works c.startNextRequest.1 := by
  unfold startNextRequest
  split
  · dsimp only
    split
    · exact ⟨rfl, rfl, rfl, rfl, rfl, rfl, rfl, rfl, rfl, rfl, rfl, rfl, id⟩
    · split <;> exact ⟨rfl, rfl, rfl, rfl, rfl, rfl, rfl, rfl, rfl, rfl, rfl, rfl, id⟩
  · exact .refl c

theorem processDataSourceValue_works (c : Client) (value : List UInt8) :
    c.Works (c.processDataSourceValue value) := by
  unfold processDataSourceValue
  split
  · exact (Works.refl c).goes _
  · exact ⟨rfl, rfl, rfl, rfl, rfl, rfl, rfl, rfl, rfl, rfl, rfl, rfl, id⟩

/-- The worker works, or it is in the first two sections of `failRuntime`. -/
theorem runWorker_cases (hs : c.runWorker outcome = some c') :
    (c.Works c' ∧ c'.worker.cleaning = false) ∨
      (∃ error, c.worker = .fail error ∧ (c.state ≠ .failed ∧ c.state ≠ .stopped) ∧
        c' = { c.close with state := .failed, worker := .cleanup error }) ∨
      ∃ error error', c.worker = .cleanup error ∧
        c' = { (c.stopSubscriptions outcome).1 with worker := .report error' } := by
  unfold Client.runWorker at hs
  split at hs
  · cases hs
  · refine .inl ⟨take_works hs, ?_⟩
    rcases take_worker hs with hworker | ⟨item, hworker⟩ <;> rw [hworker] <;> rfl
  · split at hs
    · cases hs
    · obtain rfl := Option.some.inj hs
      exact .inl ⟨(Works.refl c).goes _, rfl⟩
  · obtain rfl := Option.some.inj hs
    exact .inl ⟨(Works.refl c).goes _, rfl⟩
  · rename_i packet hworker
    obtain rfl := Option.some.inj hs
    exact .inl ⟨(Works.refl c).goes _, processGattPacket_not_cleaning c packet⟩
  · obtain rfl := Option.some.inj hs
    split
    · exact .inl ⟨(Works.refl c).goes _, rfl⟩
    · exact .inl ⟨(acknowledge_works c _).goes _, rfl⟩
  · obtain rfl := Option.some.inj hs
    refine .inl ⟨(Works.refl c).goes _, ?_⟩
    dsimp only
    split <;> rfl
  · rename_i notification hworker
    obtain rfl := Option.some.inj hs
    split
    · refine .inl ⟨(removeNotification_works c notification).goes _, ?_⟩
      dsimp only
      split <;> rfl
    · refine .inl ⟨(addNotification_works c notification).goes _, ?_⟩
      dsimp only
      split <;> rfl
  · rename_i value hworker
    obtain rfl := Option.some.inj hs
    refine .inl ⟨processDataSourceValue_works c value, ?_⟩
    unfold processDataSourceValue
    split
    · rfl
    · dsimp only
      split
      · split <;> rfl
      · rfl
      · split <;> rfl
  · rename_i uid attributes hworker
    obtain rfl := Option.some.inj hs
    refine .inl ⟨(recordAttributes_works c uid attributes).goes _, ?_⟩
    dsimp only
    split <;> rfl
  · rename_i uid error after hworker
    obtain rfl := Option.some.inj hs
    exact .inl ⟨(markUnavailable_works c uid error).goes _, rfl⟩
  · rename_i event after hworker
    obtain rfl := Option.some.inj hs
    refine .inl ⟨⟨rfl, rfl, rfl, rfl, rfl, rfl, rfl, rfl, rfl, rfl, rfl, rfl, id⟩, ?_⟩
    cases after <;> rfl
  · obtain rfl := Option.some.inj hs
    exact .inl ⟨⟨rfl, rfl, rfl, rfl, rfl, rfl, rfl, rfl, rfl, rfl, rfl, rfl, id⟩, rfl⟩
  · obtain rfl := Option.some.inj hs
    refine .inl ⟨(failTimedOutRequest_works c).goes _, ?_⟩
    dsimp only
    split <;> rfl
  · rename_i error hworker
    obtain rfl := Option.some.inj hs
    split
    · exact .inl ⟨(Works.refl c).goes _, rfl⟩
    · rename_i hstate
      exact .inr (.inl ⟨error, hworker, not_or.mp hstate, rfl⟩)
  · rename_i error hworker
    split at hs
    · cases hs
    · split at hs
      · cases hs
      · obtain rfl := Option.some.inj hs
        exact .inr (.inr ⟨error, _, hworker, rfl⟩)
  · obtain rfl := Option.some.inj hs
    exact .inl ⟨⟨rfl, rfl, rfl, rfl, rfl, rfl, rfl, rfl, rfl, rfl, rfl, rfl, id⟩, rfl⟩
  · obtain rfl := Option.some.inj hs
    refine .inl ⟨(startNextRequest_works c).goes _, ?_⟩
    dsimp only
    split <;> rfl
  · obtain rfl := Option.some.inj hs
    split
    · exact .inl ⟨(Works.refl c).goes _, rfl⟩
    · exact .inl ⟨⟨rfl, rfl, rfl, rfl, rfl, rfl, rfl, rfl, rfl, rfl, rfl, rfl, id⟩, rfl⟩

/-- Taking something does not touch what `Blank` is about. -/
theorem Blank.take (h : c.Blank) (hs : c.take = some c') : c'.Blank := by
  unfold Client.take at hs
  split at hs
  · obtain rfl := Option.some.inj hs
    exact ⟨h.jobs, h.records, h.pending, h.queued, h.active⟩
  · split at hs
    · obtain rfl := Option.some.inj hs
      exact ⟨h.jobs, h.records, h.pending, h.queued, h.active⟩
    · obtain rfl := Option.some.inj hs
      exact ⟨h.jobs, h.records, h.pending, h.queued, h.active⟩
    · obtain rfl := Option.some.inj hs
      exact ⟨h.jobs, h.records, h.pending, h.queued, h.active⟩
    · obtain rfl := Option.some.inj hs
      exact ⟨h.jobs, h.records, h.pending, h.queued, h.active⟩
    · split at hs
      · obtain rfl := Option.some.inj hs
        exact ⟨h.jobs, h.records, h.pending, h.queued, h.active⟩
      · cases hs
    · split at hs
      · obtain rfl := Option.some.inj hs
        exact ⟨h.jobs, h.records, h.pending, h.queued, h.active⟩
      · cases hs

/-- Without a session only events are left to take. -/
theorem take_calm (hready : c.ready = false) (hresults : c.controlPointResults = []) (hs : c.take = some c') :
    c'.controlPointResults = [] ∧ c'.worker.calm := by
  unfold Client.take at hs
  split at hs
  · obtain rfl := Option.some.inj hs
    exact ⟨hresults, rfl⟩
  · split at hs
    · obtain rfl := Option.some.inj hs
      exact ⟨hresults, rfl⟩
    · rename_i hr _
      rw [hready] at hr
      cases hr
    · rename_i hr _ _
      rw [hready] at hr
      cases hr
    · rename_i hr
      rw [hresults] at hr
      cases hr
    · rename_i hr _ _
      rw [hready] at hr
      cases hr
    · split at hs
      · obtain rfl := Option.some.inj hs
        exact ⟨hresults, rfl⟩
      · cases hs

/-- Without a session the worker fails at most. -/
theorem Blank.worker (h : c.Blank) (hready : c.ready = false) (hquiet : c.worker.quiet)
    (hs : c.runWorker outcome = some c') :
    c'.Blank ∧ c'.worker.quiet ∧
      (c.controlPointResults = [] → c'.controlPointResults = [] ∧ (c.worker.calm → c'.worker.calm)) ∧
        (c.state = .stopped → c.worker.shallow → c'.worker.shallow) := by
  have hblank : ∀ worker, Blank { c with worker } := fun _ => ⟨h.jobs, h.records, h.pending, h.queued, h.active⟩
  -- The place is none of those that a quiet worker may be at.
  have hother : ∀ {p}, c.worker = p → p.quiet = false → False := fun hworker hp => by
    rw [hworker, hp] at hquiet
    cases hquiet
  have hrough : ∀ {p} {goal : Prop}, c.worker = p → p.calm = false → c.worker.calm → goal :=
    fun hworker hp hcalm => by
    rw [hworker, hp] at hcalm
    cases hcalm
  unfold Client.runWorker at hs
  split at hs
  · cases hs
  · refine ⟨h.take hs, ?_, fun hresults => ?_, fun _ _ => ?_⟩
    · rcases take_worker hs with hworker | ⟨item, hworker⟩ <;> rw [hworker] <;> rfl
    · obtain ⟨hresults', hcalm⟩ := take_calm hready hresults hs
      exact ⟨hresults', fun _ => hcalm⟩
    · rcases take_worker hs with hworker | ⟨item, hworker⟩ <;> rw [hworker] <;> rfl
  · rename_i item hworker
    split at hs
    · cases hs
    · obtain rfl := Option.some.inj hs
      refine ⟨hblank _, rfl, fun hresults => ⟨hresults, fun hcalm => ?_⟩, fun _ _ => rfl⟩
      rw [hworker] at hcalm
      cases item <;> first | rfl | cases hcalm
  · obtain rfl := Option.some.inj hs
    exact ⟨hblank _, rfl, fun hresults => ⟨hresults, fun _ => rfl⟩, fun _ _ => rfl⟩
  · rename_i packet hworker
    obtain rfl := Option.some.inj hs
    rw [show c.processGattPacket packet = .next by rw [processGattPacket, hready]; rfl]
    exact ⟨hblank _, rfl, fun hresults => ⟨hresults, fun _ => rfl⟩, fun _ _ => rfl⟩
  · rename_i result hworker
    obtain rfl := Option.some.inj hs
    split
    · exact ⟨hblank _, rfl, fun hresults => ⟨hresults, hrough hworker rfl⟩, fun _ _ => rfl⟩
    · rw [show c.acknowledgeControlPointWrite result.uid = c by rw [acknowledgeControlPointWrite, h.active]]
      exact ⟨hblank _, rfl, fun hresults => ⟨hresults, fun _ => rfl⟩, fun _ _ => rfl⟩
  · obtain rfl := Option.some.inj hs
    rw [show c.requestTimedOut = false by rw [requestTimedOut, h.active]]
    exact ⟨hblank _, rfl, fun hresults => ⟨hresults, fun _ => rfl⟩, fun _ _ => rfl⟩
  · rename_i hworker
    exact (hother hworker rfl).elim
  · rename_i hworker
    exact (hother hworker rfl).elim
  · rename_i hworker
    exact (hother hworker rfl).elim
  · rename_i hworker
    exact (hother hworker rfl).elim
  · rename_i hworker
    exact (hother hworker rfl).elim
  · rename_i hworker
    exact (hother hworker rfl).elim
  · rename_i hworker
    exact (hother hworker rfl).elim
  · rename_i error hworker
    obtain rfl := Option.some.inj hs
    split
    · exact ⟨hblank _, rfl, fun hresults => ⟨hresults, fun _ => rfl⟩, fun _ _ => rfl⟩
    · rename_i hstate
      exact ⟨⟨rfl, fun _ => rfl, rfl, fun _ => rfl, rfl⟩, rfl, fun _ => ⟨rfl, hrough hworker rfl⟩,
        fun hstopped => absurd (.inr hstopped) hstate⟩
  · rename_i error hworker
    have hdeep : c.worker.shallow → False := fun hshallow => by
      rw [hworker] at hshallow
      cases hshallow
    split at hs
    · cases hs
    · split at hs
      · cases hs
      · obtain rfl := Option.some.inj hs
        exact ⟨⟨h.jobs, h.records, h.pending, h.queued, h.active⟩, rfl,
          fun hresults => ⟨hresults, hrough hworker rfl⟩, fun _ hshallow => (hdeep hshallow).elim⟩
  · rename_i error hworker
    obtain rfl := Option.some.inj hs
    exact ⟨⟨h.jobs, h.records, h.pending, h.queued, h.active⟩, rfl, fun hresults => ⟨hresults, fun _ => rfl⟩,
      fun _ _ => rfl⟩
  · have hnone : c.startNextRequest = (c, none) := by
      unfold startNextRequest
      rw [hready]
    rw [hnone] at hs
    obtain rfl := Option.some.inj hs
    exact ⟨hblank _, rfl, fun hresults => ⟨hresults, fun _ => rfl⟩, fun _ _ => rfl⟩
  · rename_i hworker
    exact (hother hworker rfl).elim

/-- While `stop` has `m_worker_work_mutex`, the worker takes something at most. -/
theorem runWorker_locked (hlocked : c.api.working) (hidle : c.worker.working = false)
    (hs : c.runWorker outcome = some c') : c.take = some c' ∧ c'.worker.working = false := by
  unfold Client.runWorker at hs
  split at hs
  · cases hs
  · refine ⟨hs, ?_⟩
    rcases take_worker hs with hworker | ⟨item, hworker⟩ <;> rw [hworker] <;> rfl
  · rw [if_pos hlocked] at hs
    cases hs
  all_goals
    rename_i hworker
    rw [hworker] at hidle
    cases hidle

theorem Closed.works (h : c.Closed) (hworks : c.Works c') : c'.Closed :=
  ⟨hworks.ready ▸ h.ready, hworks.accept ▸ h.accept⟩

theorem Opening.works (h : c.Opening) (hworks : c.Works c') : c'.Opening := by
  obtain ⟨haccept, hdevice, hstate, hcontrolPoint, hnamed, hdata, hnotification⟩ := h
  exact ⟨hworks.accept ▸ haccept, hworks.device ▸ hdevice, hworks.state ▸ hstate,
    by rw [hworks.api, hworks.controlPoint]; exact hcontrolPoint, by rw [hworks.api]; exact hnamed,
    by rw [hworks.api, hworks.dataSource]; exact hdata, by
      rw [hworks.api, hworks.notificationSource]; exact hnotification⟩

theorem Ready.works (h : c.Ready) (hworks : c.Works c') : c'.Ready :=
  ⟨hworks.state ▸ h.state, hworks.accept ▸ h.accept, hworks.device ▸ h.device,
    hworks.controlPoint ▸ h.controlPoint,
    hworks.dataSource ▸ h.dataSource, hworks.notificationSource ▸ h.notificationSource⟩

/-- The worker works, and what holds in the phase is kept. -/
theorem Isolated.works (h : c.Isolated drained) (hworks : c.Works c') (hcleaning : c'.worker.cleaning = false)
    (hon : c'.workerStarted = false → c'.worker = .off) (hphase : c'.api.phase.Holds drained c') :
    c'.Isolated drained where
  queue haccept := hworks.queue (h.queue (hworks.accept ▸ haccept))
  workerOff := hon
  writerOff := by
    rw [hworks.writerStarted, hworks.writer]
    exact h.writerOff
  leaves hready := hworks.api ▸ h.leaves (hworks.ready ▸ hready)
  ready hd hready := (h.ready hd (hworks.ready ▸ hready)).works hworks
  cleaning _ hc := by
    rw [hcleaning] at hc
    cases hc
  phase := hphase

/-- A thread that has ended takes no step. -/
theorem runWorker_on (hs : c.runWorker outcome = some c') : c.worker ≠ .off := fun hoff => by
  rw [runWorker, hoff] at hs
  cases hs

theorem Startup.worker (h : c.Startup drained) (hs : c.runWorker outcome = some c') : c'.Startup drained := by
  obtain ⟨hblank, hquiet, hresults, -⟩ := h.toBlank.worker h.ready h.quiet hs
  obtain ⟨hready, hwriter⟩ : c'.ready = false ∧ c'.writer = c.writer := by
    rcases runWorker_cases hs with ⟨hworks, -⟩ | ⟨error, -, -, rfl⟩ | ⟨error, error', -, rfl⟩
    · exact ⟨hworks.ready.trans h.ready, hworks.writer⟩
    · exact ⟨rfl, rfl⟩
    · exact ⟨h.ready, rfl⟩
  exact ⟨hblank, hready, fun hd => (hresults (h.results hd)).1, hquiet,
    fun hd => (hresults (h.results hd)).2 (h.calm hd), hwriter ▸ h.rests⟩

/-- The first section of `failRuntime`. -/
theorem Isolated.failRuntime {error : Error} (h : c.Isolated drained) (hstarted : c.workerStarted = true)
    (hphase : c.api.phase.Holds drained { c.close with state := .failed, worker := .cleanup error }) :
    Isolated drained { c.close with state := .failed, worker := .cleanup error } := by
  refine ⟨fun _ => rfl, fun hnot => ?_, h.writerOff, nofun, fun _ => nofun, fun _ _ => rfl, hphase⟩
  have hnot' : c.workerStarted = false := hnot
  rw [hstarted] at hnot'
  cases hnot'

/-- The second one. -/
theorem Isolated.cleansUp {error error' : Error} (h : c.Isolated drained) (hworker : c.worker = .cleanup error)
    (hstarted : c.workerStarted = true)
    (hphase : c.api.phase.Holds drained { (c.stopSubscriptions outcome).1 with worker := .report error' }) :
    Isolated drained { (c.stopSubscriptions outcome).1 with worker := .report error' } := by
  have hfailed : drained → c.state = .failed := fun hd => h.cleaning hd (by rw [hworker]; rfl)
  refine ⟨h.queue, fun hnot => ?_, h.writerOff, h.leaves, fun hd hready => ?_, fun hd _ => hfailed hd, hphase⟩
  · have hnot' : c.workerStarted = false := hnot
    rw [hstarted] at hnot'
    cases hnot'
  · have hstate := (h.ready hd hready).state
    rw [hfailed hd] at hstate
    cases hstate

theorem Isolated.runWorker (h : c.Isolated drained) (hs : c.runWorker outcome = some c') :
    c'.Isolated drained := by
  have hon : c.worker ≠ .off := runWorker_on hs
  have hstarted : c.workerStarted = true := by
    cases hstarted : c.workerStarted with
    | true => rfl
    | false => exact absurd (h.workerOff hstarted) hon
  have hcases := runWorker_cases hs
  have hstill : ∀ {c'}, c.Works c' → c'.workerStarted = false → c'.worker = .off := fun hworks hnot => by
    rw [hworks.workerStarted, hstarted] at hnot
    cases hnot
  have hlocked : c.api.phase = .clearing ∨ c.api.phase = .wiped → c.api.working := fun hphase => by
    cases hapi : c.api <;> rw [hapi] at hphase <;> first | rfl | (rcases hphase with hphase | hphase <;>
      cases hphase)
  have hholds := h.phase
  cases hphase : c.api.phase with
  | early =>
    rw [hphase] at hholds
    have hlive : c.state ≠ .stopped := fun hstate => hon (hholds.1 hstate).worker
    rcases hcases with ⟨hworks, hcleaning⟩ | ⟨error, hworker, -, rfl⟩ | ⟨error, error', hworker, rfl⟩
    · refine h.works hworks hcleaning (hstill hworks) ?_
      rw [hworks.api, hphase]
      refine ⟨fun hstate => absurd (hworks.state ▸ hstate) hlive, fun hlock => ?_⟩
      exact (hholds.2 (hworks.api ▸ hlock)).works hworks
    · refine h.failRuntime hstarted ?_
      rw [hphase]
      exact ⟨nofun, fun _ => ⟨rfl, rfl⟩⟩
    · refine h.cleansUp hworker hstarted ?_
      rw [hphase]
      refine ⟨fun hstate => absurd hstate hlive, fun hlock => ?_⟩
      obtain ⟨hready, haccept⟩ := hholds.2 hlock
      exact ⟨hready, haccept⟩
  | starting =>
    rw [hphase] at hholds
    obtain ⟨hstartup, hopening⟩ := hholds
    have hstartup' := hstartup.worker hs
    rcases hcases with ⟨hworks, hcleaning⟩ | ⟨error, hworker, -, rfl⟩ | ⟨error, error', hworker, rfl⟩
    · refine h.works hworks hcleaning (hstill hworks) ?_
      rw [hworks.api, hphase]
      exact ⟨hstartup', fun hd => (hopening hd).works hworks⟩
    · refine h.failRuntime hstarted ?_
      rw [hphase]
      exact ⟨hstartup', fun hd => absurd (hstartup'.calm hd) nofun⟩
    · refine h.cleansUp hworker hstarted ?_
      rw [hphase]
      exact ⟨hstartup', fun hd => absurd (hstartup'.calm hd) nofun⟩
  | failing =>
    rw [hphase] at hholds
    have hstartup' := Startup.worker hholds hs
    rcases hcases with ⟨hworks, hcleaning⟩ | ⟨error, hworker, -, rfl⟩ | ⟨error, error', hworker, rfl⟩
    · refine h.works hworks hcleaning (hstill hworks) ?_
      rw [hworks.api, hphase]
      exact hstartup'
    · refine h.failRuntime hstarted ?_
      rw [hphase]
      exact hstartup'
    · refine h.cleansUp hworker hstarted ?_
      rw [hphase]
      exact hstartup'
  | clearing =>
    rw [hphase] at hholds
    obtain ⟨htake, hidle⟩ := runWorker_locked (hlocked (.inl hphase)) hholds.2 hs
    have hworks := take_works htake
    refine h.works hworks (WorkerPc.not_cleaning_of_idle hidle) (hstill hworks) ?_
    rw [hworks.api, hphase]
    exact ⟨hholds.1.works hworks, hidle⟩
  | wiped =>
    rw [hphase] at hholds
    obtain ⟨hblank, hclosed, hidle, hstate⟩ := hholds
    obtain ⟨htake, hidle'⟩ := runWorker_locked (hlocked (.inr hphase)) hidle hs
    have hworks := take_works htake
    refine h.works hworks (WorkerPc.not_cleaning_of_idle hidle') (hstill hworks) ?_
    rw [hworks.api, hphase]
    exact ⟨hblank.take htake, hclosed.works hworks, hidle', by rw [hworks.api, hworks.state]; exact hstate⟩
  | draining =>
    rw [hphase] at hholds
    obtain ⟨hending, hshallow⟩ := hholds
    obtain ⟨hblank, -, hresults, hshallow'⟩ := hending.toBlank.worker hending.ready
      (WorkerPc.quiet_of_shallow hshallow) hs
    rcases hcases with ⟨hworks, hcleaning⟩ | ⟨error, -, hstate, -⟩ | ⟨error, error', hworker, -⟩
    · refine h.works hworks hcleaning (hstill hworks) ?_
      rw [hworks.api, hphase]
      exact ⟨⟨hblank, hending.toClosed.works hworks, fun hd => (hresults (hending.results hd)).1,
        hworks.state ▸ hending.state, hworks.shutdown ▸ hending.shutdown⟩, hshallow' hending.state hshallow⟩
    · exact absurd hending.state hstate.2
    · rw [hworker] at hshallow
      cases hshallow
  | joined =>
    rw [hphase] at hholds
    exact absurd hholds.2 hon

-- ---------------------------------------------------------------------------
-- Steps of the others
-- ---------------------------------------------------------------------------

/-- The writer goes on: what it leaves alone. -/
theorem runControlPointWrites_cases (hs : c.runControlPointWrites outcome = some c') :
    ∃ jobs results writer,
      c' = { c with controlPointJobs := jobs, controlPointResults := results, writer } ∧ c.writer ≠ .off ∧
        (c.controlPointJobs = [] → jobs = []) ∧ (c.controlPointShutdown → results = c.controlPointResults) ∧
          (c.writer.rests → c.controlPointJobs = [] → results = c.controlPointResults ∧ writer.rests) := by
  unfold runControlPointWrites at hs
  split at hs
  · cases hs
  · rename_i hwriter
    have hon : c.writer ≠ .off := by rw [hwriter]; exact nofun
    split at hs
    · obtain rfl := Option.some.inj hs
      exact ⟨_, _, _, rfl, hon, id, fun _ => rfl, fun _ _ => ⟨rfl, rfl⟩⟩
    · split at hs
      · cases hs
      · rename_i hjobs
        obtain rfl := Option.some.inj hs
        refine ⟨_, _, _, rfl, hon, fun hempty => ?_, fun _ => rfl, fun _ hempty => ?_⟩ <;>
          · rw [hjobs] at hempty
            cases hempty
  · rename_i job hwriter
    split at hs
    · cases hs
    · obtain rfl := Option.some.inj hs
      refine ⟨_, _, _, rfl, by rw [hwriter]; exact nofun, id, fun _ => rfl, fun hrests => ?_⟩
      rw [hwriter] at hrests
      cases hrests
  · rename_i job hwriter
    obtain rfl := Option.some.inj hs
    refine ⟨_, _, _, rfl, by rw [hwriter]; exact nofun, id, fun _ => rfl, fun hrests => ?_⟩
    rw [hwriter] at hrests
    cases hrests
  · rename_i result hwriter
    obtain rfl := Option.some.inj hs
    have hrests : c.writer.rests = false := by rw [hwriter]; rfl
    split
    · refine ⟨_, _, _, rfl, by rw [hwriter]; exact nofun, id, fun _ => rfl, fun hr => ?_⟩
      rw [hrests] at hr
      cases hr
    · rename_i hshutdown
      refine ⟨_, _, _, rfl, by rw [hwriter]; exact nofun, id, fun hs => absurd hs hshutdown, fun hr => ?_⟩
      rw [hrests] at hr
      cases hr

theorem Isolated.writes (h : c.Isolated drained) (hs : c.runControlPointWrites outcome = some c') :
    c'.Isolated drained := by
  obtain ⟨jobs, results, writer, rfl, hon, hjobs, hshutdown, hrests⟩ := runControlPointWrites_cases hs
  refine ⟨h.queue, h.workerOff, fun hnot => absurd (h.writerOff hnot) hon, h.leaves, fun hd hready => ?_,
    h.cleaning, ?_⟩
  · obtain ⟨hstate, haccept, hdevice, hcontrolPoint, hdata, hnotification⟩ := h.ready hd hready
    exact ⟨hstate, haccept, hdevice, hcontrolPoint, hdata, hnotification⟩
  · have hholds := h.phase
    have hblank : ∀ {c' : Client}, c.Blank → c'.controlPointJobs = jobs → c'.records = c.records →
        c'.pendingRequests = c.pendingRequests → c'.queuedUids = c.queuedUids →
          c'.activeRequest = c.activeRequest → c'.Blank :=
      fun hold hj hr hp hq ha => ⟨hj ▸ hjobs hold.jobs, hr ▸ hold.records, hp ▸ hold.pending, hq ▸ hold.queued,
        ha ▸ hold.active⟩
    show c.api.phase.Holds drained _
    cases hphase : c.api.phase with
    | early =>
      rw [hphase] at hholds
      refine ⟨fun hstate => absurd (hholds.1 hstate).writer hon, fun hlock => ?_⟩
      obtain ⟨hready, haccept⟩ := hholds.2 hlock
      exact ⟨hready, haccept⟩
    | starting =>
      rw [hphase] at hholds
      obtain ⟨hstartup, hopening⟩ := hholds
      obtain ⟨hresults, hrest⟩ := hrests hstartup.rests hstartup.jobs
      refine ⟨⟨hblank hstartup.toBlank rfl rfl rfl rfl rfl, hstartup.ready,
        fun hd => hresults.trans (hstartup.results hd),
        hstartup.quiet, hstartup.calm, hrest⟩, fun hd => ?_⟩
      obtain ⟨haccept, hdevice, hstate, hcontrolPoint, hnamed, hdata, hnotification⟩ := hopening hd
      exact ⟨haccept, hdevice, hstate, hcontrolPoint, hnamed, hdata, hnotification⟩
    | failing =>
      rw [hphase] at hholds
      have hstartup : c.Startup drained := hholds
      obtain ⟨hresults, hrest⟩ := hrests hstartup.rests hstartup.jobs
      exact ⟨hblank hstartup.toBlank rfl rfl rfl rfl rfl, hstartup.ready,
        fun hd => hresults.trans (hstartup.results hd),
        hstartup.quiet, hstartup.calm, hrest⟩
    | clearing =>
      rw [hphase] at hholds
      exact ⟨⟨hholds.1.ready, hholds.1.accept⟩, hholds.2⟩
    | wiped =>
      rw [hphase] at hholds
      obtain ⟨hold, hclosed, hidle, hstate⟩ := hholds
      exact ⟨hblank hold rfl rfl rfl rfl rfl, ⟨hclosed.ready, hclosed.accept⟩, hidle, hstate⟩
    | draining =>
      rw [hphase] at hholds
      obtain ⟨hending, hshallow⟩ := hholds
      exact ⟨⟨hblank hending.toBlank rfl rfl rfl rfl rfl, ⟨hending.ready, hending.accept⟩,
        fun hd => (hshutdown hending.shutdown).trans (hending.results hd), hending.state,
          hending.shutdown⟩, hshallow⟩
    | joined =>
      rw [hphase] at hholds
      obtain ⟨hending, hoff⟩ := hholds
      exact ⟨⟨hblank hending.toBlank rfl rfl rfl rfl rfl, ⟨hending.ready, hending.accept⟩,
        fun hd => (hshutdown hending.shutdown).trans (hending.results hd), hending.state,
          hending.shutdown⟩, hoff⟩

/-- What is not about a session changes, or a packet arrives. -/
theorem Isolated.aside {gattQueue : List GattPacket} {cancelRequested : Bool} {now stops : Nat}
    (h : c.Isolated drained)
    (hqueue : c.acceptGattEvents = false → gattQueue = []) :
    Isolated drained { c with gattQueue, cancelRequested, now, stops } := by
  refine ⟨hqueue, h.workerOff, h.writerOff, h.leaves, fun hd hready => ?_, h.cleaning, ?_⟩
  · obtain ⟨hstate, haccept, hdevice, hcontrolPoint, hdata, hnotification⟩ := h.ready hd hready
    exact ⟨hstate, haccept, hdevice, hcontrolPoint, hdata, hnotification⟩
  · have hholds := h.phase
    have hblank : c.Blank → Blank { c with gattQueue, cancelRequested, now, stops } :=
      fun hold => ⟨hold.jobs, hold.records, hold.pending, hold.queued, hold.active⟩
    have hclosed : c.Closed → Closed { c with gattQueue, cancelRequested, now, stops } :=
      fun hold => ⟨hold.ready, hold.accept⟩
    show c.api.phase.Holds drained _
    cases hphase : c.api.phase with
    | early =>
      rw [hphase] at hholds
      refine ⟨fun hstate => ?_, fun hlock => hclosed (hholds.2 hlock)⟩
      have hrest := hholds.1 hstate
      exact ⟨hblank hrest.toBlank, hclosed hrest.toClosed, hrest.results, hrest.worker, hrest.writer⟩
    | starting =>
      rw [hphase] at hholds
      obtain ⟨hstartup, hopening⟩ := hholds
      refine ⟨⟨hblank hstartup.toBlank, hstartup.ready, hstartup.results, hstartup.quiet,
        hstartup.calm, hstartup.rests⟩,
        fun hd => ?_⟩
      obtain ⟨haccept, hdevice, hstate, hcontrolPoint, hnamed, hdata, hnotification⟩ := hopening hd
      exact ⟨haccept, hdevice, hstate, hcontrolPoint, hnamed, hdata, hnotification⟩
    | failing =>
      rw [hphase] at hholds
      have hstartup : c.Startup drained := hholds
      exact ⟨hblank hstartup.toBlank, hstartup.ready, hstartup.results, hstartup.quiet, hstartup.calm,
        hstartup.rests⟩
    | clearing =>
      rw [hphase] at hholds
      exact ⟨hclosed hholds.1, hholds.2⟩
    | wiped =>
      rw [hphase] at hholds
      exact ⟨hblank hholds.1, hclosed hholds.2.1, hholds.2.2⟩
    | draining =>
      rw [hphase] at hholds
      obtain ⟨hending, hshallow⟩ := hholds
      exact ⟨⟨hblank hending.toBlank, hclosed hending.toClosed, hending.results, hending.state,
        hending.shutdown⟩, hshallow⟩
    | joined =>
      rw [hphase] at hholds
      obtain ⟨hending, hoff⟩ := hholds
      exact ⟨⟨hblank hending.toBlank, hclosed hending.toClosed, hending.results, hending.state,
        hending.shutdown⟩, hoff⟩

/-- A new session. -/
theorem Isolated.start {deviceId : String} {config : Config} (h : c.Isolated drained) (hapi : c.api = .idle) :
    (c.start deviceId config).Isolated drained := by
  unfold Client.start
  split
  · exact h
  · rename_i hvalid
    split
    · exact h
    · rename_i hstate
      have hrest : c.Rest drained := by
        have hholds := h.phase
        rw [hapi] at hholds
        exact hholds.1 (not_not.mp hstate)
      have hdevice : deviceId ≠ "" := fun hempty => by
        subst hempty
        exact hvalid (by simp)
      obtain ⟨hblank, -, hresults, hworker, hwriter⟩ := hrest
      refine ⟨nofun, h.workerOff, h.writerOff, nofun, fun _ => nofun, h.cleaning, ⟨⟨hblank.jobs, hblank.records,
        hblank.pending, hblank.queued, hblank.active⟩, rfl, hresults, ?_, fun _ => ?_, ?_⟩,
        fun _ => ⟨rfl, hdevice, ?_, nofun, nofun, nofun, nofun⟩⟩
      · show c.worker.quiet = true
        rw [hworker]
        rfl
      · show c.worker.calm = true
        rw [hworker]
        rfl
      · show c.writer.rests = true
        rw [hwriter]
        rfl
      · show c.state ≠ .failed ∧ c.state ≠ .ready
        rw [not_not.mp hstate]
        decide

theorem Isolated.step {action : Action} (h : c.Isolated drained) (hdrained : drained → c.Drained action)
    (hs : c.step action = some c') : c'.Isolated drained := by
  cases action with
  | start deviceId config =>
    simp only [Client.step] at hs
    split at hs
    · rename_i hapi
      obtain rfl := Option.some.inj hs
      exact h.start hapi
    · cases hs
  | callStop =>
    obtain rfl := Option.some.inj hs
    exact h.aside h.queue
  | stop =>
    simp only [Client.step] at hs
    split at hs
    · rename_i stops hapi hstops
      obtain rfl := Option.some.inj hs
      have haside : Isolated drained { c with stops } := h.aside h.queue
      refine ⟨haside.queue, haside.workerOff, haside.writerOff, fun _ => rfl, fun hd hready => ?_,
        haside.cleaning, ?_⟩
      · obtain ⟨hstate, haccept, hdevice, hcontrolPoint, hdata, hnotification⟩ := haside.ready hd hready
        exact ⟨hstate, haccept, hdevice, hcontrolPoint, hdata, hnotification⟩
      · have hholds := haside.phase
        rw [show ({ c with stops } : Client).api = .idle from hapi] at hholds
        refine ⟨fun hstate => ?_, nofun⟩
        obtain ⟨hblank, hclosed, hresults, hworker, hwriter⟩ := hholds.1 hstate
        exact ⟨⟨hblank.jobs, hblank.records, hblank.pending, hblank.queued, hblank.active⟩,
          ⟨hclosed.ready, hclosed.accept⟩, hresults, hworker, hwriter⟩
    · cases hs
  | api outcome => exact h.runApi hdrained hs
  | worker outcome => exact h.runWorker hs
  | writer outcome => exact h.writes hs
  | gattEvent dataSource event =>
    simp only [Client.step] at hs
    split at hs
    · obtain rfl := Option.some.inj hs
      split
      · rename_i haccept
        refine h.aside fun hnot => ?_
        rw [haccept] at hnot
        cases hnot
      · exact h
    · cases hs
  | tick =>
    obtain rfl := Option.some.inj hs
    exact h.aside h.queue

theorem Isolated.new : ({} : Client).Isolated drained where
  queue _ := rfl
  workerOff _ := rfl
  writerOff _ := rfl
  leaves := nofun
  ready _ := nofun
  cleaning _ := nofun
  phase := ⟨fun _ => ⟨⟨rfl, fun _ => rfl, rfl, fun _ => rfl, rfl⟩, ⟨rfl, rfl⟩, fun _ => rfl, rfl, rfl⟩, nofun⟩

-- ---------------------------------------------------------------------------
-- Sessions
-- ---------------------------------------------------------------------------

/-- Where the state goes without a `start`. -/
theorem runApi_state (hphase : c.api.phase ≠ .starting) (hs : c.runApi outcome = some c') :
    c'.api.phase ≠ .starting ∧
      (c'.state = c.state ∨ c'.state = .failed ∨ c'.state = .stopping ∨ c.api = .stopped ∧ c'.state =
        .stopped) := by
  cases hapi : c.api with
  | execWorker | execControlPointWorker | starting | resolvingServices | waitForServicesResolved | resolved
  | discoveringANCS | discover | controlPoint id | subscribingDataSource | startNotifyData | dataSubscription
  | dataSubscribed | subscribingNotificationSource | startNotifyNotification | notificationSubscription
  | notificationSubscribed | ready =>
    rw [hapi] at hphase
    exact absurd rfl hphase
  | idle =>
    simp only [Client.runApi, hapi] at hs
    cases hs
  | failStartup error | failCleanup error | clear | clearAgain | shutdown | cleanupError error =>
    simp only [Client.runApi, hapi] at hs
    obtain rfl := Option.some.inj hs
    exact ⟨nofun, .inl rfl⟩
  | failed | stopFailed =>
    simp only [Client.runApi, hapi] at hs
    obtain rfl := Option.some.inj hs
    exact ⟨nofun, .inr (.inl rfl)⟩
  | stop =>
    simp only [Client.runApi, hapi] at hs
    obtain rfl := Option.some.inj hs
    split <;> exact ⟨nofun, .inl rfl⟩
  | lockWork =>
    simp only [Client.runApi, hapi] at hs
    split at hs
    · cases hs
    · obtain rfl := Option.some.inj hs
      exact ⟨nofun, .inl rfl⟩
  | stopping =>
    simp only [Client.runApi, hapi] at hs
    obtain rfl := Option.some.inj hs
    exact ⟨nofun, .inr (.inr (.inl rfl))⟩
  | stopSubscriptions =>
    simp only [Client.runApi, hapi] at hs
    split at hs
    · cases hs
    · obtain rfl := Option.some.inj hs
      refine ⟨?_, .inl rfl⟩
      dsimp only
      split <;> exact nofun
  | stopped =>
    simp only [Client.runApi, hapi] at hs
    obtain rfl := Option.some.inj hs
    exact ⟨nofun, .inr (.inr (.inr ⟨rfl, rfl⟩))⟩
  | waitWorker | waitControlPointWorker =>
    simp only [Client.runApi, hapi] at hs
    split at hs
    · split at hs
      · obtain rfl := Option.some.inj hs
        exact ⟨nofun, .inl rfl⟩
      · cases hs
    · obtain rfl := Option.some.inj hs
      exact ⟨nofun, .inl rfl⟩

/-- Where the state goes, and who takes it there. -/
theorem step_state {action : Action} (hphase : c.api.phase ≠ .starting) (hstarts : ¬c.Starts action)
    (hs : c.step action = some c') :
    c'.api.phase ≠ .starting ∧
      (c'.state = c.state ∨ c'.state = .failed ∨ c'.state = .stopping ∨ c.Stops action ∧ c'.state =
        .stopped) := by
  cases action with
  | start deviceId config =>
    simp only [Client.step] at hs
    split at hs
    · obtain rfl := Option.some.inj hs
      have hsame : c.start deviceId config = c := by
        unfold Client.start
        split
        · rfl
        · exact if_pos hstarts
      rw [hsame]
      exact ⟨hphase, .inl rfl⟩
    · cases hs
  | callStop | tick =>
    obtain rfl := Option.some.inj hs
    exact ⟨hphase, .inl rfl⟩
  | stop =>
    simp only [Client.step] at hs
    split at hs
    · obtain rfl := Option.some.inj hs
      exact ⟨nofun, .inl rfl⟩
    · cases hs
  | api outcome => exact runApi_state hphase hs
  | worker outcome =>
    rcases runWorker_cases hs with ⟨hworks, -⟩ | ⟨error, -, -, rfl⟩ | ⟨error, error', -, rfl⟩
    · exact ⟨hworks.api ▸ hphase, .inl hworks.state⟩
    · exact ⟨hphase, .inr (.inl rfl)⟩
    · exact ⟨hphase, .inl rfl⟩
  | writer outcome =>
    obtain ⟨jobs, results, writer, rfl, -⟩ := runControlPointWrites_cases hs
    exact ⟨hphase, .inl rfl⟩
  | gattEvent dataSource event =>
    simp only [Client.step] at hs
    split at hs
    · obtain rfl := Option.some.inj hs
      split <;> exact ⟨hphase, .inl rfl⟩
    · cases hs

theorem isolated_of_reaches (h : ReachesBy step Drained {} c) : c.Isolated True :=
  h.invariant (I := Isolated True) .new fun hisolated hdrained hs => hisolated.step (fun _ => hdrained) hs

/-- Outside of a `start`. -/
theorem Isolated.phase_of_failed (h : c.Isolated True) (hstate : c.state = .failed) :
    c.api.phase ≠ .starting := by
  intro hphase
  have hholds := h.phase
  rw [hphase] at hholds
  exact (hholds.2 trivial).state.1 hstate

/-- Without a `start`, and without a `stop` as well, a failed session does not become ready. -/
theorem Isolated.stays_failed (h : c.Isolated True) (hstate : c.state = .failed)
    (hreach : ReachesBy Client.step (fun d action => d.Drained action ∧ ¬d.Starts action) c c' ∨
      ReachesBy Client.step (fun d action => d.Drained action ∧ ¬d.Stops action) c c') : c'.state ≠ .ready := by
  have hnot : c.state ≠ .ready := by
    rw [hstate]
    exact nofun
  have hphase := h.phase_of_failed hstate
  rcases hreach with hreach | hreach
  · refine (hreach.invariant (I := fun d => d.state ≠ .ready ∧ d.api.phase ≠ .starting) ⟨hnot, hphase⟩ ?_).1
    rintro d action d' ⟨hready, hphase⟩ ⟨-, hstarts⟩ hs
    obtain ⟨hphase', hcases⟩ := step_state hphase hstarts hs
    refine ⟨?_, hphase'⟩
    rcases hcases with hsame | hfailed | hstopping | ⟨-, hstopped⟩
    · rwa [hsame]
    · rw [hfailed]
      exact nofun
    · rw [hstopping]
      exact nofun
    · rw [hstopped]
      exact nofun
  · have hstopped : c.state ≠ .stopped := by
      rw [hstate]
      exact nofun
    refine (hreach.invariant (I := fun d => d.state ≠ .ready ∧ d.state ≠ .stopped ∧ d.api.phase ≠ .starting)
      ⟨hnot, hstopped, hphase⟩ ?_).1
    rintro d action d' ⟨hready, hstopped, hphase⟩ ⟨-, hstops⟩ hs
    have hstarts : ¬d.Starts action := by
      cases action with
      | start => exact hstopped
      | _ => exact id
    obtain ⟨hphase', hcases⟩ := step_state hphase hstarts hs
    rcases hcases with hsame | hfailed | hstopping | ⟨hends, -⟩
    · rw [hsame]
      exact ⟨hready, hstopped, hphase'⟩
    · rw [hfailed]
      exact ⟨nofun, nofun, hphase'⟩
    · rw [hstopping]
      exact ⟨nofun, nofun, hphase'⟩
    · exact absurd hends hstops

/-- Between two sessions nothing is left, readiness stands for what a session needs, and a failed session stays
unready until it has been stopped and started. -/
theorem sessions (h : ReachesBy step Drained {} c) :
    (c.state = .stopped → c.api = .idle → c.gattQueue = [] ∧ c.controlPointResults = [] ∧ c.Blank) ∧
      (c.ready → c.Ready) ∧
        (c.state = .failed → ∀ c',
          ReachesBy step (fun d action => d.Drained action ∧ ¬d.Starts action) c c' ∨
            ReachesBy step (fun d action => d.Drained action ∧ ¬d.Stops action) c c' → c'.state ≠ .ready) := by
  have hisolated := isolated_of_reaches h
  refine ⟨fun hstate hapi => ?_, hisolated.ready trivial, fun hstate c' hreach =>
    hisolated.stays_failed hstate hreach⟩
  have hholds := hisolated.phase
  rw [hapi] at hholds
  have hrest := hholds.1 hstate
  exact ⟨hisolated.queue hrest.accept, hrest.results trivial, hrest.toBlank⟩

/-- The services of a device that has what ANCS needs. -/
def ancsServices : List Service :=
  [⟨kAncsServiceUuid, [⟨"n", kNotificationSourceUuid, ["notify"]⟩, ⟨"c", kControlPointUuid, ["write"]⟩,
    ⟨"d", kDataSourceUuid, ["notify"]⟩]⟩]

/-- `start` from its first section to Ready. -/
def startup : List Action :=
  Action.start "device" {} :: List.replicate 7 (.api {}) ++ Action.api { services := ancsServices } ::
    List.replicate 10 (.api {})

theorem sessions_ready : ∃ c, ReachesBy step Drained {} c ∧ c.ready ∧ c.Ready :=
  have h : ReachesBy step Drained {} _ := .of_isSome_by startup (by decide +kernel)
  ⟨_, h, by decide +kernel, (sessions h).2.1 (by decide +kernel)⟩

/-- A request is being written when `stop` is called, and the write fails: its result is published before the
shutdown flags are set, and stays. -/
def leavesResult : List Action :=
  startup ++ List.replicate 24 (Action.worker {}) ++ Action.gattEvent false (.valueChanged [0, 0, 0,
    0, 7, 0, 0, 0]) ::
    List.replicate 6 (.worker {}) ++ List.replicate 3 (Action.writer { error := some responseTimeout }) ++
      Action.callStop :: .stop :: List.replicate 6 (.api {}) ++ Action.writer {} :: List.replicate 2
        (.api {}) ++
        List.replicate 9 (Action.worker {}) ++ Action.api {} :: .writer {} :: [.api {}]

/-- The next session fails with that result while `start` goes on, and becomes Ready. -/
def readyAfterFailure : List Action :=
  leavesResult ++ Action.start "device" {} :: List.replicate 2 (.api {}) ++ Action.worker {} :: .api {} ::
    List.replicate 7 (.worker {}) ++ List.replicate 4 (Action.api {}) ++
      Action.api { services := ancsServices } ::
      List.replicate 10 (.api {})

theorem result_outlivesSession :
    (∃ c, Reaches step {} c ∧ c.state = .stopped ∧ c.api = .idle ∧ c.controlPointResults ≠ []) ∧
      ∃ c, Reaches step {} c ∧ c.ready ∧ c.acceptGattEvents = false ∧ c.deviceId = "" ∧
        .emitted (.stateChanged .failed) ∈ c.log :=
  ⟨ReachesBy.exists_of_any leavesResult (by decide +kernel),
    ReachesBy.exists_of_any readyAfterFailure (by decide +kernel)⟩

end Dmn.Ancs.Client
