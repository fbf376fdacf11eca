import Dmn.Engine.Overlap

/-!
# The direct monitor

The phase of the direct monitor says which start or stop of it is pending. One
that lives is the one that is known, and will be heard of.
-/

namespace Dmn.Engine

open Dmn.Lib

/-- What a worker does to the direct monitor. -/
def Worker.directAction : Worker → Option MonitorAction
  | .start _ true _ => some .start
  | .stop _ true _ => some .stop
  | _ => none

def Job.directAction : Job → Option MonitorAction
  | .directStartDone _ => some .start
  | .directStopDone => some .stop
  | _ => none

/-- It tells of a direct monitor that has been started. -/
def Job.directStarted : Job → Bool
  | .directStartDone .ok => true
  | _ => false

/-- The phase in which an action is pending. -/
def MonitorAction.phase : MonitorAction → Phase
  | .start => .starting
  | .stop => .stopping

theorem Worker.directAction_eq_none {worker : Worker} (h : worker.direct = false) :
    worker.directAction = none := by
  cases worker with
  | start device direct monitor =>
    obtain rfl : direct = false := h
    rfl
  | stop device direct calling =>
    obtain rfl : direct = false := h
    rfl
  | _ => rfl

theorem Job.directAction_eq_none {job : Job} (h : job.aside) : job.directAction = none := by
  cases job with
  | directStartDone | directStopDone => cases h
  | _ => rfl

namespace Impl

variable {e e' : Impl}

/-- How many starts or stops of the direct monitor are pending. -/
def directs (e : Impl) (action : MonitorAction) : Nat :=
  e.workers.countP (fun worker => worker.directAction = some action) + e.queue.countP fun job =>
    job.directAction = some action

structure Tallied (e : Impl) : Prop where
  directs : ∀ action, e.directs action = if e.directPhase = action.phase then 1 else 0
  idle : e.direct = none → e.directPhase = .idle

/-- The control thread knows of the direct monitor, or will. -/
def Held (e : Impl) : Prop :=
  match e.directPhase with
  | .idle => False
  | .starting => ∃ job ∈ e.queue, Job.directStarted job
  | .active => True
  | .stopping => ∃ worker ∈ e.workers, Worker.directAction worker = some .stop

structure Aligned (e : Impl) : Prop where
  starts : ∀ device monitor, .start device true monitor ∈ e.workers → e.direct = some device ∧
    e.directPhase = .starting
  stops : ∀ device calling, .stop device true calling ∈ e.workers → e.direct = some device ∧
    e.directPhase = .stopping
  lives : ∀ monitor ∈ e.backend.live, ∀ device, e.backend.monitors[monitor]? = some ⟨device, true⟩ →
    e.direct = some device ∧ e.Held

theorem Held.mono (h : e.Held) (hphase : e'.directPhase = e.directPhase)
    (hqueue : ∀ job ∈ e.queue, Job.directStarted job → job ∈ e'.queue)
    (hworkers : ∀ worker ∈ e.workers, Worker.directAction worker = some .stop →
      ∃ other ∈ e'.workers, Worker.directAction other = some .stop) : e'.Held := by
  unfold Held at h ⊢
  rw [hphase]
  split
  · rename_i hidle
    simp [hidle] at h
  · rename_i hstarting
    rw [hstarting] at h
    obtain ⟨job, hjob, hstarted⟩ := h
    exact ⟨job, hqueue job hjob hstarted, hstarted⟩
  · trivial
  · rename_i hstopping
    rw [hstopping] at h
    obtain ⟨worker, hworker, hstop⟩ := h
    exact hworkers worker hworker hstop

/-- Nothing is done to the direct monitor, but that it may end. -/
theorem Aligned.moves (h : e.Aligned) (hdirect : e'.direct = e.direct) (hphase : e'.directPhase = e.directPhase)
    (hmonitors : e'.backend.monitors = e.backend.monitors) (hlive : ∀ monitor ∈ e'.backend.live,
    monitor ∈ e.backend.live)
    (hworkers : ∀ worker ∈ e'.workers, worker ∈ e.workers ∨ Worker.directAction worker = none)
    (hheld : e.Held → e'.Held) : e'.Aligned where
  starts device monitor hmem := by
    rw [hdirect, hphase]
    obtain hold | hnew := hworkers _ hmem
    · exact h.starts device monitor hold
    · cases hnew
  stops device calling hmem := by
    rw [hdirect, hphase]
    obtain hold | hnew := hworkers _ hmem
    · exact h.stops device calling hold
    · cases hnew
  lives monitor hmonitor device hdevice := by
    rw [hdirect]
    exact (h.lives monitor (hlive monitor hmonitor) device (hmonitors ▸ hdevice)).imp_right hheld

theorem Aligned.aside (h : e.Aligned) (haside : e.Aside e') (hthread : e.Thread e') : e'.Aligned := by
  refine h.moves haside.direct haside.directPhase haside.monitors (fun _ hmem => haside.live ▸ hmem)
    (fun worker hworker => ?_)
    fun hheld => hheld.mono haside.directPhase (fun job hjob _ => ?_) fun worker hworker hstop => ?_
  · exact (haside.mem_workers hworker).imp_right Worker.directAction_eq_none
  · rwa [queue, hthread.batch, hthread.inbox]
  · obtain ⟨new, hworkers, -⟩ := haside.workers
    exact ⟨worker, hworkers ▸ List.mem_append_left _ hworker, hstop⟩

theorem directs_aside (haside : e.Aside e') (hthread : e.Thread e') (action : MonitorAction) :
    e'.directs action = e.directs action := by
  obtain ⟨new, hworkers, hnew⟩ := haside.workers
  have hnone : new.countP (fun worker => worker.directAction = some action) = 0 := by
    rw [List.countP_eq_zero]
    intro worker hworker
    rw [Worker.directAction_eq_none (hnew worker hworker)]
    simp
  rw [directs, directs, queue, queue, hthread.batch, hthread.inbox, hworkers, List.countP_append,
    hnone, Nat.add_zero]

theorem Tallied.aside (h : e.Tallied) (haside : e.Aside e') (hthread : e.Thread e') : e'.Tallied where
  directs action := by
    rw [directs_aside haside hthread, haside.directPhase]
    exact h.directs action
  idle hnone := haside.directPhase.trans (h.idle (haside.direct.symm.trans hnone))

-- ---------------------------------------------------------------------------
-- Workers
-- ---------------------------------------------------------------------------

/-- What a worker does next keeps its action pending. -/
theorem advance_directAction (b : Backend) (worker : Worker) (reply : Reply) (action : MonitorAction) :
    (b.advance worker reply).1.countP (fun worker => worker.directAction = some action) +
      (b.advance worker reply).2.1.countP (fun job => job.directAction = some action) =
      [worker].countP fun worker => worker.directAction = some action := by
  cases worker with
  | start device direct monitor =>
    cases direct <;> cases monitor <;> simp [Backend.advance, Worker.directAction, Job.directAction,
      List.countP_singleton]
  | stop device direct calling =>
    cases direct <;> cases calling <;> simp [Backend.advance, Worker.directAction, Job.directAction,
      List.countP_singleton]
  | disconnect device stopFirst pc => cases pc <;> simp [Backend.advance, Worker.directAction, Job.directAction]
  | snapshot | scan | connect | cancelConnect => simp [Backend.advance, Worker.directAction, Job.directAction]

theorem Tallied.runWorker (h : e.Tallied) {index : Nat} {reply : Reply}
    (hs : e.runWorker index reply = some e') :
    e'.Tallied := by
  obtain ⟨left, worker, right, hworkers, rfl⟩ := runWorker_cases hs
  refine ⟨fun action => ?_, h.idle⟩
  have hold := h.directs action
  have hsame := advance_directAction e.backend worker reply action
  rw [Impl.directs, queue, hworkers] at hold
  simp only [Impl.directs, queue, List.countP_append, List.countP_cons, List.countP_nil] at hold hsame ⊢
  omega

theorem Aligned.runWorker (h : e.Aligned) (hapt : ∀ worker ∈ e.workers, Worker.Apt e.backend worker)
    (hcalled : ∀ monitor ∈ e.backend.live, monitor < e.backend.monitors.length) {index : Nat} {reply : Reply}
    (hs : e.runWorker index reply = some e') : e'.Aligned := by
  obtain ⟨left, worker, right, hworkers, rfl⟩ := runWorker_cases hs
  have hmem : worker ∈ e.workers := by simp [hworkers]
  -- the other workers stay
  have hcases {next : List Worker} {other : Worker} (hother : other ∈ left ++ next ++ right) :
    other ∈ e.workers ∨ other ∈ next := by
    rw [hworkers]
    simp only [List.mem_append, List.mem_cons] at hother ⊢
    tauto
  have hstays {next : List Worker} (hgoes : worker.directAction = some .stop → ∃ other ∈ next,
    Worker.directAction other = some .stop)
      (other : Worker) (hother : other ∈ e.workers) (hstop : other.directAction = some .stop) :
      ∃ other ∈ left ++ next ++ right, Worker.directAction other = some .stop := by
    rw [hworkers, List.mem_append, List.mem_cons] at hother
    obtain hleft | rfl | hright := hother
    · exact ⟨other, by simp [hleft], hstop⟩
    · obtain ⟨next', hnext', hstop'⟩ := hgoes hstop
      exact ⟨next', by simp [hnext'], hstop'⟩
    · exact ⟨other, by simp [hright], hstop⟩
  have hposted {jobs : List Job} {job : Job} (hjob : job ∈ e.queue) : job ∈ e.batch ++ (e.inbox ++ jobs) := by
    rw [← List.append_assoc]
    exact List.mem_append_left _ hjob
  have hplain {next : List Worker} {jobs : List Job} {backend : Backend} (hnone : worker.directAction = none)
      (hmonitors : backend.monitors = e.backend.monitors) (hlive : ∀ monitor ∈ backend.live,
        monitor ∈ e.backend.live)
      (hnext : ∀ other ∈ next, Worker.directAction other = none) :
      Aligned { e with workers := left ++ next ++ right, inbox := e.inbox ++ jobs, backend } :=
    h.moves rfl rfl hmonitors hlive (fun other hother => (hcases hother).imp_right (hnext other)) fun hheld =>
      hheld.mono rfl (fun _ hjob _ => hposted hjob) (hstays fun hstop => by cases hnone.symm.trans hstop)
  have hempty {p : Worker → Prop} : ∀ other ∈ ([] : List Worker), p other :=
    fun _ hmem => absurd hmem List.not_mem_nil
  have hone {p : Worker → Prop} {next : Worker} (hnext : p next) : ∀ other ∈ [next], p other :=
    fun _ hmem => List.mem_singleton.mp hmem ▸ hnext
  cases worker with
  | snapshot | scan | connect | cancelConnect => exact hplain rfl rfl (fun _ => id) hempty
  | disconnect device stopFirst pc =>
    cases pc with
    | stops | disconnects => exact hplain rfl rfl (fun _ => id) (hone rfl)
    | stopping => exact hplain rfl rfl (fun _ hold => (List.mem_filter.mp hold).1) (hone rfl)
    | disconnecting => exact hplain rfl rfl (fun _ => id) hempty
  | stop device direct calling =>
    cases direct with
    | false =>
      cases calling with
      | false => exact hplain rfl rfl (fun _ => id) (hone rfl)
      | true => exact hplain rfl rfl (fun _ hold => (List.mem_filter.mp hold).1) hempty
    | true =>
      have hstop := h.stops device calling hmem
      cases calling with
      | false =>
        refine ⟨fun other monitor hother => ?_, fun other calling hother => ?_,
          fun monitor hmonitor other hother => ?_⟩
        · obtain hold | hnew := hcases hother
          · exact h.starts other monitor hold
          · cases List.mem_singleton.mp hnew
        · obtain hold | hnew := hcases hother
          · exact h.stops other calling hold
          · obtain ⟨rfl, -, -⟩ := Worker.stop.inj (List.mem_singleton.mp hnew)
            exact hstop
        · refine (h.lives monitor hmonitor other hother).imp_right fun hheld => ?_
          exact hheld.mono rfl (fun _ hjob _ => hposted hjob) (hstays fun _ => ⟨_,
            List.mem_singleton_self _, rfl⟩)
      | true =>
        refine ⟨fun other monitor hother => ?_, fun other calling hother => ?_,
          fun monitor hmonitor other hother => ?_⟩
        · obtain hold | hnew := hcases hother
          · exact h.starts other monitor hold
          · cases hnew
        · obtain hold | hnew := hcases hother
          · exact h.stops other calling hold
          · cases hnew
        · -- it has just been stopped
          obtain ⟨hlive, hne⟩ := List.mem_filter.mp hmonitor
          have hother : e.backend.monitors[monitor]? = some ⟨other, true⟩ := hother
          have hdirect := (h.lives monitor hlive other hother).1
          obtain rfl := Option.some.inj (hstop.1.symm.trans hdirect)
          refine absurd ?_ (of_decide_eq_true hne)
          rw [Backend.keyOf, hother]
          rfl
  | start device direct monitor =>
    have hgoes {next : List Worker} : (Worker.start device direct monitor).directAction = some .stop →
        ∃ other ∈ next, Worker.directAction other = some .stop := fun hstop => by cases direct <;> cases hstop
    cases monitor with
    | none =>
      refine ⟨fun other monitor hother => ?_, fun other calling hother => ?_,
        fun monitor hmonitor other hother => ?_⟩
      · obtain hold | hnew := hcases hother
        · exact h.starts other monitor hold
        · obtain ⟨rfl, rfl, -⟩ := Worker.start.inj (List.mem_singleton.mp hnew)
          exact h.starts _ _ hmem
      · obtain hold | hnew := hcases hother
        · exact h.stops other calling hold
        · cases List.mem_singleton.mp hnew
      · have hother : e.backend.monitors[monitor]? = some ⟨other, true⟩ :=
          (List.getElem?_append_left (hcalled monitor hmonitor)).symm.trans hother
        refine (h.lives monitor hmonitor other hother).imp_right fun hheld => ?_
        exact hheld.mono rfl (fun _ hjob _ => hposted hjob) (hstays hgoes)
    | some monitor =>
      have hdevice : e.backend.monitors[monitor]? = some ⟨device, direct⟩ := hapt _ hmem
      have hmonitors := monitors_started e.backend monitor reply.result
      refine ⟨fun other monitor hother => ?_, fun other calling hother => ?_,
        fun number hnumber other hother => ?_⟩
      · obtain hold | hnew := hcases hother
        · exact h.starts other monitor hold
        · cases hnew
      · obtain hold | hnew := hcases hother
        · exact h.stops other calling hold
        · cases hnew
      · have hmade : e.backend.monitors[number]? = some ⟨other, true⟩ := hmonitors ▸ hother
        obtain hlive | ⟨rfl, hok⟩ := mem_started hnumber
        · refine (h.lives number hlive other hmade).imp_right fun hheld => ?_
          exact hheld.mono rfl (fun _ hjob _ => hposted hjob) (hstays hgoes)
        · -- this one has just been started
          obtain ⟨rfl, rfl⟩ := Monitor.mk.inj (Option.some.inj (hdevice.symm.trans hmade))
          obtain ⟨hdirect, hstarting⟩ := h.starts _ _ hmem
          refine ⟨hdirect, ?_⟩
          unfold Held
          show match e.directPhase with | .idle => _ | .starting => _ | .active => _ | .stopping => _
          rw [hstarting]
          exact ⟨.directStartDone reply.result, by simp [Backend.advance, queue], by rw [hok]; rfl⟩

-- ---------------------------------------------------------------------------
-- The control thread
-- ---------------------------------------------------------------------------

theorem Tallied.pop (h : e.Tallied) {job : Job} {batch : List Job} (hbatch : e.batch = job :: batch)
    (hnone : job.directAction = none) : Tallied { e with batch } where
  directs action := by
    have hold := h.directs action
    rw [Impl.directs, queue, hbatch, List.cons_append, List.countP_cons_of_neg (by simp [hnone])] at hold
    exact hold
  idle := h.idle

theorem Aligned.pop (h : e.Aligned) {job : Job} {batch : List Job} (hbatch : e.batch = job :: batch)
    (hnone : job.directAction = none) : Aligned { e with batch } := by
  refine h.moves rfl rfl rfl (fun _ => id) (fun _ => .inl) fun hheld => hheld.mono rfl
    (fun other hother hstarted => ?_)
    fun worker hworker hstop => ⟨worker, hworker, hstop⟩
  rw [queue, hbatch] at hother
  obtain rfl | hrest := List.mem_cons.mp hother
  · cases other with
    | directStartDone => cases hnone
    | _ => cases hstarted
  · exact hrest

/-- What was pending is over, and nothing else was. -/
theorem Tallied.over (h : e.Tallied) {job : Job} {batch : List Job} {action : MonitorAction}
    (hbatch : e.batch = job :: batch)
    (haction : job.directAction = some action) :
    e.directPhase = action.phase ∧ (∀ worker ∈ e.workers, Worker.directAction worker = none) ∧
      ∀ other ∈ batch ++ e.inbox, Job.directAction other = none := by
  have hphase : e.directPhase = action.phase := by
    have hold := h.directs action
    rw [Impl.directs, queue, hbatch, List.cons_append, List.countP_cons_of_pos (by simp [haction])] at hold
    by_contra hne
    rw [if_neg hne] at hold
    omega
  have hzero (other : MonitorAction) :
      e.workers.countP (fun worker => worker.directAction = some other) = 0 ∧
        (batch ++ e.inbox).countP (fun job => job.directAction = some other) = 0 := by
    have hold := h.directs other
    rw [Impl.directs, queue, hbatch, List.cons_append, List.countP_cons, hphase] at hold
    cases action <;> cases other <;>
      simp only [haction, MonitorAction.phase, reduceCtorEq, decide_true, decide_false, if_true,
        if_false, Option.some.injEq,
        Bool.false_eq_true] at hold <;> omega
  refine ⟨hphase, fun worker hworker => ?_, fun other hother => ?_⟩
  · refine Option.eq_none_iff_forall_ne_some.mpr fun other heq => ?_
    exact List.countP_eq_zero.mp (hzero other).1 worker hworker (decide_eq_true heq)
  · refine Option.eq_none_iff_forall_ne_some.mpr fun action heq => ?_
    exact List.countP_eq_zero.mp (hzero action).2 other hother (decide_eq_true heq)

/-- Nothing is pending. -/
theorem Tallied.rests {direct : Option Identity} {phase : Phase} {batch : List Job}
    (hworkers : ∀ worker ∈ e.workers, Worker.directAction worker = none)
    (hjobs : ∀ job ∈ batch ++ e.inbox, Job.directAction job = none)
    (hphase : phase = .idle ∨ phase = .active ∧ direct ≠ none) :
    Tallied { e with batch, direct, directPhase := phase } where
  directs action := by
    have hnone : e.workers.countP (fun worker => worker.directAction = some action) = 0 :=
      List.countP_eq_zero.mpr fun worker hworker => by simp [hworkers worker hworker]
    have hnone' : (batch ++ e.inbox).countP (fun job => job.directAction = some action) = 0 :=
      List.countP_eq_zero.mpr fun job hjob => by simp [hjobs job hjob]
    rw [Impl.directs, queue, hnone, hnone']
    obtain rfl | ⟨rfl, -⟩ := hphase <;> cases action <;> rfl
  idle hdirect := hphase.resolve_right fun hactive => hactive.2 hdirect

theorem Aligned.rests {direct : Option Identity} {phase : Phase} {batch : List Job}
    (hworkers : ∀ worker ∈ e.workers, Worker.directAction worker = none)
    (hlives : ∀ monitor ∈ e.backend.live, ∀ device, e.backend.monitors[monitor]? = some ⟨device, true⟩ →
      direct = some device ∧ phase = .active) : Aligned { e with batch, direct, directPhase := phase } where
  starts device monitor hmem := by cases hworkers _ hmem
  stops device calling hmem := by cases hworkers _ hmem
  lives monitor hmonitor device hdevice := by
    obtain ⟨hdirect, rfl⟩ := hlives monitor hmonitor device hdevice
    exact ⟨hdirect, trivial⟩

theorem finishDirectStart_keeps (htallied : e.Tallied) (haligned : e.Aligned) {result : Result}
    {batch : List Job}
    (hbatch : e.batch = .directStartDone result :: batch) :
    (finishDirectStart { e with batch } result).Tallied ∧
    (finishDirectStart { e with batch } result).Aligned := by
  obtain ⟨hphase, hworkers, hjobs⟩ := htallied.over hbatch rfl
  have hphase : e.directPhase = .starting := hphase
  cases result with
  | ok =>
    refine ⟨.rests hworkers hjobs (.inr ⟨rfl, fun hnone => ?_⟩),
      .rests hworkers fun monitor hmonitor device hdevice => ?_⟩
    · cases hphase.symm.trans (htallied.idle hnone)
    · exact ⟨(haligned.lives monitor hmonitor device hdevice).1, rfl⟩
  | error cancelled =>
    refine ⟨.rests hworkers hjobs (.inl rfl), .rests hworkers fun monitor hmonitor device hdevice => ?_⟩
    -- a monitor that lives would have been heard of
    have hheld := (haligned.lives monitor hmonitor device hdevice).2
    rw [Held, hphase] at hheld
    obtain ⟨job, hjob, hstarted⟩ := hheld
    rw [queue, hbatch] at hjob
    obtain rfl | hrest := List.mem_cons.mp hjob
    · cases hstarted
    · have hnone := hjobs job hrest
      cases job with
      | directStartDone => cases hnone
      | _ => cases hstarted

theorem directStopDone_keeps (htallied : e.Tallied) (haligned : e.Aligned) {batch : List Job}
    (hbatch : e.batch = .directStopDone :: batch) :
    Tallied { e with batch, direct := none, directPhase := .idle } ∧
      Aligned { e with batch, direct := none, directPhase := .idle } := by
  obtain ⟨hphase, hworkers, hjobs⟩ := htallied.over hbatch rfl
  have hphase : e.directPhase = .stopping := hphase
  refine ⟨.rests hworkers hjobs (.inl rfl), .rests hworkers fun monitor hmonitor device hdevice => ?_⟩
  have hheld := (haligned.lives monitor hmonitor device hdevice).2
  rw [Held, hphase] at hheld
  obtain ⟨worker, hworker, hstop⟩ := hheld
  cases (hworkers worker hworker).symm.trans hstop

theorem directs_spawn (e : Impl) (worker : Worker) (action : MonitorAction) :
    (e.spawn worker).directs action = e.directs action + if worker.directAction =
    some action then 1 else 0 := by
  simp [Impl.directs, queue, spawn, List.countP_append, List.countP_singleton]
  omega

theorem handleDirectStart_keeps (htallied : e.Tallied) (haligned : e.Aligned) (device : Identity) :
    (e.handleDirectStart device).Tallied ∧ (e.handleDirectStart device).Aligned := by
  unfold handleDirectStart
  split
  · exact ⟨htallied, haligned⟩
  · rename_i hfree
    have hnone : e.direct = none := by
      cases hdirect : e.direct with
      | none => rfl
      | some other => simp [hdirect] at hfree
    have hidle := htallied.idle hnone
    refine ⟨⟨fun action => ?_, nofun⟩, ⟨fun other monitor hmem => ?_, fun other calling hmem => ?_,
      fun monitor hmonitor other hother => ?_⟩⟩
    · rw [directs_spawn]
      have hold := htallied.directs action
      rw [hidle] at hold
      show e.directs action + _ = _
      rw [hold]
      cases action <;> rfl
    · obtain hold | hnew := List.mem_append.mp hmem
      · cases hnone.symm.trans (haligned.starts other monitor hold).1
      · obtain ⟨rfl, -, -⟩ := Worker.start.inj (List.mem_singleton.mp hnew)
        exact ⟨rfl, rfl⟩
    · obtain hold | hnew := List.mem_append.mp hmem
      · cases hnone.symm.trans (haligned.stops other calling hold).1
      · cases List.mem_singleton.mp hnew
    · cases hnone.symm.trans (haligned.lives monitor hmonitor other hother).1

theorem handleDirectStop_keeps (htallied : e.Tallied) (haligned : e.Aligned) :
    e.handleDirectStop.Tallied ∧ e.handleDirectStop.Aligned := by
  unfold handleDirectStop
  split
  · exact ⟨htallied, haligned⟩
  · exact ⟨⟨htallied.directs, htallied.idle⟩, ⟨haligned.starts, haligned.stops, haligned.lives⟩⟩
  · rename_i device hdirect hactive
    refine ⟨⟨fun action => ?_, fun hnone => ?_⟩, ⟨fun other monitor hmem => ?_, fun other calling hmem => ?_,
      fun monitor hmonitor other hother => ?_⟩⟩
    · rw [directs_spawn]
      have hold := htallied.directs action
      rw [hactive] at hold
      show e.directs action + _ = _
      rw [hold]
      cases action <;> rfl
    · cases hdirect.symm.trans hnone
    · obtain hold | hnew := List.mem_append.mp hmem
      · cases hactive.symm.trans (haligned.starts other monitor hold).2
      · cases List.mem_singleton.mp hnew
    · obtain hold | hnew := List.mem_append.mp hmem
      · cases hactive.symm.trans (haligned.stops other calling hold).2
      · obtain ⟨rfl, -, -⟩ := Worker.stop.inj (List.mem_singleton.mp hnew)
        exact ⟨hdirect, rfl⟩
    · exact ⟨(haligned.lives monitor hmonitor other hother).1, _,
        List.mem_append_right _ (List.mem_singleton_self _), rfl⟩
  · exact ⟨htallied, haligned⟩

theorem runJob_keeps (htallied : e.Tallied) (haligned : e.Aligned) {job : Job} {batch : List Job}
    (hbatch : e.batch = job :: batch) (now : Nat) (jitter : Jitter) :
    (runJob { e with batch } now jitter job).Tallied ∧ (runJob { e with batch } now jitter job).Aligned := by
  by_cases haside : job.aside = true
  · have hnone := Job.directAction_eq_none haside
    have haside := aside_runJob { e with batch } now jitter haside
    have hthread := thread_runJob { e with batch } now jitter job
    exact ⟨(htallied.pop hbatch hnone).aside haside hthread, (haligned.pop hbatch hnone).aside haside hthread⟩
  · cases job with
    | command command =>
      have htallied := htallied.pop hbatch rfl
      have haligned := haligned.pop hbatch rfl
      cases command with
      | monitorDirect device => exact handleDirectStart_keeps htallied haligned device
      | stopDirect => exact handleDirectStop_keeps htallied haligned
      | shutdown =>
        exact ⟨⟨htallied.directs, htallied.idle⟩, ⟨haligned.starts, haligned.stops, haligned.lives⟩⟩
      | _ => exact absurd rfl haside
    | directStartDone result => exact finishDirectStart_keeps htallied haligned hbatch
    | directStopDone => exact directStopDone_keeps htallied haligned hbatch
    | _ => exact absurd rfl haside

end Impl
end Dmn.Engine
