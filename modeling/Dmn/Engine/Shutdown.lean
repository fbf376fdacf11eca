import Dmn.Engine.Direct

/-!
# What is left behind

A monitor of a session does not outlive the wish for it, and no monitor
outlives the engine.
-/

namespace Dmn.Engine

open Dmn.Lib

/-- The devices of the sessions' monitors that live. -/
def Backend.monitored (b : Backend) : List Identity :=
  b.live.filterMap fun monitor => (b.monitors[monitor]?.filter fun m => !m.direct).map (·.device)

theorem Backend.mem_monitored {b : Backend} {device : Identity} :
    device ∈ b.monitored ↔ ∃ monitor ∈ b.live, b.monitors[monitor]? = some ⟨device, false⟩ := by
  simp only [monitored, List.mem_filterMap, Option.map_eq_some_iff, Option.filter_eq_some_iff,
    Bool.not_eq_true']
  constructor
  · rintro ⟨monitor, hlive, m, ⟨hm, hdirect⟩, rfl⟩
    exact ⟨monitor, hlive, by rw [hm, ← hdirect]⟩
  · rintro ⟨monitor, hlive, hm⟩
    exact ⟨monitor, hlive, _, ⟨hm, rfl⟩, rfl⟩

theorem Backend.lives_of_monitored {b : Backend} {device : Identity} (h : device ∈ b.monitored) :
    b.Lives (identityKey device) := by
  obtain ⟨monitor, hlive, hm⟩ := mem_monitored.mp h
  refine ⟨monitor, hlive, ?_⟩
  rw [runs, hm, Option.any_some, beq_self_eq_true]
  rfl

namespace MonitorController

variable {c : MonitorController}

/-- A monitor that is active and not asked for is stopped. -/
theorem stop_of_reconcileDevice {allowStarts : Bool} {now : Nat} {device : ControllerDeviceState}
    (hactive : device.monitorActive = true) (hbusy : device.monitorBusy = false)
    (hunwanted : device.saved = false ∨ device.monitoringRequested = false) :
    (c.reconcileDevice allowStarts now device).2 = some ⟨device.identity, .stop⟩ := by
  unfold reconcileDevice
  dsimp only
  rw [if_neg (ne_true_of_eq_false hbusy), if_pos]
  obtain heq | heq := hunwanted <;> simp [hactive, heq]

theorem stop_of_reconcile {devices : List ControllerDeviceState} {allowStarts : Bool} {now : Nat}
    {device : ControllerDeviceState} (hmem : device ∈ devices) (hactive : device.monitorActive = true)
    (hbusy : device.monitorBusy = false) (hunwanted : device.saved = false ∨ device.monitoringRequested =
    false) :
    ⟨device.identity, .stop⟩ ∈ (c.reconcile devices allowStarts now).2 := by
  induction devices generalizing c with
  | nil => cases hmem
  | cons first devices ih =>
    obtain rfl | hrest := List.mem_cons.mp hmem
    · refine List.mem_append_left _ ?_
      exact Option.mem_toList.mpr (stop_of_reconcileDevice hactive hbusy hunwanted)
    · exact List.mem_append_right _ (ih hrest)

end MonitorController

namespace Impl

variable {e e' : Impl}

/-- A terminal event is not run while another monitor of its session is alive. -/
def Heeds (e : Impl) : Job → Prop
  | .monitorEvent device _ true =>
    (e.sessionFor device).phase = .active → ¬ e.backend.Lives (identityKey device)
  | _ => True

/-- Where the control thread looks after the monitors that it has started, it knows of all:
reconciliation lists the device of every active session that has one, shutdown that of every
session, and no direct start is still to be heard of. -/
def Oversees (e : Impl) : Prop :=
  (e.pc = .runs → e.shutdownRequested = false → ∀ job ∈ e.batch.take 1, e.Heeds job) ∧
  (e.pc = .runs → e.shutdownRequested = false → e.batch.isEmpty →
    ∀ device ∈ e.backend.monitored, (e.sessionFor device).phase = .active → (e.findEntry device).isSome) ∧
  (e.pc = .runs → e.shutdownRequested → ∀ job ∈ e.batch, Job.directStarted job = false) ∧
  (e.pc = .joins → (∀ device ∈ e.backend.monitored, (e.findEntry device).isSome) ∧ ∀ job ∈ e.inbox,
    Job.directStarted job = false)

/-- The devices of an inventory are distinct, and the control thread oversees the monitors. -/
def Accountable (e : Impl) : Action → Prop
  | .worker _ reply => SelectionModel.Distinct reply.devices
  | .control _ _ _ => e.Oversees
  | _ => True

instance (e : Impl) (job : Job) : Decidable (e.Heeds job) :=
  match job with
  | .monitorEvent _ _ true => inferInstanceAs (Decidable (_ → _))
  | .monitorEvent _ _ false | .command _ | .inventoryChanged | .snapshotDone _ | .scanDone _ _ | .connectDone
  | .disconnectDone _ _ | .startDone _ _ _ | .stopDone _ | .directStartDone _ | .directStopDone =>
    isTrue trivial

instance (e : Impl) : Decidable e.Oversees := inferInstanceAs (Decidable (_ ∧ _ ∧ _ ∧ _))

instance (e : Impl) (action : Action) : Decidable (e.Accountable action) :=
  match action with
  | .worker _ _ => inferInstanceAs (Decidable (List.Nodup _))
  | .control _ _ _ => inferInstanceAs (Decidable e.Oversees)
  | .send _ | .inventoryChanged | .event _ _ => isTrue trivial

-- ---------------------------------------------------------------------------
-- Monitors and phases
-- ---------------------------------------------------------------------------

/-- What holds of the monitors whatever the control thread does next. -/
structure Cared (e : Impl) : Prop where
  tended : Tended false false e
  tallied : e.Tallied
  aligned : e.Aligned

theorem Cared.aside (h : e.Cared) (hcalm : e.Calm e') (haside : e.Aside e') : e'.Cared :=
  ⟨h.tended.calm hcalm, h.tallied.aside haside hcalm.thread, h.aligned.aside haside hcalm.thread⟩

/-- Only fields that nothing of this is about change. -/
theorem Cared.frame (h : e.Cared) (hqueue : e'.queue = e.queue) (hworkers : e'.workers = e.workers)
    (hsessions : e'.sessions = e.sessions) (hbackend : e'.backend = e.backend) (hdirect : e'.direct = e.direct)
    (hphase : e'.directPhase = e.directPhase) : e'.Cared where
  tended := h.tended.frame hqueue hworkers hsessions (by rw [hbackend]) (by rw [hbackend])
  tallied := by
    refine ⟨fun action => ?_, fun hnone => hphase.trans (h.tallied.idle (hdirect.symm.trans hnone))⟩
    rw [directs, hqueue, hworkers, hphase]
    exact h.tallied.directs action
  aligned := by
    refine h.aligned.moves hdirect hphase (by rw [hbackend]) (fun _ hlive => hbackend ▸ hlive)
      (fun _ hworker => .inl (hworkers ▸ hworker)) fun hheld => hheld.mono hphase (fun _ hjob _ =>
        hqueue ▸ hjob) ?_
    exact fun worker hworker hstop => ⟨worker, hworkers ▸ hworker, hstop⟩

theorem Cared.runWorker (h : e.Cared) {index : Nat} {reply : Reply} (hs : e.runWorker index reply = some e') :
    e'.Cared :=
  ⟨h.tended.runWorker hs, h.tallied.runWorker hs,
    h.aligned.runWorker h.tended.attended.apt h.tended.attended.called hs⟩

/-- A job is posted that is about no operation, and monitors end. -/
theorem Tallied.post (h : e.Tallied) {job : Job} (hnone : job.directAction = none) (backend : Backend) :
    (Impl.post { e with backend } [job]).Tallied := by
  refine ⟨fun action => ?_, h.idle⟩
  have hold := h.directs action
  rw [Impl.directs] at hold ⊢
  have hqueue : (Impl.post { e with backend } [job]).queue = e.queue ++ [job] := (List.append_assoc ..).symm
  rw [hqueue, List.countP_append, List.countP_singleton, hnone]
  exact hold

theorem Aligned.post (h : e.Aligned) (job : Job) {backend : Backend}
    (hmonitors : backend.monitors = e.backend.monitors)
    (hlive : ∀ monitor ∈ backend.live, monitor ∈ e.backend.live) :
    (Impl.post { e with backend } [job]).Aligned := by
  refine h.moves rfl rfl hmonitors hlive (fun _ => .inl) fun hheld => hheld.mono rfl (fun other hother _ => ?_)
    fun worker hworker hstop => ⟨worker, hworker, hstop⟩
  show other ∈ e.batch ++ (e.inbox ++ [job])
  rw [← List.append_assoc]
  exact List.mem_append_left _ hother

theorem Cared.post (h : e.Cared) {job : Job} (hop : job.op = .other) (hnone : job.directAction = none)
    (hsettle : ∀ key phase, settle false key phase job = phase) : (e.post [job]).Cared :=
  ⟨h.tended.post hop hsettle, h.tallied.post hnone e.backend, h.aligned.post job rfl fun _ => id⟩

theorem Cared.event (h : e.Cared) {monitor : Nat} {m : Monitor} (terminal : Bool) :
    (Impl.post { e with backend := if terminal then e.backend.terminated monitor else e.backend }
      [.monitorEvent m.device monitor terminal]).Cared := by
  cases terminal with
  | false => exact h.post rfl rfl fun _ _ => rfl
  | true =>
    exact ⟨h.tended.terminated nofun, h.tallied.post rfl _,
      h.aligned.post _ rfl fun _ hlive => (List.mem_filter.mp hlive).1⟩

/-- A session of which a start is pending is starting. -/
theorem Tended.starting (h : Tended false false e) {worker : Worker} {key : Key} (hmem : worker ∈ e.workers)
    (hop : worker.op = .start key) : (e.sessions key).phase = .starting := by
  have hstarts := h.phased.starts key
  rw [total_other rfl, pending] at hstarts
  have hpos : 0 < (e.workers.map Worker.op).countP (Op.starts key) :=
    List.countP_pos_iff.mpr ⟨_, List.mem_map_of_mem hmem, by simp [hop, Op.starts]⟩
  by_contra hphase
  rw [if_neg hphase] at hstarts
  omega

/-- A worker makes no monitor live but one that has been starting. -/
theorem Tended.monitored_runWorker (h : Tended false false e) {index : Nat} {reply : Reply}
    (hs : e.runWorker index reply = some e') {device : Identity} (hmem : device ∈ e'.backend.monitored) :
    device ∈ e.backend.monitored ∨ (e.sessionFor device).phase = .starting := by
  obtain ⟨left, worker, right, hworkers, rfl⟩ := runWorker_cases hs
  have hworker : worker ∈ e.workers := by simp [hworkers]
  obtain ⟨monitor, hlive, hm⟩ := Backend.mem_monitored.mp hmem
  have hstays (hlive : monitor ∈ e.backend.live) (hm : e.backend.monitors[monitor]? = some ⟨device, false⟩) :
      device ∈ e.backend.monitored := Backend.mem_monitored.mpr ⟨monitor, hlive, hm⟩
  cases worker with
  | snapshot | scan | connect | cancelConnect => exact .inl (hstays hlive hm)
  | stop other direct calling =>
    cases calling with
    | false => exact .inl (hstays hlive hm)
    | true => exact .inl (hstays (List.mem_filter.mp hlive).1 hm)
  | disconnect other stopFirst pc =>
    cases pc with
    | stopping => exact .inl (hstays (List.mem_filter.mp hlive).1 hm)
    | stops | disconnects | disconnecting => exact .inl (hstays hlive hm)
  | start other direct number =>
    cases number with
    | none =>
      have hcalled := h.attended.called monitor hlive
      exact .inl (hstays hlive ((List.getElem?_append_left hcalled).symm.trans hm))
    | some number =>
      have hmade : e.backend.monitors[monitor]? = some ⟨device, false⟩ :=
        monitors_started e.backend number reply.result ▸ hm
      obtain hlive | ⟨rfl, -⟩ := mem_started hlive
      · exact .inl (hstays hlive hmade)
      · have hapt : e.backend.monitors[monitor]? = some ⟨other, direct⟩ := h.attended.apt _ hworker
        obtain ⟨rfl, rfl⟩ := Monitor.mk.inj (Option.some.inj (hapt.symm.trans hmade))
        exact .inr (h.starting hworker rfl)

theorem snapshot_advance {b : Backend} {worker : Worker} {reply other : Reply}
    (h : .snapshotDone other ∈ (b.advance worker reply).2.1) : other = reply := by
  cases worker with
  | snapshot => exact Job.snapshotDone.inj (List.mem_singleton.mp h)
  | start device direct monitor =>
    cases monitor with
    | none => cases h
    | some monitor => cases direct <;> cases List.mem_singleton.mp h
  | stop device direct calling =>
    cases calling with
    | false => cases h
    | true => cases direct <;> cases List.mem_singleton.mp h
  | disconnect device stopFirst pc =>
    cases pc with
    | stops | stopping | disconnects => cases h
    | disconnecting => cases List.mem_singleton.mp h
  | scan | connect => cases List.mem_singleton.mp h
  | cancelConnect => cases h

-- ---------------------------------------------------------------------------
-- Reconciliation
-- ---------------------------------------------------------------------------

theorem intents_reconcile (e : Impl) (now : Nat) : (e.reconcile now).intents = e.intents := by
  have hfold (commands : List MonitorCommand) : ∀ e : Impl, (commands.foldl execute e).intents = e.intents := by
    induction commands with
    | nil => exact fun _ => rfl
    | cons command commands ih =>
      refine fun e => (ih _).trans ?_
      unfold execute
      split <;> rfl
  exact hfold _ _

/-- What is active after the commands of the controller was so before, and is not what they are about. -/
theorem active_foldl_execute {commands : List MonitorCommand} {key : Key}
    (h : ((commands.foldl execute e).sessions key).phase = .active) :
    (e.sessions key).phase = .active ∧ ∀ command ∈ commands, identityKey command.identity ≠ key := by
  induction commands generalizing e with
  | nil => exact ⟨h, fun _ hnone => absurd hnone List.not_mem_nil⟩
  | cons command commands ih =>
    obtain ⟨hactive, hrest⟩ := ih h
    have hother : identityKey command.identity ≠ key := by
      rintro rfl
      unfold execute at hactive
      split at hactive
      · have hphase := congrArg Session.phase (sessions_setSession e command.identity
          { e.sessionFor command.identity with phase := .starting, cancel := some false }
            (identityKey command.identity))
        rw [if_pos rfl] at hphase
        cases hactive.symm.trans hphase
      · cases hactive.symm.trans ((phase_setPhase e command.identity .stopping _).trans (if_pos rfl))
    refine ⟨?_, fun other hmem => ?_⟩
    · unfold execute at hactive
      split at hactive
      · have hphase := congrArg Session.phase (sessions_setSession e command.identity
          { e.sessionFor command.identity with phase := .starting, cancel := some false } key)
        rw [if_neg (Ne.symm hother)] at hphase
        exact hphase.symm.trans hactive
      · exact ((phase_setPhase e command.identity .stopping key).trans (if_neg (Ne.symm hother))).symm.trans
          hactive
    · obtain rfl | hmem := List.mem_cons.mp hmem
      · exact hother
      · exact hrest other hmem

theorem active_of_reconcile {now : Nat} {device : Identity}
    (h : ((e.reconcile now).sessionFor device).phase = .active) :
    (e.sessionFor device).phase = .active := (active_foldl_execute h).1

/-- A device that is listed, and active after reconciliation, is saved and asked for. -/
theorem wanted_of_reconcile {now : Nat} {device : Identity} (hlisted : (e.findEntry device).isSome)
    (h : ((e.reconcile now).sessionFor device).phase = .active) :
    contains e.selection.savedSelection device ∧ contains e.intents device := by
  have hactive := active_of_reconcile h
  have hnone := (active_foldl_execute h).2
  obtain ⟨entry, hentry⟩ := Option.isSome_iff_exists.mp hlisted
  have hfound := List.find?_some hentry
  have hkey : identityKey entry.identity = identityKey device := sameIdentity_iff.mp hfound
  have hphase : (e.sessionFor entry.identity).phase = .active :=
    (congrArg (fun key => (e.sessions key).phase) hkey).trans hactive
  have hsame (list : List Identity) : contains list entry.identity = contains list device := by
    rw [Bool.eq_iff_iff, contains_iff, contains_iff, hkey]
  rw [← hsame, ← hsame]
  by_contra hunwanted
  refine hnone ⟨entry.identity, .stop⟩ ?_ hkey
  have hstate : e.deviceState entry ∈ e.deviceStates := List.mem_map_of_mem (List.mem_of_find?_eq_some hentry)
  refine MonitorController.stop_of_reconcile hstate ?_ ?_ ?_
  · exact decide_eq_true hphase
  · simp [deviceState, hphase]
  · show contains e.selection.savedSelection entry.identity = false ∨ contains e.intents entry.identity = false
    simpa only [Decidable.not_and_iff_or_not, Bool.not_eq_true] using hunwanted

-- ---------------------------------------------------------------------------
-- Steps
-- ---------------------------------------------------------------------------

/-- While the engine runs. -/
structure Tending (e : Impl) : Prop where
  running : e.Running
  cared : e.Cared
  known : Known e.selection
  replies : ∀ reply, .snapshotDone reply ∈ e.queue → SelectionModel.Distinct reply.devices
  -- After reconciliation no session is active that is not asked for.
  wanted : e.pc = .waits → ∀ device ∈ e.backend.monitored, (e.sessionFor device).phase = .active →
    contains e.selection.savedSelection device ∧ contains e.intents device

/-- While shutdown waits, the jobs that it has dropped tell of no direct monitor that lives. -/
def Winding (e : Impl) : Prop :=
  ∃ batch, (∀ job ∈ batch, Job.directStarted job = false) ∧ Cared { e with batch }

/-- What is known of the monitors, wherever the control thread is. -/
def Supervised (e : Impl) : Prop :=
  match e.pc with
  | .waits | .runs => e.Tending
  | .joins => e.Winding
  | .stops devices =>
    e.workers = [] ∧ ∀ monitor ∈ e.backend.live, ∃ device ∈ devices, e.backend.keyOf monitor =
      some (identityKey device)
  | .closed => e.workers = [] ∧ e.backend.live = []

theorem Tending.post (h : e.Tending) {job : Job} {backend : Backend}
    (hcared : (Impl.post { e with backend } [job]).Cared)
    (hreply : ∀ reply, job ≠ .snapshotDone reply) (hmonitored : ∀ device ∈ backend.monitored,
    device ∈ e.backend.monitored) :
    (Impl.post { e with backend } [job]).Tending where
  running := ⟨h.running.pc, h.running.batch⟩
  cared := hcared
  known := h.known
  replies reply hmem := by
    rw [queue, Impl.post, ← List.append_assoc, List.mem_append] at hmem
    exact hmem.elim (h.replies reply) fun hnew => absurd (List.mem_singleton.mp hnew).symm (hreply reply)
  wanted hwaits device hmem := h.wanted hwaits device (hmonitored device hmem)

/-- A job is posted from outside, and a monitor may have ended. -/
theorem Supervised.post (h : e.Supervised) {job : Job} {backend : Backend}
    (hmonitors : backend.monitors = e.backend.monitors)
    (hlive : ∀ monitor ∈ backend.live, monitor ∈ e.backend.live)
    (hcared : ∀ batch, Cared { e with batch } → (Impl.post { e with batch, backend } [job]).Cared)
    (hreply : ∀ reply, job ≠ .snapshotDone reply) : (Impl.post { e with backend } [job]).Supervised := by
  have hmonitored (device : Identity) (hmem : device ∈ backend.monitored) : device ∈ e.backend.monitored := by
    obtain ⟨monitor, hmonitor, hm⟩ := Backend.mem_monitored.mp hmem
    exact Backend.mem_monitored.mpr ⟨monitor, hlive monitor hmonitor, hmonitors ▸ hm⟩
  unfold Supervised at h ⊢
  show match e.pc with | .waits | .runs => _ | .joins => _ | .stops devices => _ | .closed => _
  split at h
  · exact h.post (hcared e.batch h.cared) hreply hmonitored
  · exact h.post (hcared e.batch h.cared) hreply hmonitored
  · obtain ⟨batch, hbatch, hcared'⟩ := h
    exact ⟨batch, hbatch, hcared batch hcared'⟩
  · refine ⟨h.1, fun monitor hmonitor => ?_⟩
    obtain ⟨device, hdevice, hkey⟩ := h.2 monitor (hlive monitor hmonitor)
    refine ⟨device, hdevice, ?_⟩
    rw [← hkey]
    show (backend.monitors[monitor]?).map _ = _
    rw [hmonitors]
    rfl
  · refine ⟨h.1, List.eq_nil_iff_forall_not_mem.mpr fun monitor hmonitor => ?_⟩
    have hmem := hlive monitor hmonitor
    rw [h.2] at hmem
    cases hmem

/-- No worker looks at the jobs of the batch. -/
theorem runWorker_batch (e : Impl) (batch : List Job) (index : Nat) (reply : Reply) :
    Impl.runWorker { e with batch } index reply = (e.runWorker index reply).map fun e => { e with batch } := by
  unfold Impl.runWorker
  dsimp only
  split <;> rfl

theorem Supervised.runWorker (h : e.Supervised) {index : Nat} {reply : Reply}
    (hdistinct : SelectionModel.Distinct reply.devices) (hs : e.runWorker index reply = some e') :
    e'.Supervised := by
  have htending (h : e.Tending) : e'.Tending := by
    have hmonitored {device : Identity} (hmem : device ∈ e'.backend.monitored) :=
      h.cared.tended.monitored_runWorker hs hmem
    have hcared := h.cared.runWorker hs
    obtain ⟨left, worker, right, -, rfl⟩ := runWorker_cases hs
    refine ⟨⟨h.running.pc, h.running.batch⟩, hcared, h.known, fun other hmem => ?_,
      fun hwaits device hmem hactive => ?_⟩
    · rw [queue, ← List.append_assoc, List.mem_append] at hmem
      obtain hold | hnew := hmem
      · exact h.replies other hold
      · obtain rfl := snapshot_advance hnew
        exact hdistinct
    · obtain hold | hstarting := hmonitored hmem
      · exact h.wanted hwaits device hold hactive
      · cases hstarting.symm.trans hactive
  unfold Supervised at h ⊢
  have hpc : e'.pc = e.pc := by
    obtain ⟨left, worker, right, -, rfl⟩ := runWorker_cases hs
    rfl
  rw [hpc]
  split
  · rename_i hwaits
    rw [hwaits] at h
    exact htending h
  · rename_i hruns
    rw [hruns] at h
    exact htending h
  · rename_i hjoins
    rw [hjoins] at h
    obtain ⟨batch, hbatch, hcared⟩ := h
    have hs' : Impl.runWorker { e with batch } index reply = some { e' with batch } := by
      rw [runWorker_batch, hs]
      rfl
    exact ⟨batch, hbatch, hcared.runWorker hs'⟩
  all_goals
    rename_i hpc
    rw [hpc] at h
    obtain ⟨left, worker, right, hworkers, -⟩ := runWorker_cases hs
    rw [h.1] at hworkers
    cases left <;> cases hworkers

-- the control thread

theorem Tending.runJob (h : e.Tending) {job : Job} {batch : List Job} (hruns : e.pc = .runs)
    (hbatch : e.batch = job :: batch)
    (hheeds : e.Heeds job) (now : Nat) (jitter : Jitter) :
    (runJob { e with batch } now jitter job).Tending := by
  have hthread := thread_runJob { e with batch } now jitter job
  have hpc : (Impl.runJob { e with batch } now jitter job).pc = .runs := hthread.pc.trans hruns
  have hkeeps := runJob_keeps h.cared.tallied h.cared.aligned hbatch now jitter
  have hreplies (reply : Reply) (hmem : .snapshotDone reply ∈ job :: (batch ++ e.inbox)) :
      SelectionModel.Distinct reply.devices := h.replies reply (by rw [queue, hbatch]; exact hmem)
  refine ⟨⟨.inr hpc, fun hwaits => by cases hpc.symm.trans hwaits⟩, ⟨?_, hkeeps.1, hkeeps.2⟩, ?_,
    fun reply hmem => ?_,
    fun hwaits => by cases hpc.symm.trans hwaits⟩
  · refine h.cared.tended.runJob hbatch (fun _ device monitor heq => ?_) now jitter
    subst heq
    exact hheeds
  · refine Known.runJob (e := { e with batch }) h.known (fun reply heq => hreplies reply ?_) now jitter
    exact heq ▸ List.mem_cons_self
  · rw [queue, hthread.batch, hthread.inbox] at hmem
    exact hreplies reply (List.mem_cons_of_mem _ hmem)

theorem Tending.reconcile (h : e.Tending) (hbatch : e.batch = []) (now : Nat) (refresh : Bool)
    (hlisted : ∀ device ∈ e.backend.monitored, (e.sessionFor device).phase = .active →
    (e.findEntry device).isSome) :
    Tending { (if refresh then e.refreshInventory else e).reconcile now with pc := .waits } := by
  have hrefreshed : e.Calm (if refresh then e.refreshInventory else e) ∧
    e.Plain (if refresh then e.refreshInventory else e) := by
    cases refresh with
    | false => exact ⟨.refl e, .refl e⟩
    | true => exact ⟨calm_refreshInventory e, plain_refreshInventory e⟩
  obtain ⟨hcalm, hplain⟩ := hrefreshed
  generalize (if refresh then e.refreshInventory else e) = e₁ at hcalm hplain
  have hcared := h.cared.aside hcalm hplain.toAside
  have hknown : Known e₁.selection := hplain.selection ▸ h.known
  have hplain' := plain_reconcile e₁ now
  have hthread := (hcalm.thread).trans (thread_reconcile e₁ now)
  have hdone : (e₁.reconcile now).Cared := ⟨hcared.tended.reconcile hknown now nofun,
    hcared.tallied.aside hplain'.toAside (thread_reconcile e₁ now),
      hcared.aligned.aside hplain'.toAside (thread_reconcile e₁ now)⟩
  refine ⟨⟨.inl rfl, fun _ => hthread.batch.trans hbatch⟩, hdone.frame rfl rfl rfl rfl rfl rfl, ?_,
    fun reply hmem => ?_,
    fun _ device hmem hactive => ?_⟩
  · exact hplain'.selection ▸ hknown
  · refine h.replies reply ?_
    have hqueue : (e₁.reconcile now).queue = e.queue := by rw [queue, queue, hthread.batch, hthread.inbox]
    exact hqueue ▸ hmem
  · have hmonitored : (e₁.reconcile now).backend.monitored = e.backend.monitored := by
      rw [Backend.monitored, Backend.monitored, hplain'.live, hplain'.monitors, hplain.live, hplain.monitors]
    have hmem : device ∈ e.backend.monitored := hmonitored ▸ hmem
    have hactive : ((e₁.reconcile now).sessionFor device).phase = .active := hactive
    have hlisted := hlisted device hmem ((hcalm.phase _).symm.trans (active_of_reconcile hactive))
    have hwanted := wanted_of_reconcile (e := e₁) (by rw [findEntry, hplain.selection]; exact hlisted) hactive
    show contains (e₁.reconcile now).selection.savedSelection device ∧
      contains (e₁.reconcile now).intents device
    rw [hplain'.selection, intents_reconcile]
    exact hwanted

/-- What the phases say when shutdown begins they say until it has stopped the monitors. -/
theorem Tending.beginShutdown (h : e.Tending) (hleaves : ∀ job ∈ e.batch, Job.directStarted job = false) :
    e.beginShutdown.Winding := by
  have hcalm : e.Calm { e with
      shuttingDown := true, directCancel := true
      sessions := fun key => { e.sessions key with cancel := (e.sessions key).cancel.map fun _ => true } } :=
    ⟨fun _ => rfl, fun _ => rfl, rfl, rfl, rfl, rfl, rfl, rfl, rfl,
      [], (List.append_nil _).symm, fun _ hnone => absurd hnone List.not_mem_nil⟩
  exact ⟨e.batch, hleaves, (h.cared.aside hcalm (.of_eq rfl rfl rfl rfl rfl rfl)).frame rfl rfl rfl rfl rfl rfl⟩

/-- Shutdown stops what lives when the last worker is done. -/
theorem Winding.toStop (h : e.Winding) (hworkers : e.workers = [])
    (hlisted : ∀ device ∈ e.backend.monitored, (e.findEntry device).isSome)
    (hinbox : ∀ job ∈ e.inbox, Job.directStarted job = false) :
    ∀ monitor ∈ e.backend.live, ∃ device ∈ e.toStop, e.backend.keyOf monitor = some (identityKey device) := by
  obtain ⟨batch, hbatch, hcared⟩ := h
  intro monitor hlive
  have hlt : monitor < e.backend.monitors.length := hcared.tended.attended.called monitor hlive
  obtain ⟨⟨device, direct⟩, hm⟩ : ∃ m, e.backend.monitors[monitor]? = some m :=
    ⟨_, List.getElem?_eq_getElem hlt⟩
  have hkeyOf : e.backend.keyOf monitor = some (identityKey device) := by rw [Backend.keyOf, hm]; rfl
  cases direct with
  | true =>
    obtain ⟨hdirect, hheld⟩ := hcared.aligned.lives monitor hlive device hm
    have hdirect : e.direct = some device := hdirect
    refine ⟨device, List.mem_append_left _ ?_, hkeyOf⟩
    have hactive : e.directPhase = .active := by
      unfold Held at hheld
      split at hheld
      · exact hheld.elim
      · obtain ⟨job, hjob, hstarted⟩ := hheld
        have hnone := (List.mem_append.mp hjob).elim (hbatch job) (hinbox job)
        cases hstarted.symm.trans hnone
      · assumption
      · obtain ⟨worker, hworker, -⟩ := hheld
        have hworker : worker ∈ e.workers := hworker
        rw [hworkers] at hworker
        cases hworker
    rw [if_pos hactive, hdirect]
    exact List.mem_singleton_self device
  | false =>
    have hmonitored := Backend.mem_monitored.mpr ⟨monitor, hlive, hm⟩
    have hbusy : (e.sessions (identityKey device)).phase ≠ .idle := fun hidle =>
      hcared.tended.idle hidle (Backend.lives_of_monitored hmonitored)
    obtain ⟨entry, hentry⟩ := Option.isSome_iff_exists.mp (hlisted device hmonitored)
    have hfound := List.find?_some hentry
    have hkey : identityKey entry.identity = identityKey device := sameIdentity_iff.mp hfound
    refine ⟨entry.identity, List.mem_append_right _ ?_, hkeyOf.trans (congrArg some hkey.symm)⟩
    refine List.mem_map_of_mem (List.mem_filter.mpr ⟨List.mem_of_find?_eq_some hentry, decide_eq_true ?_⟩)
    rw [sessionFor, hkey]
    exact hbusy

theorem Supervised.control (h : e.Supervised) (hoversees : e.Oversees) {now : Nat} {refresh : Bool}
    {jitter : Jitter}
    (hs : e.control now refresh jitter = some e') : e'.Supervised := by
  obtain ⟨hheeds, hlisted, hleaves, hleft⟩ := hoversees
  unfold Supervised at h
  unfold Impl.control at hs
  split at hs
  · rename_i hwaits
    rw [hwaits] at h
    have h : e.Tending := h
    obtain rfl := Option.some.inj hs
    have hqueue : Impl.queue { e with batch := e.inbox, inbox := [], pc := .runs } = e.queue := by
      rw [queue, queue, h.running.batch hwaits, List.append_nil]
      rfl
    exact ⟨⟨.inr rfl, by rintro ⟨⟩⟩, h.cared.frame hqueue rfl rfl rfl rfl rfl, h.known,
      fun reply hmem => h.replies reply (hqueue ▸ hmem), by rintro ⟨⟩⟩
  · rename_i hruns
    rw [hruns] at h
    have h : e.Tending := h
    split at hs
    · rename_i hrequested
      obtain rfl := Option.some.inj hs
      exact h.beginShutdown (hleaves hruns hrequested)
    · rename_i hrequested
      have hrequested := eq_false_of_ne_true hrequested
      split at hs
      · rename_i job batch hbatch
        obtain rfl := Option.some.inj hs
        have hheeds := hheeds hruns hrequested job (by rw [hbatch]; exact List.mem_singleton_self job)
        have htending := h.runJob hruns hbatch hheeds now jitter
        have hpc : (Impl.runJob { e with batch } now jitter job).pc = .runs :=
          (thread_runJob { e with batch } now jitter job).pc.trans hruns
        unfold Supervised
        rw [hpc]
        exact htending
      · rename_i hbatch
        obtain rfl := Option.some.inj hs
        exact h.reconcile hbatch now refresh (hlisted hruns hrequested (List.isEmpty_iff.mpr hbatch))
  · rename_i hjoins
    rw [hjoins] at h
    have h : e.Winding := h
    split at hs
    · rename_i hworkers
      obtain rfl := Option.some.inj hs
      have hworkers := List.isEmpty_iff.mp hworkers
      exact ⟨hworkers, h.toStop hworkers (hleft hjoins).1 (hleft hjoins).2⟩
    · cases hs
  · rename_i device devices hstops
    rw [hstops] at h
    obtain rfl := Option.some.inj hs
    refine ⟨h.1, fun monitor hmonitor => ?_⟩
    obtain ⟨hlive, hne⟩ := List.mem_filter.mp hmonitor
    obtain ⟨other, hother, hkey⟩ := h.2 monitor hlive
    obtain rfl | hrest := List.mem_cons.mp hother
    · exact absurd hkey (of_decide_eq_true hne)
    · exact ⟨other, hrest, hkey⟩
  · rename_i hstops
    rw [hstops] at h
    obtain rfl := Option.some.inj hs
    refine ⟨h.1, List.eq_nil_iff_forall_not_mem.mpr fun monitor hmonitor => ?_⟩
    obtain ⟨device, hnone, -⟩ := h.2 monitor hmonitor
    cases hnone
  · cases hs

theorem Supervised.step {action : Action} (h : e.Supervised) (hok : e.Accountable action)
    (hs : e.step action = some e') :
    e'.Supervised := by
  cases action with
  | send command =>
    simp only [Impl.step] at hs
    split at hs
    · cases hs
    · obtain rfl := Option.some.inj hs
      exact h.post rfl (fun _ => id) (fun _ hcared => hcared.post rfl rfl fun _ _ => rfl) (by rintro _ ⟨⟩)
  | inventoryChanged =>
    obtain rfl := Option.some.inj hs
    exact h.post rfl (fun _ => id) (fun _ hcared => hcared.post rfl rfl fun _ _ => rfl) (by rintro _ ⟨⟩)
  | event monitor terminal =>
    simp only [Impl.step] at hs
    split at hs
    · cases hs
    · rename_i m hm
      obtain rfl := Option.some.inj hs
      refine h.post ?_ (fun other hother => ?_) (fun _ hcared => hcared.event terminal) (by rintro _ ⟨⟩)
      · cases terminal <;> rfl
      · cases terminal with
        | false => exact hother
        | true => exact (List.mem_filter.mp hother).1
  | worker index reply => exact h.runWorker hok hs
  | control now refresh jitter => exact h.control hok hs

theorem supervised_new (inventoryEnabled : Bool) : (new inventoryEnabled).Supervised := by
  have hnone {α : Type} {p : Prop} (a : α) (hmem : a ∈ ([] : List α)) : p := absurd hmem List.not_mem_nil
  have hcalm := calm_refreshInventory { inventoryEnabled }
  have hplain := plain_refreshInventory { inventoryEnabled }
  have htallied : Tallied { inventoryEnabled } := ⟨fun action => by cases action <;> rfl, fun _ => rfl⟩
  have haligned : Aligned { inventoryEnabled } :=
    ⟨fun _ _ hmem => hnone _ hmem, fun _ _ hmem => hnone _ hmem, fun monitor hmem => hnone monitor hmem⟩
  have hconfined := confined_new inventoryEnabled
  have htending : (new inventoryEnabled).Tending := by
    refine ⟨running_new _, ⟨tended_new _, htallied.aside hplain.toAside hcalm.thread,
      haligned.aside hplain.toAside hcalm.thread⟩,
      hconfined.known, fun reply hmem => hconfined.jobs _ hmem, fun _ device hmem => ?_⟩
    obtain ⟨monitor, hlive, -⟩ := Backend.mem_monitored.mp hmem
    have hlive : monitor ∈ (Impl.backend { inventoryEnabled }).live := hplain.live ▸ hlive
    exact hnone monitor hlive
  have hpc : (new inventoryEnabled).pc = .waits := hcalm.pc
  unfold Supervised
  rw [hpc]
  exact htending

/-- No monitor lives when `bye` has been sent, and where nothing is pending none of a session that
is not asked for. -/
theorem none_outlives {inventoryEnabled : Bool} (h : ReachesBy step Accountable (new inventoryEnabled) e) :
    (e.pc = .closed → e.backend.live = []) ∧
    (e.pc = .waits → e.Quiescent → ∀ device ∈ e.backend.monitored,
      contains e.selection.savedSelection device ∧ contains e.intents device) := by
  have hsupervised : e.Supervised := h.invariant (supervised_new _) fun h hok hs => h.step hok hs
  unfold Supervised at hsupervised
  refine ⟨fun hclosed => ?_, fun hwaits hquiescent device hmem => ?_⟩
  · rw [hclosed] at hsupervised
    exact hsupervised.2
  · rw [hwaits] at hsupervised
    have htending : e.Tending := hsupervised
    refine htending.wanted hwaits device hmem ?_
    have hphased := htending.cared.tended.phased
    have hstarts := hphased.starts (identityKey device)
    have hstops := hphased.stops (identityKey device)
    rw [total_other rfl, pending, hquiescent.workers, hquiescent.queue] at hstarts hstops
    show (e.sessions (identityKey device)).phase = .active
    cases hphase : (e.sessions (identityKey device)).phase with
    | idle => exact absurd (Backend.lives_of_monitored hmem) (htending.cared.tended.idle hphase)
    | starting => simp [hphase] at hstarts
    | active => rfl
    | stopping => simp [hphase] at hstops

/-- The first device is monitored when the engine is shut down. -/
def dismissed : List Action :=
  configured [phone] ++ [.worker 0 {}, .worker 0 {}, .send .shutdown, goesOn, goesOn, goesOn, goesOn,
    goesOn, goesOn, goesOn]

/-- The first device is monitored. -/
def watched : List Action :=
  configured [phone] ++ [.worker 0 {}, .worker 0 {}, goesOn, goesOn, goesOn]

theorem none_outlives_once :
    (∃ e : Impl, e.pc = .closed ∧ e.backend.succeeded = [0] ∧ e.backend.live = []) ∧
      ∃ e : Impl, phone ∈ e.backend.monitored ∧
        contains e.selection.savedSelection phone ∧ contains e.intents phone :=
  have h : ReachesBy step Accountable (new true) _ := ReachesBy.of_isSome_by dismissed (by decide +kernel)
  have h' : ReachesBy step Accountable (new true) _ := ReachesBy.of_isSome_by watched (by decide +kernel)
  have hmem : phone ∈ _ := by decide +kernel
  ⟨⟨_, by decide +kernel, by decide +kernel, (none_outlives h).1 (by decide +kernel)⟩,
    _, hmem, (none_outlives h').2 (by decide +kernel)
      ⟨List.isEmpty_iff.mp (by decide +kernel), List.isEmpty_iff.mp (by decide +kernel)⟩ phone hmem⟩

/-- A direct start returns while shutdown waits for it. -/
def directStarting : List Action :=
  [.send (.monitorDirect phone), .worker 0 { devices }, goesOn, goesOn, goesOn, goesOn, .worker 0 {},
    .send .shutdown,
    goesOn, goesOn, goesOn, .worker 0 {}, goesOn, goesOn]

/-- The first device, which is monitored, is no longer saved and leaves the inventory. -/
def forgotten : List Action :=
  configured [phone] ++ [.worker 0 {}, .worker 0 {}, .send .refresh, goesOn, goesOn, goesOn, goesOn,
    .send (.select phone false), .send .saveSelection, .worker 0 {}, goesOn, goesOn, goesOn, goesOn, goesOn]

theorem one_outlives :
    (¬ ∀ e : Impl, Reaches step (new true) e → e.pc = .closed → e.backend.live = []) ∧
    ¬ ∀ e : Impl, Reaches step (new true) e → e.pc = .waits → e.Quiescent → ∀ device ∈ e.backend.monitored,
      contains e.selection.savedSelection device ∧ contains e.intents device := by
  constructor
  · intro h
    have hreaches : Reaches step (new true) _ := ReachesBy.of_isSome directStarting (by decide +kernel)
    have hlive := h _ hreaches (by decide +kernel)
    revert hlive
    decide +kernel
  · intro h
    have hreaches : Reaches step (new true) _ := ReachesBy.of_isSome forgotten (by decide +kernel)
    have hwanted := h _ hreaches (by decide +kernel)
      ⟨List.isEmpty_iff.mp (by decide +kernel), List.isEmpty_iff.mp (by decide +kernel)⟩ phone (by
        decide +kernel)
    revert hwanted
    decide +kernel

end Impl
end Dmn.Engine
