import Dmn.Engine.Deferred

/-!
# Devices

The devices that the engine knows have distinct identities if those of every
inventory have. Without `monitor_direct` every worker is one of a session's.
-/

namespace Dmn.Engine

open Dmn.Lib

def Worker.direct : Worker → Bool
  | .start _ direct _ | .stop _ direct _ => direct
  | _ => false

/-- Neither a direct monitor nor the end of the engine. -/
def Command.confined : Command → Bool
  | .monitorDirect _ | .shutdown => false
  | _ => true

/-- Neither about the direct monitor nor about the end of the engine. -/
def Command.aside : Command → Bool
  | .monitorDirect _ | .stopDirect | .shutdown => false
  | _ => true

def Job.aside : Job → Bool
  | .command sent => sent.aside
  | .directStartDone _ | .directStopDone => false
  | _ => true

def Job.Confined : Job → Prop
  | .command sent => sent.confined
  | .snapshotDone reply => SelectionModel.Distinct reply.devices
  | .directStartDone _ | .directStopDone => False
  | _ => True

namespace Impl

variable {e e' e'' : Impl}

/-- The devices of an inventory are distinct, and the commands are confined to sessions. -/
def Confines : Action → Prop
  | .send command => command.confined
  | .worker _ reply => SelectionModel.Distinct reply.devices
  | _ => True

instance (action : Action) : Decidable (Confines action) :=
  match action with
  | .send _ => inferInstanceAs (Decidable (_ = true))
  | .worker _ _ => inferInstanceAs (Decidable (List.Nodup _))
  | .inventoryChanged | .event _ _ | .control _ _ _ => isTrue trivial

/-- The devices that are known. -/
structure Known (selection : SelectionModel) : Prop where
  wellformed : selection.Wellformed
  distinct : SelectionModel.Distinct selection.devices

structure Confined (e : Impl) : Prop where
  requested : e.shutdownRequested = false
  direct : e.direct = none
  monitors : ∀ m ∈ e.backend.monitors, Monitor.direct m = false
  workers : ∀ worker ∈ e.workers, Worker.direct worker = false
  jobs : ∀ job ∈ e.queue, Job.Confined job
  known : Known e.selection

/-- Nothing direct changes, what is spawned is not direct, and the engine goes on. -/
structure Aside (e e' : Impl) : Prop where
  requested : e'.shutdownRequested = e.shutdownRequested
  direct : e'.direct = e.direct
  directPhase : e'.directPhase = e.directPhase
  monitors : e'.backend.monitors = e.backend.monitors
  live : e'.backend.live = e.backend.live
  workers : ∃ new, e'.workers = e.workers ++ new ∧ ∀ worker ∈ new, Worker.direct worker = false

theorem Aside.trans (h : e.Aside e') (h' : e'.Aside e'') : e.Aside e'' where
  requested := h'.requested.trans h.requested
  direct := h'.direct.trans h.direct
  directPhase := h'.directPhase.trans h.directPhase
  monitors := h'.monitors.trans h.monitors
  live := h'.live.trans h.live
  workers := by
    obtain ⟨new, hworkers, hnew⟩ := h.workers
    obtain ⟨new', hworkers', hnew'⟩ := h'.workers
    refine ⟨new ++ new', by rw [hworkers', hworkers, List.append_assoc], fun worker hworker => ?_⟩
    exact (List.mem_append.mp hworker).elim (hnew worker) (hnew' worker)

/-- Only other fields differ. -/
theorem Aside.of_eq (hrequested : e'.shutdownRequested = e.shutdownRequested) (hdirect : e'.direct = e.direct)
    (hphase : e'.directPhase = e.directPhase) (hmonitors : e'.backend.monitors = e.backend.monitors)
    (hlive : e'.backend.live = e.backend.live) (hworkers : e'.workers = e.workers) : e.Aside e' :=
  ⟨hrequested, hdirect, hphase, hmonitors, hlive, [], hworkers.trans (List.append_nil _).symm,
    fun _ hnone => absurd hnone List.not_mem_nil⟩

theorem Aside.refl (e : Impl) : e.Aside e := .of_eq rfl rfl rfl rfl rfl rfl

theorem Aside.mem_workers (h : e.Aside e') {worker : Worker} (hmem : worker ∈ e'.workers) :
    worker ∈ e.workers ∨ worker.direct = false := by
  obtain ⟨new, hworkers, hnew⟩ := h.workers
  rw [hworkers] at hmem
  exact (List.mem_append.mp hmem).imp_right (hnew worker)

/-- The devices stay as they are too. -/
structure Plain (e e' : Impl) : Prop extends Aside e e' where
  selection : e'.selection = e.selection

theorem Plain.refl (e : Impl) : e.Plain e := ⟨.refl e, rfl⟩

theorem Plain.trans (h : e.Plain e') (h' : e'.Plain e'') : e.Plain e'' :=
  ⟨h.toAside.trans h'.toAside, h'.selection.trans h.selection⟩

theorem plain_spawn (e : Impl) {worker : Worker} (hdirect : worker.direct = false) :
    e.Plain (e.spawn worker) where
  requested := rfl
  selection := rfl
  direct := rfl
  directPhase := rfl
  monitors := rfl
  live := rfl
  workers := ⟨[worker], rfl, fun _ hnew => List.mem_singleton.mp hnew ▸ hdirect⟩

theorem Plain.of_eq (hselection : e'.selection = e.selection)
    (hrequested : e'.shutdownRequested = e.shutdownRequested)
    (hdirect : e'.direct = e.direct) (hphase : e'.directPhase = e.directPhase)
    (hmonitors : e'.backend.monitors = e.backend.monitors) (hlive : e'.backend.live = e.backend.live)
    (hworkers : e'.workers = e.workers) : e.Plain e' :=
  ⟨.of_eq hrequested hdirect hphase hmonitors hlive hworkers, hselection⟩

theorem plain_refreshInventory (e : Impl) : e.Plain e.refreshInventory := by
  unfold refreshInventory
  split
  · exact .refl e
  · refine .trans ?_ (plain_spawn _ rfl)
    exact .of_eq rfl rfl rfl rfl rfl rfl rfl

theorem plain_runDisconnect (e : Impl) (device : Identity) (stopFirst : Bool) :
    e.Plain (e.runDisconnect device stopFirst) := by
  unfold runDisconnect
  split
  · exact .refl e
  · refine .trans ?_ (plain_spawn _ rfl)
    cases stopFirst <;> exact .of_eq rfl rfl rfl rfl rfl rfl rfl

theorem plain_resumeDisconnect (e : Impl) (device : Identity) : e.Plain (e.resumeDisconnect device) := by
  unfold resumeDisconnect
  dsimp only
  split
  · exact .refl e
  · refine .trans ?_ (plain_runDisconnect _ _ _)
    exact .of_eq rfl rfl rfl rfl rfl rfl rfl

theorem plain_finishStart (e : Impl) (device : Identity) (result : Result) (now : Nat) (jitter : Jitter) :
    e.Plain (e.finishStart device result now jitter) := by
  unfold finishStart
  refine .trans ?_ (plain_resumeDisconnect _ _)
  cases result with
  | ok => exact .of_eq rfl rfl rfl rfl rfl rfl rfl
  | error cancelled =>
    dsimp only
    split <;> exact .of_eq rfl rfl rfl rfl rfl rfl rfl

theorem plain_handleMonitorEvent (e : Impl) (device : Identity) (terminal : Bool) (now : Nat)
    (jitter : Jitter) :
    e.Plain (e.handleMonitorEvent device terminal now jitter) := by
  unfold handleMonitorEvent
  split
  · dsimp only
    split <;> exact .of_eq rfl rfl rfl rfl rfl rfl rfl
  · exact .refl e

theorem plain_execute (e : Impl) (command : MonitorCommand) : e.Plain (e.execute command) := by
  unfold execute
  split
  · refine .trans ?_ (plain_spawn _ rfl)
    exact .of_eq rfl rfl rfl rfl rfl rfl rfl
  · refine .trans ?_ (plain_spawn _ rfl)
    exact .of_eq rfl rfl rfl rfl rfl rfl rfl

theorem plain_reconcile (e : Impl) (now : Nat) : e.Plain (e.reconcile now) := by
  have hfold (commands : List MonitorCommand) : ∀ e : Impl, e.Plain (commands.foldl execute e) := by
    induction commands with
    | nil => exact fun e => .refl e
    | cons command commands ih => exact fun e => (plain_execute e command).trans (ih _)
  refine .trans ?_ (hfold _ _)
  exact .of_eq rfl rfl rfl rfl rfl rfl rfl

theorem plain_handleScan (e : Impl) (enabled : Bool) (adapter : Bytes) :
    e.Plain (e.handleScan enabled adapter) := by
  unfold handleScan
  dsimp only
  split
  · exact .refl e
  · split
    · exact .refl e
    · refine .trans ?_ (plain_spawn _ rfl)
      exact .of_eq rfl rfl rfl rfl rfl rfl rfl

theorem plain_handleConnect (e : Impl) (device : Identity) : e.Plain (e.handleConnect device) := by
  unfold handleConnect
  split
  · exact .refl e
  · split
    · exact .refl e
    · split
      · refine .trans ?_ (plain_spawn _ rfl)
        exact .of_eq rfl rfl rfl rfl rfl rfl rfl
      · exact .refl e

theorem plain_acceptDisconnect (e : Impl) (device : Identity) : e.Plain (e.acceptDisconnect device) := by
  unfold acceptDisconnect
  dsimp only
  split
  · exact .of_eq rfl rfl rfl rfl rfl rfl rfl
  · exact .of_eq rfl rfl rfl rfl rfl rfl rfl
  · refine .trans ?_ (plain_runDisconnect _ _ _)
    exact .of_eq rfl rfl rfl rfl rfl rfl rfl
  · refine .trans ?_ (plain_runDisconnect _ _ _)
    exact .of_eq rfl rfl rfl rfl rfl rfl rfl

theorem plain_handleDisconnect (e : Impl) (device : Identity) : e.Plain (e.handleDisconnect device) := by
  unfold handleDisconnect
  split
  · exact .refl e
  · split
    · exact plain_spawn e rfl
    · split
      · exact .refl e
      · split
        · exact plain_acceptDisconnect e _
        · exact .refl e

theorem plain_handleMonitor (e : Impl) (device : Identity) (enabled : Bool) :
    e.Plain (e.handleMonitor device enabled) := by
  unfold handleMonitor
  split
  · exact .refl e
  · dsimp only
    split
    · split
      · exact .refl e
      · split
        · exact .of_eq rfl rfl rfl rfl rfl rfl rfl
        · exact .refl e
    · split <;> exact .of_eq rfl rfl rfl rfl rfl rfl rfl

theorem plain_handleDirectStop (e : Impl) (hdirect : e.direct = none) : e.Plain e.handleDirectStop := by
  unfold handleDirectStop
  split
  · exact .refl e
  · rename_i hsome _
    cases hdirect.symm.trans hsome
  · rename_i hsome _
    cases hdirect.symm.trans hsome
  · exact .refl e

theorem plain_foldl_resetRetries (devices : List Identity) (e : Impl) :
    e.Plain (devices.foldl resetRetries e) := by
  induction devices generalizing e with
  | nil => exact .refl e
  | cons device devices ih =>
    refine .trans ?_ (ih _)
    exact .of_eq rfl rfl rfl rfl rfl rfl rfl

/-- Every other command leaves the direct monitor alone. -/
theorem aside_handleCommand (e : Impl) {command : Command} (haside : command.aside) :
    e.Aside (e.handleCommand command) := by
  cases command with
  | hello | unknown => exact .refl e
  | configure | discardSelection | sort => exact .of_eq rfl rfl rfl rfl rfl rfl
  | refresh => exact (plain_refreshInventory e).toAside
  | scan enabled adapter => exact (plain_handleScan e enabled adapter).toAside
  | select device selected =>
    show e.Aside (e.handleSelect device selected)
    unfold handleSelect
    split
    · exact .refl e
    · exact .of_eq rfl rfl rfl rfl rfl rfl
  | saveSelection =>
    have hselected : e.Aside { e with selection := e.selection.saveSelection } := .of_eq rfl rfl rfl rfl rfl rfl
    have hfold := hselected.trans (plain_foldl_resetRetries
      (e.intents.filter fun identity => !contains e.selection.saveSelection.savedSelection identity) _).toAside
    show e.Aside e.handleSave
    refine hfold.trans ?_
    exact .of_eq rfl rfl rfl rfl rfl rfl
  | connect device => exact (plain_handleConnect e device).toAside
  | disconnect device => exact (plain_handleDisconnect e device).toAside
  | monitor device enabled => exact (plain_handleMonitor e device enabled).toAside
  | monitorDirect | stopDirect | shutdown => cases haside

theorem aside_runJob (e : Impl) (now : Nat) (jitter : Jitter) {job : Job} (haside : job.aside) :
    e.Aside (e.runJob now jitter job) := by
  cases job with
  | command command => exact aside_handleCommand e haside
  | inventoryChanged => exact (plain_refreshInventory e).toAside
  | snapshotDone reply =>
    unfold runJob
    dsimp only
    split <;> exact .of_eq rfl rfl rfl rfl rfl rfl
  | scanDone | connectDone =>
    refine .trans ?_ (plain_refreshInventory _).toAside
    exact .of_eq rfl rfl rfl rfl rfl rfl
  | disconnectDone device stopFirst =>
    refine .trans ?_ (plain_refreshInventory _).toAside
    cases stopFirst <;> exact .of_eq rfl rfl rfl rfl rfl rfl
  | startDone device monitor result => exact (plain_finishStart e device result now jitter).toAside
  | stopDone device =>
    refine .trans ?_ (plain_resumeDisconnect _ device).toAside
    exact .of_eq rfl rfl rfl rfl rfl rfl
  | monitorEvent device monitor terminal =>
    exact (plain_handleMonitorEvent e device terminal now jitter).toAside
  | directStartDone | directStopDone => cases haside

-- ---------------------------------------------------------------------------
-- The selection
-- ---------------------------------------------------------------------------

variable {selection : SelectionModel}

theorem Known.loadSavedSelection (h : Known selection) (saved : List Identity) :
    Known (selection.loadSavedSelection saved) := by
  have hloaded := h.wellformed.loadSavedSelection saved
  exact ⟨hloaded, SelectionModel.distinct_mergeSavedDevices h.distinct h.wellformed.devices hloaded.saved⟩

theorem Known.saveSelection (h : Known selection) : Known selection.saveSelection := by
  have hsaved := h.wellformed.saveSelection
  exact ⟨hsaved, SelectionModel.distinct_mergeSavedDevices h.distinct h.wellformed.devices hsaved.saved⟩

theorem Known.discardChanges (h : Known selection) : Known selection.discardChanges := by
  have hdiscarded := h.wellformed.discardChanges
  exact ⟨hdiscarded, SelectionModel.distinct_mergeSavedDevices h.distinct h.wellformed.devices hdiscarded.saved⟩

theorem Known.sortDevices (h : Known selection) (column : SortColumn) (ascending : Bool) :
    Known (selection.sortDevices column ascending) :=
  ⟨h.wellformed.sortDevices column ascending,
    ((SelectionModel.devices_applySort
    { selection with sortColumn := column, sortAscending := ascending }).map _).nodup_iff.mpr
      h.distinct⟩

theorem Known.setDraftSelected (h : Known selection) (identity : Identity) (selected : Bool) :
    Known (selection.setDraftSelected identity selected).1 := by
  refine ⟨h.wellformed.setDraftSelected identity selected, ?_⟩
  rw [(SelectionModel.setDraftSelected_same selection identity selected).1]
  exact h.distinct

theorem Known.replaceInventory (h : Known selection) {inventory : List DeviceEntry}
    (hdistinct : SelectionModel.Distinct inventory) : Known (selection.replaceInventory inventory) :=
  ⟨h.wellformed.replaceInventory inventory, SelectionModel.distinct_replaceInventory h.wellformed hdistinct⟩

-- ---------------------------------------------------------------------------
-- Steps
-- ---------------------------------------------------------------------------

theorem Confined.aside (h : e.Confined) (haside : e.Aside e') (hthread : e.Thread e')
    (hknown : Known e'.selection) :
    e'.Confined where
  requested := haside.requested.trans h.requested
  direct := haside.direct.trans h.direct
  monitors := haside.monitors ▸ h.monitors
  workers worker hworker := (haside.mem_workers hworker).elim (h.workers worker) id
  jobs job hjob := by
    rw [queue, hthread.batch, hthread.inbox] at hjob
    exact h.jobs job hjob
  known := hknown

theorem Confined.plain (h : e.Confined) (hplain : e.Plain e') (hthread : e.Thread e') : e'.Confined :=
  h.aside hplain.toAside hthread (hplain.selection ▸ h.known)

theorem Known.handleCommand (h : Known e.selection) (command : Command) :
    Known (e.handleCommand command).selection := by
  cases command with
  | hello | unknown | shutdown => exact h
  | configure saved monitoring sort =>
    have hloaded := h.loadSavedSelection saved
    cases sort with
    | none => exact hloaded
    | some sort => exact hloaded.sortDevices sort.1 sort.2
  | refresh => exact (plain_refreshInventory e).selection ▸ h
  | scan enabled adapter => exact (plain_handleScan e enabled adapter).selection ▸ h
  | select device selected =>
    show Known (e.handleSelect device selected).selection
    unfold handleSelect
    split
    · exact h
    · exact h.setDraftSelected _ selected
  | saveSelection =>
    have hfold := plain_foldl_resetRetries
      (e.intents.filter fun identity => !contains e.selection.saveSelection.savedSelection identity)
      { e with selection := e.selection.saveSelection }
    exact hfold.selection ▸ h.saveSelection
  | discardSelection => exact h.discardChanges
  | sort column ascending => exact h.sortDevices column ascending
  | connect device => exact (plain_handleConnect e device).selection ▸ h
  | disconnect device => exact (plain_handleDisconnect e device).selection ▸ h
  | monitor device enabled => exact (plain_handleMonitor e device enabled).selection ▸ h
  | monitorDirect device =>
    show Known (e.handleDirectStart device).selection
    unfold handleDirectStart
    split <;> exact h
  | stopDirect =>
    show Known e.handleDirectStop.selection
    unfold handleDirectStop
    split <;> exact h

theorem Known.runJob (h : Known e.selection) {job : Job}
    (hdistinct : ∀ reply, job = .snapshotDone reply → SelectionModel.Distinct reply.devices)
    (now : Nat) (jitter : Jitter) :
    Known (e.runJob now jitter job).selection := by
  cases job with
  | command command => exact h.handleCommand command
  | inventoryChanged => exact (plain_refreshInventory e).selection ▸ h
  | snapshotDone reply =>
    unfold Impl.runJob
    dsimp only
    split
    · exact h.replaceInventory (hdistinct reply rfl)
    · exact h
  | scanDone enabled result =>
    exact (plain_refreshInventory { e with scanBusy := false, scanning := _ }).selection ▸ h
  | connectDone =>
    exact (plain_refreshInventory { e with connectionBusy := false, pendingConnect := none }).selection ▸ h
  | disconnectDone device stopFirst =>
    have hsame : (e.runJob now jitter (.disconnectDone device stopFirst)).selection = e.selection := by
      refine (plain_refreshInventory _).selection.trans ?_
      cases stopFirst <;> rfl
    exact hsame ▸ h
  | startDone device monitor result => exact (plain_finishStart e device result now jitter).selection ▸ h
  | stopDone device => exact (plain_resumeDisconnect (e.setPhase device .idle) device).selection ▸ h
  | monitorEvent device monitor terminal =>
    exact (plain_handleMonitorEvent e device terminal now jitter).selection ▸ h
  | directStartDone result => cases result <;> exact h
  | directStopDone => exact h

theorem Confined.runJob (h : e.Confined) {job : Job} {batch : List Job} (hbatch : e.batch = job :: batch)
    (now : Nat)
    (jitter : Jitter) : (runJob { e with batch } now jitter job).Confined := by
  have hjob : job.Confined := h.jobs job (by rw [queue, hbatch]; exact List.mem_cons_self)
  have hpop : Confined { e with batch } := by
    refine ⟨h.requested, h.direct, h.monitors, h.workers, fun other hother => h.jobs other ?_, h.known⟩
    rw [queue, hbatch]
    exact List.mem_cons_of_mem _ hother
  have hthread := thread_runJob { e with batch } now jitter job
  by_cases haside : job.aside = true
  · refine hpop.aside (aside_runJob _ now jitter haside) hthread (hpop.known.runJob (fun reply heq =>
      ?_) now jitter)
    subst heq
    exact hjob
  · cases job with
    | command command =>
      cases command with
      | stopDirect => exact hpop.plain (plain_handleDirectStop _ hpop.direct) hthread
      | monitorDirect | shutdown => cases hjob
      | _ => exact absurd rfl haside
    | directStartDone | directStopDone => cases hjob
    | _ => exact absurd rfl haside

theorem confined_advance (b : Backend) {worker : Worker} {reply : Reply} (hdirect : worker.direct = false)
    (hdistinct : SelectionModel.Distinct reply.devices) :
    (∀ next ∈ (b.advance worker reply).1, Worker.direct next = false) ∧
      ∀ job ∈ (b.advance worker reply).2.1, Job.Confined job := by
  have hnone {α : Type} {p : α → Prop} : ∀ a ∈ ([] : List α), p a := fun _ hmem => absurd hmem List.not_mem_nil
  have hone {α : Type} {p : α → Prop} {a : α} (ha : p a) : ∀ a' ∈ [a], p a' := fun a' hmem =>
    List.mem_singleton.mp hmem ▸ ha
  cases worker with
  | start device direct monitor =>
    obtain rfl : direct = false := hdirect
    cases monitor with
    | none => exact ⟨hone rfl, hnone⟩
    | some monitor => exact ⟨hnone, hone trivial⟩
  | stop device direct calling =>
    obtain rfl : direct = false := hdirect
    cases calling with
    | false => exact ⟨hone rfl, hnone⟩
    | true => exact ⟨hnone, hone trivial⟩
  | disconnect device stopFirst pc =>
    cases pc with
    | stops | stopping | disconnects => exact ⟨hone rfl, hnone⟩
    | disconnecting => exact ⟨hnone, hone trivial⟩
  | snapshot => exact ⟨hnone, hone hdistinct⟩
  | scan | connect => exact ⟨hnone, hone trivial⟩
  | cancelConnect => exact ⟨hnone, hnone⟩

theorem monitors_advance (b : Backend) {worker : Worker} (reply : Reply) (hdirect : worker.direct = false)
    (hmonitors : ∀ m ∈ b.monitors, Monitor.direct m = false) :
    ∀ m ∈ (b.advance worker reply).2.2.monitors, Monitor.direct m = false := by
  cases worker with
  | start device direct monitor =>
    obtain rfl : direct = false := hdirect
    cases monitor with
    | none =>
      exact fun m hm => (List.mem_append.mp hm).elim (hmonitors m) fun hnew => by
        rw [List.mem_singleton.mp hnew]
    | some monitor =>
      show ∀ m ∈ (b.started monitor reply.result).monitors, Monitor.direct m = false
      unfold Backend.started
      split <;> exact hmonitors
  | stop device direct calling => cases calling <;> exact hmonitors
  | disconnect device stopFirst pc => cases pc <;> exact hmonitors
  | snapshot | scan | connect | cancelConnect => exact hmonitors

theorem Confined.runWorker (h : e.Confined) {index : Nat} {reply : Reply}
    (hdistinct : SelectionModel.Distinct reply.devices) (hs : e.runWorker index reply = some e') :
    e'.Confined := by
  obtain ⟨left, worker, right, hworkers, rfl⟩ := runWorker_cases hs
  have hdirect := h.workers worker (by simp [hworkers])
  obtain ⟨hnext, hposted⟩ := confined_advance e.backend hdirect hdistinct
  refine ⟨h.requested, h.direct, monitors_advance e.backend reply hdirect h.monitors,
    fun other hother => ?_, fun job hjob => ?_, h.known⟩
  · have hold := h.workers other
    rw [hworkers] at hold
    rw [List.mem_append, List.mem_append] at hother
    obtain (hleft | hmem) | hright := hother
    · exact hold (List.mem_append_left _ hleft)
    · exact hnext other hmem
    · exact hold (List.mem_append_right _ (List.mem_cons_of_mem _ hright))
  · rw [queue, ← List.append_assoc, List.mem_append] at hjob
    exact hjob.elim (h.jobs job) (hposted job)

theorem Confined.post (h : e.Confined) {job : Job} (hjob : job.Confined) : (e.post [job]).Confined where
  requested := h.requested
  direct := h.direct
  monitors := h.monitors
  workers := h.workers
  jobs other hother := by
    rw [queue, Impl.post, ← List.append_assoc, List.mem_append] at hother
    exact hother.elim (h.jobs other) fun hnew => List.mem_singleton.mp hnew ▸ hjob
  known := h.known

theorem Confined.control (h : e.Confined) (hrunning : e.Running) {now : Nat} {refresh : Bool} {jitter : Jitter}
    (hs : e.control now refresh jitter = some e') : e'.Confined := by
  obtain ⟨-, hbatch, rfl⟩ | ⟨job, batch, -, hbatch, rfl⟩ | ⟨-, -, rfl⟩ := control_cases hrunning h.requested hs
  · have hqueue : e.queue = e.inbox := by rw [queue, hbatch, List.nil_append]
    refine ⟨h.requested, h.direct, h.monitors, h.workers, fun job hjob => h.jobs job ?_, h.known⟩
    rw [queue, List.append_nil] at hjob
    exact hqueue ▸ hjob
  · exact h.runJob hbatch now jitter
  · have hrefreshed : (if refresh then e.refreshInventory else e).Confined := by
      split
      · exact h.plain (plain_refreshInventory e) (calm_refreshInventory e).thread
      · exact h
    have hreconciled := hrefreshed.plain (plain_reconcile _ now) (thread_reconcile _ now)
    exact ⟨hreconciled.requested, hreconciled.direct, hreconciled.monitors, hreconciled.workers,
      hreconciled.jobs, hreconciled.known⟩

theorem Confined.step {action : Action} (h : e.Confined) (hrunning : e.Running) (hok : Confines action)
    (hs : e.step action = some e') : e'.Confined := by
  cases action with
  | send command =>
    simp only [Impl.step] at hs
    split at hs
    · cases hs
    · obtain rfl := Option.some.inj hs
      exact h.post hok
  | inventoryChanged =>
    obtain rfl := Option.some.inj hs
    exact h.post trivial
  | event monitor terminal =>
    simp only [Impl.step] at hs
    split at hs
    · cases hs
    · obtain rfl := Option.some.inj hs
      have hframe :
        Confined { e with backend := if terminal then e.backend.terminated monitor else e.backend } :=
        ⟨h.requested, h.direct, by cases terminal <;> exact h.monitors, h.workers, h.jobs, h.known⟩
      exact hframe.post trivial
  | worker index reply => exact h.runWorker hok hs
  | control now refresh jitter => exact h.control hrunning hs

theorem confined_new (inventoryEnabled : Bool) : (new inventoryEnabled).Confined := by
  have hempty : Confined { inventoryEnabled } := by
    refine ⟨rfl, rfl, fun _ hmem => ?_, fun _ hmem => ?_, fun _ hmem => ?_, ⟨⟨fun _ hmem => ?_,
      fun _ hmem => ?_, fun _ hmem => ?_⟩,
      List.nodup_nil⟩⟩
    all_goals exact absurd hmem List.not_mem_nil
  exact hempty.plain (plain_refreshInventory _) (calm_refreshInventory _).thread

/-- A command is issued for a known device, and for each device at most one. -/
theorem monitorCommands_issued (e : Impl) (now : Nat) {command : MonitorCommand}
    (h : command ∈ (e.monitorCommands now).2) :
    ∃ entry ∈ e.selection.devices, MonitorController.Issued (!e.shuttingDown) (e.deviceState entry)
      command := by
  obtain ⟨device, hdevice, hissued⟩ := MonitorController.issued_of_reconcile h
  obtain ⟨entry, hentry, rfl⟩ := List.mem_map.mp hdevice
  exact ⟨entry, hentry, hissued⟩

theorem nodup_monitorCommands (h : Known e.selection) (now : Nat) :
    ((e.monitorCommands now).2.map fun command => identityKey command.identity).Nodup := by
  have hsublist := (MonitorController.identities_reconcile e.deviceStates e.controller
    (!e.shuttingDown) now).map identityKey
  rw [List.map_map, List.map_map] at hsublist
  refine hsublist.nodup ?_
  unfold deviceStates
  rw [List.map_map]
  exact h.distinct

end Impl
end Dmn.Engine
