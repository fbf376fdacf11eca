import Dmn.Engine.Devices

/-!
# Authorised starts

Intents are for saved devices, each once. The retry states of the controller
say how often a device has failed since its last reset, and when it is due.
-/

namespace Dmn.Engine

open Dmn.Lib

/-- The retry state after so many failures. -/
def retryOf (identity : Identity) : Option Failures → RetryState
  | none => { identity }
  | some failures =>
    { identity
      attempts := min failures.count kMaximumBackoffAttempt
      nextAttempt := failures.time +
        min (kInitialRetryDelay * 2 ^ (failures.count - 1)) kMaximumRetryDelay * failures.jitter / 100 }

/-- The controller counts the failures as they are counted here. -/
structure Follows (c : MonitorController) (failures : Key → Option Failures) : Prop where
  states : ∀ identity : Identity, identity.Normal → c.stateOf identity = retryOf identity
    (failures (identityKey identity))
  counts : ∀ key failure, failures key = some failure → 0 < failure.count

section
variable {c : MonitorController} {failures : Key → Option Failures} {identity : Identity}

theorem Follows.reset (h : Follows c failures) (hnormal : identity.Normal) :
    Follows (c.resetRetries identity) (Function.update failures (identityKey identity) none) where
  states other hother := by
    rw [MonitorController.stateOf_resetRetries]
    by_cases hsame : other = identity
    · rw [if_pos hsame, hsame, Function.update_self]
      rfl
    · have hne : identityKey other ≠ identityKey identity := fun heq => hsame ((hother.eq_iff hnormal).mpr heq)
      rw [if_neg hsame, Function.update_of_ne hne]
      exact h.states other hother
  counts key failure hfailure := by
    by_cases hkey : key = identityKey identity
    · rw [hkey, Function.update_self] at hfailure
      cases hfailure
    · rw [Function.update_of_ne hkey] at hfailure
      exact h.counts key failure hfailure

/-- One failure more. -/
theorem Follows.fail (h : Follows c failures) (hnormal : identity.Normal) (now : Nat) (jitter : Jitter) :
    ∃ c' delay, c.recordStartFailure identity now jitter.percent = some (c', delay) ∧
      Follows c' (Function.update failures (identityKey identity)
        (some ⟨((failures (identityKey identity)).map (·.count)).getD 0 + 1, now, jitter.percent⟩)) := by
  have hsome : (c.recordStartFailure identity now jitter.percent).isSome := by
    unfold MonitorController.recordStartFailure
    rw [if_neg (not_or.mpr ⟨Nat.not_lt_of_le jitter.minimum, Nat.not_lt_of_le jitter.maximum⟩)]
    rfl
  obtain ⟨⟨c', delay⟩, hrecord⟩ := Option.isSome_iff_exists.mp hsome
  refine ⟨c', delay, hrecord, fun other hother => ?_, fun key failure hfailure => ?_⟩
  · rw [MonitorController.stateOf_recordStartFailure hrecord]
    by_cases hsame : other = identity
    · subst hsame
      have hattempts : min ((c.stateOf other).attempts + 1) (max (c.stateOf other).attempts
        kMaximumBackoffAttempt) =
          min (((failures (identityKey other)).map (·.count)).getD 0 + 1) kMaximumBackoffAttempt := by
        rw [h.states other hnormal]
        cases failures (identityKey other) with
        | none => rfl
        | some failure =>
          simp only [retryOf, Option.map_some, Option.getD_some]
          omega
      rw [if_pos rfl, Function.update_self, hattempts, MonitorController.retryDelay_eq (Nat.succ_pos _)]
      rfl
    · have hne : identityKey other ≠ identityKey identity := fun heq => hsame ((hother.eq_iff hnormal).mpr heq)
      rw [if_neg hsame, Function.update_of_ne hne]
      exact h.states other hother
  · by_cases hkey : key = identityKey identity
    · rw [hkey, Function.update_self] at hfailure
      obtain rfl := Option.some.inj hfailure
      exact Nat.succ_pos _
    · rw [Function.update_of_ne hkey] at hfailure
      exact h.counts key failure hfailure

/-- A pass of the controller resets what has lapsed. -/
theorem Follows.reconcile (h : Follows c failures) {devices : List ControllerDeviceState}
    (hdevices : ∀ device ∈ devices, device.identity.Normal) (allowStarts : Bool) (now : Nat) :
    Follows (c.reconcile devices allowStarts now).1 fun key =>
      if devices.any fun device => MonitorController.lapsed device && identityKey device.identity ==
        key then none
      else failures key where
  states other hother := by
    have hany : (devices.any fun device => MonitorController.lapsed device && device.identity = other) =
        devices.any fun device => MonitorController.lapsed device && identityKey device.identity ==
          identityKey other := by
      rw [Bool.eq_iff_iff, List.any_eq_true, List.any_eq_true]
      refine exists_congr fun device => and_congr_right fun hdevice => ?_
      simp [(hdevices device hdevice).eq_iff hother]
    rw [MonitorController.stateOf_reconcile, hany]
    split
    · rfl
    · exact h.states other hother
  counts key failure hfailure := by
    split at hfailure
    · cases hfailure
    · exact h.counts key failure hfailure

end

/-- The device of a start is in upper case. -/
def Worker.Stable : Worker → Prop
  | .start device _ _ => device.Normal
  | _ => True

def Job.Stable : Job → Prop
  | .command (.monitorDirect _) => False
  | .startDone device _ _ | .monitorEvent device _ _ => device.Normal
  | _ => True

namespace Impl

variable {e e' e'' : Impl}

/-- No direct monitor is asked for. -/
def Indirect : Action → Prop
  | .send (.monitorDirect _) => False
  | _ => True

instance (action : Action) : Decidable (Indirect action) := by
  unfold Indirect
  split <;> infer_instance

structure Authorised (e : Impl) : Prop where
  wellformed : e.selection.Wellformed
  saved : ∀ intent ∈ e.intents, intent ∈ e.selection.savedSelection
  distinct : (e.intents.map identityKey).Nodup
  follows : Follows e.controller e.failures
  workers : ∀ worker ∈ e.workers, Worker.Stable worker
  monitors : ∀ m ∈ e.backend.monitors, (Monitor.device m).Normal
  jobs : ∀ job ∈ e.queue, Job.Stable job

/-- Devices, intents and failures stay, and no start is spawned. -/
structure Steady (e e' : Impl) : Prop where
  selection : e'.selection = e.selection
  intents : e'.intents = e.intents
  controller : e'.controller = e.controller
  failures : e'.failures = e.failures
  monitors : e'.backend.monitors = e.backend.monitors
  workers : ∀ worker ∈ e'.workers, worker ∈ e.workers ∨ Worker.Stable worker

theorem Steady.refl (e : Impl) : e.Steady e := ⟨rfl, rfl, rfl, rfl, rfl, fun _ => .inl⟩

theorem Steady.trans (h : e.Steady e') (h' : e'.Steady e'') : e.Steady e'' where
  selection := h'.selection.trans h.selection
  intents := h'.intents.trans h.intents
  controller := h'.controller.trans h.controller
  failures := h'.failures.trans h.failures
  monitors := h'.monitors.trans h.monitors
  workers worker hworker := (h'.workers worker hworker).elim (h.workers worker) .inr

/-- Only other fields differ. -/
theorem Steady.of_eq (hselection : e'.selection = e.selection) (hintents : e'.intents = e.intents)
    (hcontroller : e'.controller = e.controller) (hfailures : e'.failures = e.failures)
    (hmonitors : e'.backend.monitors = e.backend.monitors) (hworkers : e'.workers = e.workers) : e.Steady e' :=
  ⟨hselection, hintents, hcontroller, hfailures, hmonitors, fun _ hworker => .inl (hworkers ▸ hworker)⟩

theorem steady_spawn (e : Impl) {worker : Worker} (hworker : worker.Stable) : e.Steady (e.spawn worker) where
  selection := rfl
  intents := rfl
  controller := rfl
  failures := rfl
  monitors := rfl
  workers other hother := by
    refine (List.mem_append.mp hother).imp_right fun hnew => ?_
    rw [List.mem_singleton.mp hnew]
    exact hworker

theorem Steady.authorised (h : e.Steady e') (hthread : e.Thread e') (hauthorised : e.Authorised) :
    e'.Authorised where
  wellformed := h.selection ▸ hauthorised.wellformed
  saved := by
    rw [h.intents, h.selection]
    exact hauthorised.saved
  distinct := by
    rw [h.intents]
    exact hauthorised.distinct
  follows := by
    rw [h.controller, h.failures]
    exact hauthorised.follows
  workers worker hworker := (h.workers worker hworker).elim (hauthorised.workers worker) id
  monitors := h.monitors ▸ hauthorised.monitors
  jobs job hjob := by
    rw [queue, hthread.batch, hthread.inbox] at hjob
    exact hauthorised.jobs job hjob

theorem Authorised.steady (h : e.Authorised) (hsteady : e.Steady e') (hthread : e.Thread e') : e'.Authorised :=
  hsteady.authorised hthread h

theorem steady_refreshInventory (e : Impl) : e.Steady e.refreshInventory := by
  unfold refreshInventory
  split
  · exact .refl e
  · refine .trans ?_ (steady_spawn _ trivial)
    exact .of_eq rfl rfl rfl rfl rfl rfl

theorem steady_runDisconnect (e : Impl) (device : Identity) (stopFirst : Bool) :
    e.Steady (e.runDisconnect device stopFirst) := by
  unfold runDisconnect
  split
  · exact .refl e
  · refine .trans ?_ (steady_spawn _ trivial)
    cases stopFirst <;> exact .of_eq rfl rfl rfl rfl rfl rfl

theorem steady_resumeDisconnect (e : Impl) (device : Identity) : e.Steady (e.resumeDisconnect device) := by
  unfold resumeDisconnect
  dsimp only
  split
  · exact .refl e
  · refine .trans ?_ (steady_runDisconnect _ _ _)
    exact .of_eq rfl rfl rfl rfl rfl rfl

theorem steady_handleScan (e : Impl) (enabled : Bool) (adapter : Bytes) :
    e.Steady (e.handleScan enabled adapter) := by
  unfold handleScan
  dsimp only
  split
  · exact .refl e
  · split
    · exact .refl e
    · refine .trans ?_ (steady_spawn _ trivial)
      exact .of_eq rfl rfl rfl rfl rfl rfl

theorem steady_handleConnect (e : Impl) (device : Identity) : e.Steady (e.handleConnect device) := by
  unfold handleConnect
  split
  · exact .refl e
  · split
    · exact .refl e
    · split
      · refine .trans ?_ (steady_spawn _ trivial)
        exact .of_eq rfl rfl rfl rfl rfl rfl
      · exact .refl e

theorem steady_handleDirectStop (e : Impl) : e.Steady e.handleDirectStop := by
  unfold handleDirectStop
  split
  · exact .refl e
  · exact .of_eq rfl rfl rfl rfl rfl rfl
  · refine .trans ?_ (steady_spawn _ trivial)
    exact .of_eq rfl rfl rfl rfl rfl rfl
  · exact .refl e

-- ---------------------------------------------------------------------------
-- Intents
-- ---------------------------------------------------------------------------

/-- Only saved devices, and each once. -/
def Restored (saved intents : List Identity) : Prop := (∀ intent ∈ intents, intent ∈ saved) ∧
    (intents.map identityKey).Nodup

theorem restored_append {saved intents : List Identity} {device : Identity} (h : Restored saved intents)
    (hdevice : device ∈ saved) (hnew : contains intents device = false) :
    Restored saved (intents ++ [device]) := by
  refine ⟨fun intent hintent => ?_, ?_⟩
  · obtain hold | hnew := List.mem_append.mp hintent
    · exact h.1 intent hold
    · exact List.mem_singleton.mp hnew ▸ hdevice
  · rw [List.map_append, List.map_singleton]
    refine h.2.append (List.nodup_singleton _) fun key hkey hkey' => ?_
    obtain ⟨intent, hintent, rfl⟩ := List.mem_map.mp hkey
    exact ne_true_of_eq_false hnew (contains_iff.mpr ⟨intent, hintent, List.mem_singleton.mp hkey'⟩)

theorem restored_restoredIntents (saved monitoring : List Identity) : Restored saved
    (restoredIntents saved monitoring) := by
  have hinner (identity : Identity) (devices : List Identity) (hdevices : ∀ device ∈ devices, device ∈ saved) :
      ∀ intents, Restored saved intents → Restored saved (devices.foldl (fun intents device =>
        if sameIdentity device identity && !contains intents device then intents ++
          [device] else intents) intents) := by
    induction devices with
    | nil => exact fun _ => id
    | cons device devices ih =>
      intro intents h
      refine ih (fun other hother => hdevices other (List.mem_cons_of_mem _ hother)) _ ?_
      dsimp only
      split
      · rename_i hadd
        exact restored_append h (hdevices device List.mem_cons_self) (by
          simpa using (Bool.and_eq_true_iff.mp hadd).2)
      · exact h
  have houter (monitoring : List Identity) : ∀ intents, Restored saved intents →
      Restored saved (monitoring.foldl (fun intents identity => saved.foldl (fun intents device =>
        if sameIdentity device identity && !contains intents device then intents ++
          [device] else intents) intents) intents) := by
    induction monitoring with
    | nil => exact fun _ => id
    | cons identity monitoring ih => exact fun intents h => ih _ (hinner identity saved (fun _ => id) intents h)
  exact houter monitoring [] ⟨fun _ hnone => absurd hnone List.not_mem_nil, List.nodup_nil⟩

theorem Restored.filter {saved intents : List Identity} (h : Restored saved intents) (keep : Identity → Bool) :
    Restored saved (intents.filter keep) :=
  ⟨fun intent hintent => h.1 intent (List.mem_filter.mp hintent).1, h.2.sublist (List.filter_sublist.map _)⟩

theorem Authorised.restored (h : e.Authorised) : Restored e.selection.savedSelection e.intents :=
    ⟨h.saved, h.distinct⟩

/-- Intents are written, and the failures of a device forgotten. -/
theorem Authorised.intend (h : e.Authorised) {intents : List Identity}
    (hrestored : Restored e.selection.savedSelection intents)
    {device : Identity} (hnormal : device.Normal) : (Impl.resetRetries { e with intents } device).Authorised :=
  ⟨h.wellformed, hrestored.1, hrestored.2, h.follows.reset hnormal, h.workers, h.monitors, h.jobs⟩

theorem mem_of_findEntry {device : Identity} {entry : DeviceEntry} (h : e.findEntry device = some entry) :
    entry ∈ e.selection.devices := List.mem_of_find?_eq_some h

theorem Authorised.setSession (h : e.Authorised) (device : Identity) (session : Session) :
    (e.setSession device session).Authorised :=
  ⟨h.wellformed, h.saved, h.distinct, h.follows, h.workers, h.monitors, h.jobs⟩

theorem Authorised.setPhase (h : e.Authorised) (device : Identity) (phase : Phase) :
    (e.setPhase device phase).Authorised :=
  h.setSession device _

/-- A device that is contained in the saved selection is one of it. -/
theorem mem_of_contains {saved : List Identity} {device : Identity}
    (hsaved : ∀ identity ∈ saved, identity.Normal)
    (hnormal : device.Normal) (h : contains saved device = true) : device ∈ saved := by
  obtain ⟨identity, hidentity, hkey⟩ := contains_iff.mp h
  rwa [← ((hsaved identity hidentity).eq_iff hnormal).mpr hkey]

-- ---------------------------------------------------------------------------
-- Commands
-- ---------------------------------------------------------------------------

theorem Authorised.handleConfigure (h : e.Authorised) (saved monitoring : List Identity)
    (sort : Option (SortColumn × Bool)) :
    (e.handleConfigure saved monitoring sort).Authorised := by
  have hloaded := h.wellformed.loadSavedSelection saved
  have hrestored := restored_restoredIntents (e.selection.loadSavedSelection saved).savedSelection monitoring
  cases sort with
  | none => exact ⟨hloaded, hrestored.1, hrestored.2, h.follows, h.workers, h.monitors, h.jobs⟩
  | some sort =>
    exact ⟨hloaded.sortDevices sort.1 sort.2, hrestored.1, hrestored.2, h.follows, h.workers,
      h.monitors, h.jobs⟩

theorem Authorised.handleSelect (h : e.Authorised) (device : Identity) (selected : Bool) :
    (e.handleSelect device selected).Authorised := by
  unfold Impl.handleSelect
  split
  · exact h
  · rename_i entry _
    refine ⟨h.wellformed.setDraftSelected _ selected, fun intent hintent => ?_, h.distinct, h.follows,
      h.workers, h.monitors,
      h.jobs⟩
    rw [(SelectionModel.setDraftSelected_same e.selection entry.identity selected).2]
    exact h.saved intent hintent

/-- What is left after some devices have been forgotten. -/
theorem foldl_resetRetries {devices : List Identity} (hdevices : ∀ device ∈ devices, device.Normal) (e : Impl)
    (h : Follows e.controller e.failures) :
    ∃ controller failures, devices.foldl resetRetries e = { e with controller, failures } ∧
      Follows controller failures := by
  induction devices generalizing e with
  | nil => exact ⟨e.controller, e.failures, rfl, h⟩
  | cons device devices ih =>
    have hreset := h.reset (hdevices device List.mem_cons_self)
    obtain ⟨controller, failures, hfold, hfollows⟩ :=
      ih (fun other hother => hdevices other (List.mem_cons_of_mem _ hother)) (e.resetRetries device) hreset
    exact ⟨controller, failures, hfold, hfollows⟩

theorem Authorised.handleSave (h : e.Authorised) : e.handleSave.Authorised := by
  have hnormal (intent : Identity) (hintent : intent ∈ e.intents) : intent.Normal :=
    h.wellformed.saved intent (h.saved intent hintent)
  have hsaved := h.wellformed.saveSelection
  have hforgotten (device : Identity)
      (hdevice : device ∈ e.intents.filter fun identity =>
        !contains e.selection.saveSelection.savedSelection identity) :
      device.Normal := hnormal device (List.mem_filter.mp hdevice).1
  obtain ⟨controller, failures, hfold, hfollows⟩ :=
    foldl_resetRetries hforgotten { e with selection := e.selection.saveSelection } h.follows
  have heq : e.handleSave = { e with
      selection := e.selection.saveSelection
      controller
      failures
      intents := e.intents.filter fun identity => contains e.selection.saveSelection.savedSelection
        identity } := by
    unfold Impl.handleSave
    dsimp only
    rw [hfold]
  rw [heq]
  refine ⟨hsaved, fun intent hintent => ?_, h.distinct.sublist (List.filter_sublist.map _), hfollows,
    h.workers, h.monitors, h.jobs⟩
  obtain ⟨hold, hkeep⟩ := List.mem_filter.mp hintent
  exact mem_of_contains hsaved.saved (hnormal intent hold) hkeep

theorem Authorised.handleMonitor (h : e.Authorised) (device : Identity) (enabled : Bool) :
    (e.handleMonitor device enabled).Authorised := by
  unfold Impl.handleMonitor
  split
  · exact h
  · rename_i entry hentry
    have hnormal := h.wellformed.devices entry (mem_of_findEntry hentry)
    dsimp only
    split
    · split
      · exact h
      · rename_i hnew
        split
        · rename_i hcan
          refine h.intend (restored_append h.restored ?_ (eq_false_of_ne_true hnew)) hnormal
          have hsaved : contains e.selection.savedSelection entry.identity = true := by
            simp only [deviceActionAvailability, actionContext, Bool.and_eq_true] at hcan
            exact hcan.1.1.1.1.1.1
          exact mem_of_contains h.wellformed.saved hnormal hsaved
        · exact h
    · have hreset := h.intend (h.restored.filter fun item => !sameIdentity item entry.identity) hnormal
      split
      · exact hreset.setSession _ _
      · exact hreset

theorem Authorised.acceptDisconnect (h : e.Authorised) {device : Identity} (hnormal : device.Normal) :
    (e.acceptDisconnect device).Authorised := by
  have hreset := h.intend (h.restored.filter fun item => !sameIdentity item device) hnormal
  refine Steady.authorised ?_ ?_ hreset
  · unfold Impl.acceptDisconnect
    dsimp only
    split
    · exact .of_eq rfl rfl rfl rfl rfl rfl
    · exact .of_eq rfl rfl rfl rfl rfl rfl
    · refine .trans ?_ (steady_runDisconnect _ _ _)
      exact .of_eq rfl rfl rfl rfl rfl rfl
    · refine .trans ?_ (steady_runDisconnect _ _ _)
      exact .of_eq rfl rfl rfl rfl rfl rfl
  · have hthread := thread_acceptDisconnect e device
    exact ⟨hthread.pc, hthread.batch, hthread.inbox⟩

theorem Authorised.handleCommand (h : e.Authorised) {command : Command}
    (hcommand : ∀ device, command ≠ .monitorDirect device) :
    (e.handleCommand command).Authorised := by
  have hthread := thread_handleCommand e command
  cases command with
  | hello | unknown => exact h
  | configure saved monitoring sort => exact h.handleConfigure saved monitoring sort
  | refresh => exact (steady_refreshInventory e).authorised hthread h
  | scan enabled adapter => exact (steady_handleScan e enabled adapter).authorised hthread h
  | select device selected => exact h.handleSelect device selected
  | saveSelection => exact h.handleSave
  | discardSelection =>
    exact ⟨h.wellformed.discardChanges, h.saved, h.distinct, h.follows, h.workers, h.monitors, h.jobs⟩
  | sort column ascending =>
    exact ⟨h.wellformed.sortDevices column ascending, h.saved, h.distinct, h.follows, h.workers,
      h.monitors, h.jobs⟩
  | connect device => exact (steady_handleConnect e device).authorised hthread h
  | disconnect device =>
    show (e.handleDisconnect device).Authorised
    unfold handleDisconnect
    split
    · exact h
    · rename_i entry hentry
      split
      · refine Steady.authorised (steady_spawn e ?_) ⟨rfl, rfl, rfl⟩ h
        trivial
      · split
        · exact h
        · split
          · exact h.acceptDisconnect (h.wellformed.devices entry (mem_of_findEntry hentry))
          · exact h
  | monitor device enabled => exact h.handleMonitor device enabled
  | monitorDirect device => exact absurd rfl (hcommand device)
  | stopDirect => exact (steady_handleDirectStop e).authorised hthread h
  | shutdown => exact ⟨h.wellformed, h.saved, h.distinct, h.follows, h.workers, h.monitors, h.jobs⟩

-- ---------------------------------------------------------------------------
-- Steps
-- ---------------------------------------------------------------------------

theorem Authorised.recordFailure (h : e.Authorised) {device : Identity} (hnormal : device.Normal)
    (now : Nat) (jitter : Jitter) :
    (e.recordFailure device now jitter).Authorised := by
  obtain ⟨controller, delay, hrecord, hfollows⟩ := h.follows.fail hnormal now jitter
  unfold Impl.recordFailure
  rw [hrecord]
  exact ⟨h.wellformed, h.saved, h.distinct, hfollows, h.workers, h.monitors, h.jobs⟩

theorem Authorised.finishStart (h : e.Authorised) {device : Identity} (hnormal : device.Normal)
    (result : Result) (now : Nat)
    (jitter : Jitter) : (e.finishStart device result now jitter).Authorised := by
  unfold Impl.finishStart
  refine (steady_resumeDisconnect _ device).authorised (thread_resumeDisconnect _ device) ?_
  cases result with
  | ok => exact ⟨h.wellformed, h.saved, h.distinct, h.follows.reset hnormal, h.workers, h.monitors, h.jobs⟩
  | error cancelled =>
    dsimp only
    split
    · exact (h.setPhase device .idle).recordFailure hnormal now jitter
    · exact h.setPhase device .idle

theorem Authorised.handleMonitorEvent (h : e.Authorised) {device : Identity} (hnormal : device.Normal)
    (terminal : Bool)
    (now : Nat) (jitter : Jitter) : (e.handleMonitorEvent device terminal now jitter).Authorised := by
  unfold Impl.handleMonitorEvent
  split
  · dsimp only
    split
    · exact (h.setPhase device .idle).recordFailure hnormal now jitter
    · exact h.setPhase device .idle
  · exact h

theorem Authorised.runJob (h : e.Authorised) {job : Job} {batch : List Job}
    (hbatch : e.batch = job :: batch) (now : Nat)
    (jitter : Jitter) : (runJob { e with batch } now jitter job).Authorised := by
  have hjob : job.Stable := h.jobs job (by rw [queue, hbatch]; exact List.mem_cons_self)
  have hpop : Authorised { e with batch } := by
    refine ⟨h.wellformed, h.saved, h.distinct, h.follows, h.workers, h.monitors,
      fun other hother => h.jobs other ?_⟩
    rw [queue, hbatch]
    exact List.mem_cons_of_mem _ hother
  have hthread := thread_runJob { e with batch } now jitter job
  cases job with
  | command command =>
    refine hpop.handleCommand fun device heq => ?_
    subst heq
    exact hjob
  | inventoryChanged => exact (steady_refreshInventory _).authorised hthread hpop
  | snapshotDone reply =>
    unfold Impl.runJob
    dsimp only
    split
    · exact ⟨h.wellformed.replaceInventory reply.devices, h.saved, h.distinct, h.follows, h.workers,
        h.monitors, hpop.jobs⟩
    · exact ⟨h.wellformed, h.saved, h.distinct, h.follows, h.workers, h.monitors, hpop.jobs⟩
  | scanDone | connectDone =>
    refine Steady.authorised ?_ hthread hpop
    refine .trans ?_ (steady_refreshInventory _)
    exact .of_eq rfl rfl rfl rfl rfl rfl
  | disconnectDone device stopFirst =>
    refine Steady.authorised ?_ hthread hpop
    refine .trans ?_ (steady_refreshInventory _)
    cases stopFirst <;> exact .of_eq rfl rfl rfl rfl rfl rfl
  | startDone device monitor result => exact hpop.finishStart hjob result now jitter
  | stopDone device =>
    exact (steady_resumeDisconnect _ device).authorised (thread_resumeDisconnect _ device)
      (hpop.setPhase device .idle)
  | monitorEvent device monitor terminal => exact hpop.handleMonitorEvent hjob terminal now jitter
  | directStartDone result =>
    refine Steady.authorised ?_ hthread hpop
    cases result <;> exact .of_eq rfl rfl rfl rfl rfl rfl
  | directStopDone => exact hpop.steady (.of_eq rfl rfl rfl rfl rfl rfl) hthread

theorem normal_deviceStates (h : e.selection.Wellformed) : ∀ device ∈ e.deviceStates,
    device.identity.Normal := by
  intro device hdevice
  obtain ⟨entry, hentry, rfl⟩ := List.mem_map.mp hdevice
  exact h.devices entry hentry

theorem Authorised.execute (h : e.Authorised) {command : MonitorCommand} (hnormal : command.identity.Normal) :
    (e.execute command).Authorised := by
  unfold Impl.execute
  split
  · refine h.steady ?_ ⟨rfl, rfl, rfl⟩
    refine .trans ?_ (steady_spawn _ hnormal)
    exact .of_eq rfl rfl rfl rfl rfl rfl
  · refine h.steady ?_ ⟨rfl, rfl, rfl⟩
    refine .trans ?_ (steady_spawn _ trivial)
    exact .of_eq rfl rfl rfl rfl rfl rfl

theorem Authorised.reconcile (h : e.Authorised) (now : Nat) : (e.reconcile now).Authorised := by
  have hfold (commands : List MonitorCommand) : ∀ {e : Impl}, e.Authorised →
      (∀ command ∈ commands, command.identity.Normal) → (commands.foldl Impl.execute e).Authorised := by
    induction commands with
    | nil => exact fun h _ => h
    | cons command commands ih =>
      exact fun h hnormal => ih (h.execute (hnormal command List.mem_cons_self))
        fun other hother => hnormal other (List.mem_cons_of_mem _ hother)
  show ((e.monitorCommands now).2.foldl Impl.execute _).Authorised
  refine hfold _ ?_ fun command hcommand => ?_
  · have hfollows := h.follows.reconcile (normal_deviceStates h.wellformed) (!e.shuttingDown) now
    exact ⟨h.wellformed, h.saved, h.distinct, hfollows, h.workers, h.monitors, h.jobs⟩
  · obtain ⟨entry, hentry, hidentity, -⟩ := monitorCommands_issued e now hcommand
    exact hidentity ▸ h.wellformed.devices entry hentry

theorem stable_advance {b : Backend} {worker : Worker} (h : worker.Stable)
    (hmonitors : ∀ m ∈ b.monitors, (Monitor.device m).Normal)
    (reply : Reply) :
    (∀ next ∈ (b.advance worker reply).1, Worker.Stable next) ∧ (∀ job ∈ (b.advance worker reply).2.1,
    Job.Stable job) ∧
      ∀ m ∈ (b.advance worker reply).2.2.monitors, (Monitor.device m).Normal := by
  have hnone {α : Type} {p : α → Prop} : ∀ a ∈ ([] : List α), p a := fun _ hmem => absurd hmem List.not_mem_nil
  have hone {α : Type} {p : α → Prop} {a : α} (ha : p a) : ∀ a' ∈ [a], p a' := fun a' hmem =>
    List.mem_singleton.mp hmem ▸ ha
  cases worker with
  | start device direct monitor =>
    cases monitor with
    | none =>
      refine ⟨hone h, hnone, fun m hm => ?_⟩
      obtain hold | hnew := List.mem_append.mp hm
      · exact hmonitors m hold
      · rw [List.mem_singleton.mp hnew]
        exact h
    | some monitor =>
      refine ⟨hnone, hone ?_, ?_⟩
      · cases direct with
        | true => trivial
        | false => exact h
      · show ∀ m ∈ (b.started monitor reply.result).monitors, (Monitor.device m).Normal
        unfold Backend.started
        split <;> exact hmonitors
  | stop device direct calling =>
    cases calling with
    | false => exact ⟨hone trivial, hnone, hmonitors⟩
    | true => exact ⟨hnone, hone (by cases direct <;> trivial), hmonitors⟩
  | disconnect device stopFirst pc =>
    cases pc with
    | stops | stopping | disconnects => exact ⟨hone trivial, hnone, hmonitors⟩
    | disconnecting => exact ⟨hnone, hone trivial, hmonitors⟩
  | snapshot | scan | connect => exact ⟨hnone, hone trivial, hmonitors⟩
  | cancelConnect => exact ⟨hnone, hnone, hmonitors⟩

theorem Authorised.runWorker (h : e.Authorised) {index : Nat} {reply : Reply}
    (hs : e.runWorker index reply = some e') :
    e'.Authorised := by
  obtain ⟨left, worker, right, hworkers, rfl⟩ := runWorker_cases hs
  obtain ⟨hnext, hposted, hmonitors⟩ := stable_advance (h.workers worker (by simp [hworkers])) h.monitors reply
  refine ⟨h.wellformed, h.saved, h.distinct, h.follows, fun other hother => ?_, hmonitors, fun job hjob => ?_⟩
  · have hold := h.workers other
    rw [hworkers] at hold
    rw [List.mem_append, List.mem_append] at hother
    obtain (hleft | hmem) | hright := hother
    · exact hold (List.mem_append_left _ hleft)
    · exact hnext other hmem
    · exact hold (List.mem_append_right _ (List.mem_cons_of_mem _ hright))
  · rw [queue, ← List.append_assoc, List.mem_append] at hjob
    exact hjob.elim (h.jobs job) (hposted job)

theorem Authorised.post (h : e.Authorised) {job : Job} (hjob : job.Stable) : (e.post [job]).Authorised where
  wellformed := h.wellformed
  saved := h.saved
  distinct := h.distinct
  follows := h.follows
  workers := h.workers
  monitors := h.monitors
  jobs other hother := by
    rw [queue, Impl.post, ← List.append_assoc, List.mem_append] at hother
    exact hother.elim (h.jobs other) fun hnew => List.mem_singleton.mp hnew ▸ hjob

/-- Jobs may be dropped. -/
theorem Authorised.drops (h : e.Authorised) (hsteady : e.Steady e')
    (hjobs : ∀ job ∈ e'.queue, job ∈ e.queue) : e'.Authorised where
  wellformed := hsteady.selection ▸ h.wellformed
  saved := by
    rw [hsteady.intents, hsteady.selection]
    exact h.saved
  distinct := by
    rw [hsteady.intents]
    exact h.distinct
  follows := by
    rw [hsteady.controller, hsteady.failures]
    exact h.follows
  workers worker hworker := (hsteady.workers worker hworker).elim (h.workers worker) id
  monitors := hsteady.monitors ▸ h.monitors
  jobs job hjob := h.jobs job (hjobs job hjob)

theorem Authorised.control (h : e.Authorised) {now : Nat} {refresh : Bool} {jitter : Jitter}
    (hs : e.control now refresh jitter = some e') : e'.Authorised := by
  unfold Impl.control at hs
  split at hs
  · obtain rfl := Option.some.inj hs
    refine h.drops (.of_eq rfl rfl rfl rfl rfl rfl) fun job hjob => ?_
    rw [queue, List.append_nil] at hjob
    exact List.mem_append_right _ hjob
  · split at hs
    · obtain rfl := Option.some.inj hs
      exact h.drops (.of_eq rfl rfl rfl rfl rfl rfl) fun job hjob => List.mem_append_right _ hjob
    · split at hs
      · rename_i job batch hbatch
        obtain rfl := Option.some.inj hs
        exact h.runJob hbatch now jitter
      · obtain rfl := Option.some.inj hs
        have hrefreshed : (if refresh then e.refreshInventory else e).Authorised := by
          split
          · exact (steady_refreshInventory e).authorised (calm_refreshInventory e).thread h
          · exact h
        exact (hrefreshed.reconcile now).drops (.of_eq rfl rfl rfl rfl rfl rfl) fun _ => id
  · split at hs
    · obtain rfl := Option.some.inj hs
      exact h.drops (.of_eq rfl rfl rfl rfl rfl rfl) fun _ => id
    · cases hs
  · obtain rfl := Option.some.inj hs
    exact h.drops (.of_eq rfl rfl rfl rfl rfl rfl) fun _ => id
  · obtain rfl := Option.some.inj hs
    exact h.drops (.of_eq rfl rfl rfl rfl rfl rfl) fun _ => id
  · cases hs

theorem Authorised.step {action : Action} (h : e.Authorised) (hok : Indirect action)
    (hs : e.step action = some e') :
    e'.Authorised := by
  cases action with
  | send command =>
    simp only [Impl.step] at hs
    split at hs
    · cases hs
    · obtain rfl := Option.some.inj hs
      refine h.post ?_
      cases command with
      | monitorDirect device => exact hok
      | _ => trivial
  | inventoryChanged =>
    obtain rfl := Option.some.inj hs
    exact h.post trivial
  | event monitor terminal =>
    simp only [Impl.step] at hs
    split at hs
    · cases hs
    · rename_i m hm
      obtain rfl := Option.some.inj hs
      have hended :
        Authorised { e with backend := if terminal then e.backend.terminated monitor else e.backend } := by
        refine h.drops (.of_eq rfl rfl rfl rfl ?_ rfl) fun _ => id
        cases terminal <;> rfl
      exact hended.post (h.monitors m (List.mem_of_getElem? hm))
  | worker index reply => exact h.runWorker hs
  | control now refresh jitter => exact h.control hs

theorem authorised_new (inventoryEnabled : Bool) : (new inventoryEnabled).Authorised := by
  have hempty : Authorised { inventoryEnabled } := by
    refine ⟨⟨fun _ hmem => ?_, fun _ hmem => ?_, fun _ hmem => ?_⟩, fun _ hmem => ?_, List.nodup_nil,
      ⟨fun _ _ => rfl, by rintro _ _ ⟨⟩⟩,
      fun _ hmem => ?_, fun _ hmem => ?_, fun _ hmem => ?_⟩
    all_goals exact absurd hmem List.not_mem_nil
  exact (steady_refreshInventory _).authorised (calm_refreshInventory _).thread hempty

/-- A start is issued for nothing but what is saved, intended, present, paired, connected and idle,
and when it is due. -/
theorem starts_authorised {inventoryEnabled : Bool}
    (h : ReachesBy step (fun _ => Indirect) (new inventoryEnabled) e) :
    (e.intents.map identityKey).Nodup ∧ (∀ intent ∈ e.intents, intent ∈ e.selection.savedSelection) ∧
    ∀ now, ∀ command ∈ (e.monitorCommands now).2, command.action = .start →
      (∃ entry ∈ e.selection.devices, entry.identity = command.identity ∧
        contains e.selection.savedSelection command.identity ∧ contains e.intents command.identity ∧
          entry.present ∧
        entry.paired = some true ∧ entry.connected = some true ∧ (e.sessionFor command.identity).phase =
          .idle) ∧
      ∀ failures, e.failures (identityKey command.identity) = some failures →
        e.lapses (identityKey command.identity) = false →
        failures.time + min (5000 * 2 ^ (failures.count - 1)) 60000 * failures.jitter / 100 ≤ now := by
  have hauthorised : e.Authorised := h.invariant (authorised_new _) Authorised.step
  refine ⟨hauthorised.distinct, hauthorised.saved, fun now command hcommand hstart => ?_⟩
  obtain ⟨entry, hentry, hidentity, hbusy, hissued⟩ := monitorCommands_issued e now hcommand
  rw [hstart] at hissued
  obtain ⟨-, hlapsed, hinactive⟩ := hissued
  have hidentity : command.identity = entry.identity := hidentity
  refine ⟨⟨entry, hentry, hidentity.symm, ?_⟩, fun failures hfailures hlapses => ?_⟩
  · rw [hidentity]
    simp only [MonitorController.lapsed, deviceState, Bool.or_eq_false_iff, Bool.not_eq_false'] at hlapsed
    simp only [deviceState, Bool.or_eq_false_iff, decide_eq_false_iff_not] at hbusy hinactive
    obtain ⟨⟨⟨⟨hsaved, hintended⟩, hpresent⟩, hpaired⟩, hconnected⟩ := hlapsed
    refine ⟨hsaved, hintended, hpresent, ?_, ?_, ?_⟩
    · cases hoption : entry.paired <;> simp_all
    · cases hoption : entry.connected <;> simp_all
    · cases hphase : (e.sessionFor entry.identity).phase <;> simp_all
  · have hnormal : command.identity.Normal := hidentity ▸ hauthorised.wellformed.devices entry hentry
    obtain hany | hdue := MonitorController.due_of_reconcile hcommand hstart
    · refine absurd ?_ (ne_true_of_eq_false hlapses)
      obtain ⟨device, hdevice, hlapse⟩ := List.any_eq_true.mp hany
      obtain ⟨hlapse, hsame⟩ := Bool.and_eq_true_iff.mp hlapse
      refine List.any_eq_true.mpr ⟨device, hdevice, Bool.and_eq_true_iff.mpr ⟨hlapse, ?_⟩⟩
      rw [of_decide_eq_true hsame]
      exact beq_self_eq_true _
    · rw [hauthorised.follows.states _ hnormal, hfailures] at hdue
      exact hdue

/-- The start of the first device has failed twice. -/
def failedTwice : List Action :=
  configured [phone] ++ [.worker 0 {}, .worker 0 { result := .error false }, goesOn, goesOn, goesOn,
    goesOnAt 5000, goesOnAt 5000, .worker 0 {},
    .worker 0 { result := .error false }, .control 6000 false { percent := 80 },
      .control 6000 false { percent := 80 }]

theorem starts_authorised_once : ∃ (e : Impl) (failures : Failures), e.failures (identityKey phone) =
    some failures ∧
    failures.count = 2 ∧ (e.monitorCommands 14000).2 = [⟨phone, .start⟩] ∧
    failures.time + min (5000 * 2 ^ (failures.count - 1)) 60000 * failures.jitter / 100 ≤ 14000 :=
  have h : ReachesBy step (fun _ => Indirect) (new true) _ := ReachesBy.of_isSome_by failedTwice (by
    decide +kernel)
  ⟨(execBy step (fun _ => Indirect) (new true) failedTwice).getD (new true), ⟨2, 6000, 80⟩, by
    decide +kernel, rfl, by decide +kernel,
    ((starts_authorised h).2.2 14000 ⟨phone, .start⟩ (by decide +kernel) rfl).2 ⟨2, 6000, 80⟩
    (by decide +kernel) (by decide +kernel)⟩

end Impl
end Dmn.Engine
