import Dmn.Engine.Machine

/-!
# What is pending

An operation is pending from the spawn of its worker to the job that its worker
posts. Most handlers start none, and leave the phases of the sessions alone.
-/

namespace Dmn.Engine

open Dmn.Lib

/-- A pending operation. -/
inductive Op
  | start (key : Key)
  | stop (key : Key)
  | connect
  | disconnect (key : Key) (stopFirst : Bool)
  | other
  deriving DecidableEq

def Worker.op : Worker → Op
  | .start device false _ => .start (identityKey device)
  | .stop device false _ => .stop (identityKey device)
  | .connect _ => .connect
  | .disconnect device stopFirst _ => .disconnect (identityKey device) stopFirst
  | _ => .other

/-- Its call of `startMonitor` has been made. -/
def Worker.numbered : Worker → Bool
  | .start _ _ (some _) => true
  | _ => false

def Job.op : Job → Op
  | .startDone device _ _ => .start (identityKey device)
  | .stopDone device => .stop (identityKey device)
  | .connectDone => .connect
  | .disconnectDone device stopFirst => .disconnect (identityKey device) stopFirst
  | _ => .other

namespace Impl

variable {e e' e'' : Impl} {p : Op → Bool}

/-- How many operations of a kind are pending. -/
def pending (e : Impl) (p : Op → Bool) : Nat := (e.workers.map Worker.op).countP p +
    (e.queue.map Job.op).countP p

/-- What a worker does next keeps its operation pending. -/
theorem advance_op (b : Backend) (worker : Worker) (reply : Reply) (hother : p .other = false) :
    ((b.advance worker reply).1.map Worker.op).countP p + ((b.advance worker reply).2.1.map Job.op).countP p =
      [worker.op].countP p := by
  cases worker with
  | start device direct monitor =>
    cases direct <;> cases monitor <;> simp [Backend.advance, Worker.op, Job.op, hother]
  | stop device direct calling =>
    cases direct <;> cases calling <;> simp [Backend.advance, Worker.op, Job.op, hother]
  | disconnect device stopFirst pc => cases pc <;> simp [Backend.advance, Worker.op, Job.op]
  | snapshot | scan | connect | cancelConnect => simp [Backend.advance, Worker.op, Job.op, hother]

theorem runWorker_cases {index : Nat} {reply : Reply} (h : e.runWorker index reply = some e') :
    ∃ left worker right, e.workers = left ++ worker :: right ∧
      e' = { e with
        workers := left ++ (e.backend.advance worker reply).1 ++ right
        inbox := e.inbox ++ (e.backend.advance worker reply).2.1
        backend := (e.backend.advance worker reply).2.2 } := by
  unfold runWorker at h
  split at h
  · cases h
  · rename_i worker hworker
    obtain ⟨hlt, hget⟩ := List.getElem?_eq_some_iff.mp hworker
    refine ⟨e.workers.take index, worker, e.workers.drop (index + 1), ?_, (Option.some.inj h).symm⟩
    rw [← hget, ← List.drop_eq_getElem_cons hlt, List.take_append_drop]

theorem pending_runWorker {index : Nat} {reply : Reply} (h : e.runWorker index reply = some e')
    (hother : p .other = false) : e'.pending p = e.pending p := by
  obtain ⟨left, worker, right, hworkers, rfl⟩ := runWorker_cases h
  have hop := advance_op e.backend worker reply hother
  rw [pending, pending, hworkers]
  simp only [queue, List.map_append, List.countP_append, List.map_cons, List.countP_cons,
    List.countP_nil] at hop ⊢
  omega

theorem pending_post (e : Impl) (job : Job) (hop : p job.op = false) : (e.post [job]).pending p =
    e.pending p := by
  simp [pending, queue, post, hop]

theorem pending_spawn (e : Impl) (worker : Worker) :
    (e.spawn worker).pending p = e.pending p + if p worker.op then 1 else 0 := by
  simp [pending, queue, spawn, List.countP_singleton]
  omega

theorem pending_pop {job : Job} {batch : List Job} (h : e.batch = job :: batch) :
    e.pending p = pending { e with batch } p + if p job.op then 1 else 0 := by
  simp [pending, queue, h, List.countP_cons]
  omega

-- ---------------------------------------------------------------------------
-- Handlers that start no operation
-- ---------------------------------------------------------------------------

/-- The phases, the backend and the pending operations stay. -/
structure Calm (e e' : Impl) : Prop where
  phase : ∀ key, (e'.sessions key).phase = (e.sessions key).phase
  deferred : ∀ key, (e'.sessions key).disconnectAfterStop = (e.sessions key).disconnectAfterStop
  inbox : e'.inbox = e.inbox
  batch : e'.batch = e.batch
  backend : e'.backend = e.backend
  busy : e'.connectionBusy = e.connectionBusy
  pc : e'.pc = e.pc
  connecting : e'.pendingConnect = e.pendingConnect
  disconnecting : e'.pendingDisconnect = e.pendingDisconnect
  workers : ∃ new, e'.workers = e.workers ++ new ∧ ∀ worker ∈ new, worker.op = .other ∧ worker.numbered = false

theorem Calm.refl (e : Impl) : e.Calm e where
  phase _ := rfl
  deferred _ := rfl
  inbox := rfl
  batch := rfl
  backend := rfl
  busy := rfl
  pc := rfl
  connecting := rfl
  disconnecting := rfl
  workers := ⟨[], (List.append_nil _).symm, fun _ hnone => absurd hnone List.not_mem_nil⟩

theorem Calm.trans (h : e.Calm e') (h' : e'.Calm e'') : e.Calm e'' where
  phase key := (h'.phase key).trans (h.phase key)
  deferred key := (h'.deferred key).trans (h.deferred key)
  inbox := h'.inbox.trans h.inbox
  batch := h'.batch.trans h.batch
  backend := h'.backend.trans h.backend
  busy := h'.busy.trans h.busy
  pc := h'.pc.trans h.pc
  connecting := h'.connecting.trans h.connecting
  disconnecting := h'.disconnecting.trans h.disconnecting
  workers := by
    obtain ⟨new, hworkers, hnew⟩ := h.workers
    obtain ⟨new', hworkers', hnew'⟩ := h'.workers
    refine ⟨new ++ new', by rw [hworkers', hworkers, List.append_assoc], fun worker hworker => ?_⟩
    exact (List.mem_append.mp hworker).elim (hnew worker) (hnew' worker)

/-- Only other fields differ. -/
theorem Calm.of_eq (hsessions : e'.sessions = e.sessions) (hinbox : e'.inbox = e.inbox)
    (hbatch : e'.batch = e.batch)
    (hbackend : e'.backend = e.backend) (hbusy : e'.connectionBusy = e.connectionBusy) (hpc : e'.pc = e.pc)
    (hconnecting : e'.pendingConnect = e.pendingConnect) (hdisconnecting : e'.pendingDisconnect =
    e.pendingDisconnect)
    (hworkers : e'.workers = e.workers) : e.Calm e' where
  phase key := by rw [hsessions]
  deferred key := by rw [hsessions]
  inbox := hinbox
  batch := hbatch
  backend := hbackend
  busy := hbusy
  pc := hpc
  connecting := hconnecting
  disconnecting := hdisconnecting
  workers := ⟨[], hworkers.trans (List.append_nil _).symm, fun _ hnone => absurd hnone List.not_mem_nil⟩

theorem Calm.pending (h : e.Calm e') (hother : p .other = false) : e'.pending p = e.pending p := by
  obtain ⟨new, hworkers, hnew⟩ := h.workers
  have hnone : (new.map Worker.op).countP p = 0 := by
    rw [List.countP_eq_zero]
    intro op hop
    obtain ⟨worker, hworker, rfl⟩ := List.mem_map.mp hop
    rw [(hnew worker hworker).1, hother]
    exact Bool.false_ne_true
  rw [Impl.pending, Impl.pending, queue, queue, h.batch, h.inbox, hworkers, List.map_append,
    List.countP_append, hnone]
  rfl

theorem calm_spawn (e : Impl) {worker : Worker} (hop : worker.op = .other ∧ worker.numbered = false) :
    e.Calm (e.spawn worker) where
  phase _ := rfl
  deferred _ := rfl
  inbox := rfl
  batch := rfl
  backend := rfl
  busy := rfl
  pc := rfl
  connecting := rfl
  disconnecting := rfl
  workers := ⟨[worker], rfl, fun _ hmem => List.mem_singleton.mp hmem ▸ hop⟩

theorem calm_refreshInventory (e : Impl) : e.Calm e.refreshInventory := by
  unfold refreshInventory
  split
  · exact .refl e
  · refine .trans ?_ (calm_spawn _ ⟨rfl, rfl⟩)
    exact .of_eq rfl rfl rfl rfl rfl rfl rfl rfl rfl

theorem calm_resetRetries (e : Impl) (device : Identity) : e.Calm (e.resetRetries device) :=
  .of_eq rfl rfl rfl rfl rfl rfl rfl rfl rfl

theorem calm_recordFailure (e : Impl) (device : Identity) (now : Nat) (jitter : Jitter) :
    e.Calm (e.recordFailure device now jitter) := .of_eq rfl rfl rfl rfl rfl rfl rfl rfl rfl

/-- A session is written, but for its phase. -/
theorem calm_setSession (e : Impl) (device : Identity) {session : Session}
    (hphase : session.phase = (e.sessionFor device).phase)
    (hdeferred : session.disconnectAfterStop = (e.sessionFor device).disconnectAfterStop) :
    e.Calm (e.setSession device session) where
  phase key := by
    by_cases hkey : key = identityKey device
    · subst hkey
      exact (congrArg Session.phase (Function.update_self ..)).trans hphase
    · exact congrArg Session.phase (Function.update_of_ne hkey ..)
  deferred key := by
    by_cases hkey : key = identityKey device
    · subst hkey
      exact (congrArg Session.disconnectAfterStop (Function.update_self ..)).trans hdeferred
    · exact congrArg Session.disconnectAfterStop (Function.update_of_ne hkey ..)
  inbox := rfl
  batch := rfl
  backend := rfl
  busy := rfl
  pc := rfl
  connecting := rfl
  disconnecting := rfl
  workers := ⟨[], (List.append_nil _).symm, fun _ hnone => absurd hnone List.not_mem_nil⟩

theorem calm_handleConfigure (e : Impl) (saved monitoring : List Identity) (sort : Option (SortColumn × Bool)) :
    e.Calm (e.handleConfigure saved monitoring sort) := .of_eq rfl rfl rfl rfl rfl rfl rfl rfl rfl

theorem calm_handleScan (e : Impl) (enabled : Bool) (adapter : Bytes) :
    e.Calm (e.handleScan enabled adapter) := by
  unfold handleScan
  dsimp only
  split
  · exact .refl e
  · split
    · exact .refl e
    · refine .trans ?_ (calm_spawn _ ⟨rfl, rfl⟩)
      exact .of_eq rfl rfl rfl rfl rfl rfl rfl rfl rfl

theorem calm_handleSelect (e : Impl) (device : Identity) (selected : Bool) :
    e.Calm (e.handleSelect device selected) := by
  unfold handleSelect
  split
  · exact .refl e
  · exact .of_eq rfl rfl rfl rfl rfl rfl rfl rfl rfl

theorem calm_foldl_resetRetries (devices : List Identity) (e : Impl) :
    e.Calm (devices.foldl resetRetries e) := by
  induction devices generalizing e with
  | nil => exact .refl e
  | cons device devices ih => exact (calm_resetRetries e device).trans (ih _)

theorem calm_handleSave (e : Impl) : e.Calm e.handleSave := by
  have hfold : e.Calm ((e.intents.filter fun identity => !contains e.selection.saveSelection.savedSelection
    identity).foldl
      resetRetries { e with selection := e.selection.saveSelection }) := by
    refine .trans ?_ (calm_foldl_resetRetries _ _)
    exact .of_eq rfl rfl rfl rfl rfl rfl rfl rfl rfl
  exact hfold.trans (.of_eq rfl rfl rfl rfl rfl rfl rfl rfl rfl)

theorem calm_handleMonitor (e : Impl) (device : Identity) (enabled : Bool) :
    e.Calm (e.handleMonitor device enabled) := by
  unfold handleMonitor
  split
  · exact .refl e
  · dsimp only
    split
    · split
      · exact .refl e
      · split
        · exact .of_eq rfl rfl rfl rfl rfl rfl rfl rfl rfl
        · exact .refl e
    · split
      · refine .trans ?_ (calm_setSession _ _ rfl rfl)
        exact .of_eq rfl rfl rfl rfl rfl rfl rfl rfl rfl
      · exact .of_eq rfl rfl rfl rfl rfl rfl rfl rfl rfl

theorem calm_handleDirectStart (e : Impl) (device : Identity) : e.Calm (e.handleDirectStart device) := by
  unfold handleDirectStart
  split
  · exact .refl e
  · refine .trans ?_ (calm_spawn _ ⟨rfl, rfl⟩)
    exact .of_eq rfl rfl rfl rfl rfl rfl rfl rfl rfl

theorem calm_handleDirectStop (e : Impl) : e.Calm e.handleDirectStop := by
  unfold handleDirectStop
  split
  · exact .refl e
  · exact .of_eq rfl rfl rfl rfl rfl rfl rfl rfl rfl
  · refine .trans ?_ (calm_spawn _ ⟨rfl, rfl⟩)
    exact .of_eq rfl rfl rfl rfl rfl rfl rfl rfl rfl
  · exact .refl e

theorem calm_finishDirectStart (e : Impl) (result : Result) : e.Calm (e.finishDirectStart result) := by
  cases result <;> exact .of_eq rfl rfl rfl rfl rfl rfl rfl rfl rfl

theorem calm_handleCommand (e : Impl) {command : Command} (hconnect : ∀ device, command ≠ .connect device)
    (hdisconnect : ∀ device, command ≠ .disconnect device) : e.Calm (e.handleCommand command) := by
  cases command with
  | hello | unknown => exact .refl e
  | configure saved monitoring sort => exact calm_handleConfigure e saved monitoring sort
  | refresh => exact calm_refreshInventory e
  | scan enabled adapter => exact calm_handleScan e enabled adapter
  | select device selected => exact calm_handleSelect e device selected
  | saveSelection => exact calm_handleSave e
  | discardSelection | sort | shutdown => exact .of_eq rfl rfl rfl rfl rfl rfl rfl rfl rfl
  | connect device => exact absurd rfl (hconnect device)
  | disconnect device => exact absurd rfl (hdisconnect device)
  | monitor device enabled => exact calm_handleMonitor e device enabled
  | monitorDirect device => exact calm_handleDirectStart e device
  | stopDirect => exact calm_handleDirectStop e

-- ---------------------------------------------------------------------------
-- The control thread
-- ---------------------------------------------------------------------------

/-- The control thread is where it was, and nothing has been posted. -/
structure Thread (e e' : Impl) : Prop where
  pc : e'.pc = e.pc
  batch : e'.batch = e.batch
  inbox : e'.inbox = e.inbox

theorem Thread.trans (h : e.Thread e') (h' : e'.Thread e'') : e.Thread e'' :=
  ⟨h'.pc.trans h.pc, h'.batch.trans h.batch, h'.inbox.trans h.inbox⟩

theorem Calm.thread (h : e.Calm e') : e.Thread e' := ⟨h.pc, h.batch, h.inbox⟩

theorem thread_runDisconnect (e : Impl) (device : Identity) (stopFirst : Bool) :
    e.Thread (e.runDisconnect device stopFirst) := by
  unfold runDisconnect
  split
  · exact ⟨rfl, rfl, rfl⟩
  · cases stopFirst <;> exact ⟨rfl, rfl, rfl⟩

theorem thread_resumeDisconnect (e : Impl) (device : Identity) : e.Thread (e.resumeDisconnect device) := by
  unfold resumeDisconnect
  dsimp only
  split
  · exact ⟨rfl, rfl, rfl⟩
  · refine .trans ?_ (thread_runDisconnect _ _ _)
    exact ⟨rfl, rfl, rfl⟩

theorem thread_finishStart (e : Impl) (device : Identity) (result : Result) (now : Nat) (jitter : Jitter) :
    e.Thread (e.finishStart device result now jitter) := by
  unfold finishStart
  refine .trans ?_ (thread_resumeDisconnect _ _)
  cases result with
  | ok => exact ⟨rfl, rfl, rfl⟩
  | error cancelled =>
    dsimp only
    split <;> exact ⟨rfl, rfl, rfl⟩

theorem thread_handleMonitorEvent (e : Impl) (device : Identity) (terminal : Bool) (now : Nat)
    (jitter : Jitter) :
    e.Thread (e.handleMonitorEvent device terminal now jitter) := by
  unfold handleMonitorEvent
  split
  · dsimp only
    split <;> exact ⟨rfl, rfl, rfl⟩
  · exact ⟨rfl, rfl, rfl⟩

theorem thread_acceptDisconnect (e : Impl) (device : Identity) : e.Thread (e.acceptDisconnect device) := by
  unfold acceptDisconnect
  dsimp only
  split
  · exact ⟨rfl, rfl, rfl⟩
  · exact ⟨rfl, rfl, rfl⟩
  · refine .trans ?_ (thread_runDisconnect _ _ _)
    exact ⟨rfl, rfl, rfl⟩
  · refine .trans ?_ (thread_runDisconnect _ _ _)
    exact ⟨rfl, rfl, rfl⟩

theorem thread_handleCommand (e : Impl) (command : Command) : e.Thread (e.handleCommand command) := by
  cases command with
  | connect device =>
    show e.Thread (e.handleConnect device)
    unfold handleConnect
    split
    · exact ⟨rfl, rfl, rfl⟩
    · split
      · exact ⟨rfl, rfl, rfl⟩
      · split <;> exact ⟨rfl, rfl, rfl⟩
  | disconnect device =>
    show e.Thread (e.handleDisconnect device)
    unfold handleDisconnect
    split
    · exact ⟨rfl, rfl, rfl⟩
    · split
      · exact ⟨rfl, rfl, rfl⟩
      · split
        · exact ⟨rfl, rfl, rfl⟩
        · split
          · exact thread_acceptDisconnect e _
          · exact ⟨rfl, rfl, rfl⟩
  | _ => exact (calm_handleCommand e (fun _ heq => by cases heq) fun _ heq => by cases heq).thread

theorem thread_runJob (e : Impl) (now : Nat) (jitter : Jitter) (job : Job) :
    e.Thread (e.runJob now jitter job) := by
  cases job with
  | command command => exact thread_handleCommand e command
  | inventoryChanged => exact (calm_refreshInventory e).thread
  | snapshotDone reply =>
    unfold runJob
    dsimp only
    split <;> exact ⟨rfl, rfl, rfl⟩
  | scanDone | connectDone =>
    refine .trans ?_ (calm_refreshInventory _).thread
    exact ⟨rfl, rfl, rfl⟩
  | disconnectDone device stopFirst =>
    refine .trans ?_ (calm_refreshInventory _).thread
    cases stopFirst <;> exact ⟨rfl, rfl, rfl⟩
  | startDone device monitor result => exact thread_finishStart e device result now jitter
  | stopDone device =>
    refine .trans ?_ (thread_resumeDisconnect _ _)
    exact ⟨rfl, rfl, rfl⟩
  | monitorEvent device monitor terminal => exact thread_handleMonitorEvent e device terminal now jitter
  | directStartDone result => exact (calm_finishDirectStart e result).thread
  | directStopDone => exact ⟨rfl, rfl, rfl⟩

theorem thread_reconcile (e : Impl) (now : Nat) : e.Thread (e.reconcile now) := by
  have hfold (commands : List MonitorCommand) : ∀ e : Impl, e.Thread (commands.foldl execute e) := by
    induction commands with
    | nil => exact fun e => ⟨rfl, rfl, rfl⟩
    | cons command commands ih =>
      refine fun e => .trans ?_ (ih _)
      unfold execute
      split <;> exact ⟨rfl, rfl, rfl⟩
  refine .trans ?_ (hfold _ _)
  exact ⟨rfl, rfl, rfl⟩

/-- While the engine runs, the batch is empty where it waits. -/
structure Running (e : Impl) : Prop where
  pc : e.pc = .waits ∨ e.pc = .runs
  batch : e.pc = .waits → e.batch = []

/-- What the control thread does while the engine runs. -/
theorem control_cases {now : Nat} {refresh : Bool} {jitter : Jitter} (hrunning : e.Running)
    (hrequested : e.shutdownRequested = false) (hs : e.control now refresh jitter = some e') :
    (e.pc = .waits ∧ e.batch = [] ∧ e' = { e with batch := e.inbox, inbox := [], pc := .runs }) ∨
      (∃ job batch, e.pc = .runs ∧ e.batch = job :: batch ∧ e' = runJob { e with batch } now jitter job) ∨
      (e.pc = .runs ∧ e.batch = [] ∧
        e' = { (if refresh then e.refreshInventory else e).reconcile now with pc := .waits }) := by
  unfold control at hs
  split at hs
  · rename_i hwaits
    exact .inl ⟨hwaits, hrunning.batch hwaits, (Option.some.inj hs).symm⟩
  · rename_i hruns
    rw [if_neg (ne_true_of_eq_false hrequested)] at hs
    split at hs
    · rename_i job batch hbatch
      exact .inr (.inl ⟨job, batch, hruns, hbatch, (Option.some.inj hs).symm⟩)
    · rename_i hbatch
      exact .inr (.inr ⟨hruns, hbatch, (Option.some.inj hs).symm⟩)
  all_goals
    rename_i hpc
    obtain hwaits | hruns := hrunning.pc
    · cases hpc.symm.trans hwaits
    · cases hpc.symm.trans hruns

theorem Running.control {now : Nat} {refresh : Bool} {jitter : Jitter} (h : e.Running)
    (hrequested : e.shutdownRequested = false) (hs : e.control now refresh jitter = some e') : e'.Running := by
  obtain ⟨-, -, rfl⟩ | ⟨job, batch, hruns, -, rfl⟩ | ⟨hruns, hbatch, rfl⟩ := control_cases h hrequested hs
  · exact ⟨.inr rfl, nofun⟩
  · have hthread := thread_runJob { e with batch } now jitter job
    have hpc : (runJob { e with batch } now jitter job).pc = .runs := hthread.pc.trans hruns
    exact ⟨.inr hpc, fun hwaits => by cases hpc.symm.trans hwaits⟩
  · refine ⟨.inl rfl, fun _ => ?_⟩
    refine (thread_reconcile _ now).batch.trans ?_
    split
    · exact (calm_refreshInventory e).batch.trans hbatch
    · exact hbatch

/-- A step that is not the control thread's leaves it where it is. -/
theorem Running.step {action : Action} (h : e.Running)
    (hrequested : ∀ now refresh jitter, action = .control now refresh jitter → e.shutdownRequested = false)
    (hs : e.step action = some e') : e'.Running := by
  cases action with
  | send command =>
    simp only [Impl.step] at hs
    split at hs
    · cases hs
    · obtain rfl := Option.some.inj hs
      exact ⟨h.pc, h.batch⟩
  | inventoryChanged =>
    obtain rfl := Option.some.inj hs
    exact ⟨h.pc, h.batch⟩
  | event monitor terminal =>
    simp only [Impl.step] at hs
    split at hs
    · cases hs
    · obtain rfl := Option.some.inj hs
      exact ⟨h.pc, h.batch⟩
  | worker index reply =>
    obtain ⟨left, worker, right, -, rfl⟩ := runWorker_cases hs
    exact ⟨h.pc, h.batch⟩
  | control now refresh jitter => exact h.control (hrequested now refresh jitter rfl) hs

theorem running_new (inventoryEnabled : Bool) : (new inventoryEnabled).Running := by
  have hthread := (calm_refreshInventory { inventoryEnabled }).thread
  exact ⟨.inl hthread.pc, fun _ => hthread.batch⟩

end Impl
end Dmn.Engine
