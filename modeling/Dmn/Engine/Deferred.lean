import Dmn.Engine.Pending

/-!
# Deferred disconnects

A disconnect that is accepted while the monitor starts or stops waits for it.
It is lost only where the connection slot is taken when it is to go on.
-/

namespace Dmn.Engine

open Dmn.Lib

namespace Impl

variable {e e' : Impl} {debt : Op}

/-- A connect or a disconnect. -/
def Op.isConnection : Op → Bool
  | .connect | .disconnect _ _ => true
  | _ => false

/-- The worker has not called `disconnect` yet. -/
def Worker.disconnects (key : Key) : Worker → Prop
  | .disconnect device _ pc => identityKey device = key ∧ pc ≠ .disconnecting
  | _ => False

/-- How many are pending, with the operation whose job runs at the moment. -/
def total (e : Impl) (debt : Op) (p : Op → Bool) : Nat := e.pending p + [debt].countP p

/-- A deferred disconnect of a device waits for something. -/
def Waits (debt : Op) (e : Impl) (key : Key) : Prop :=
  (e.sessions key).disconnectAfterStop → 0 < e.total debt fun op => op = .start key ∨ op = .stop key

structure Kept (debt : Op) (e : Impl) : Prop where
  starting : ∀ key, (e.sessions key).phase = .starting → 0 < e.total debt (· = .start key)
  stopping : ∀ key, (e.sessions key).phase = .stopping →
    0 < e.total debt fun op => op = .stop key ∨ op = .disconnect key true
  connection : e.total debt Op.isConnection = e.connectionBusy.toNat
  owed : ∀ key ∈ e.backend.owed,
    (e.sessions key).disconnectAfterStop ∨ ∃ worker ∈ e.workers, Worker.disconnects key worker

/-- The next job lets a deferred disconnect go on while the connection slot is taken. -/
def hindered (e : Impl) : Bool :=
  match e.batch with
  | .startDone device _ _ :: _ | .stopDone device :: _ =>
    (e.sessionFor device).disconnectAfterStop && e.connectionBusy
  | _ => false

/-- No deferred disconnect goes on while the slot is taken, and the engine is not shut down. -/
def Unhindered (e : Impl) : Action → Prop
  | .control _ _ _ => e.shutdownRequested = false ∧ (e.pc = .runs → e.hindered = false)
  | _ => True

instance (e : Impl) (action : Action) : Decidable (e.Unhindered action) :=
  match action with
  | .control _ _ _ => inferInstanceAs (Decidable (_ ∧ (_ → _)))
  | .send _ | .inventoryChanged | .event _ _ | .worker _ _ => isTrue trivial

theorem total_other {p : Op → Bool} (hother : p .other = false) : e.total .other p = e.pending p := by
  rw [total, List.countP_singleton, hother]
  rfl

/-- The operation of a job stays pending while the job runs. -/
theorem total_pop {job : Job} {batch : List Job} (h : e.batch = job :: batch) (p : Op → Bool) :
    total { e with batch } job.op p = e.pending p := by
  rw [total, pending_pop h, List.countP_singleton]

theorem Kept.pop (h : Kept .other e) {job : Job} {batch : List Job} (hbatch : e.batch = job :: batch) :
    Kept job.op { e with batch } where
  starting key hphase := by
    have hold := h.starting key hphase
    rw [total_other rfl] at hold
    rw [total_pop hbatch]
    exact hold
  stopping key hphase := by
    have hold := h.stopping key hphase
    rw [total_other rfl] at hold
    rw [total_pop hbatch]
    exact hold
  connection := by
    have hold := h.connection
    rw [total_other rfl] at hold
    rw [total_pop hbatch]
    exact hold
  owed := h.owed

theorem Waits.pop {key : Key} (h : Waits .other e key) {job : Job} {batch : List Job}
    (hbatch : e.batch = job :: batch) :
    Waits job.op { e with batch } key := fun hflag => by
  have hold := h hflag
  rw [total_other rfl] at hold
  rw [total_pop hbatch]
  exact hold

theorem Calm.kept (h : e.Calm e') (hkept : Kept .other e) : Kept .other e' where
  starting key hphase := by
    rw [total_other rfl, h.pending rfl, ← total_other rfl]
    exact hkept.starting key ((h.phase key).symm.trans hphase)
  stopping key hphase := by
    rw [total_other rfl, h.pending rfl, ← total_other rfl]
    exact hkept.stopping key ((h.phase key).symm.trans hphase)
  connection := by
    rw [total_other rfl, h.pending rfl, ← total_other rfl, h.busy]
    exact hkept.connection
  owed key hkey := by
    rw [h.backend] at hkey
    obtain hflag | ⟨worker, hworker, hdisconnects⟩ := hkept.owed key hkey
    · exact .inl ((h.deferred key).trans hflag)
    · obtain ⟨new, hworkers, -⟩ := h.workers
      exact .inr ⟨worker, hworkers ▸ List.mem_append_left _ hworker, hdisconnects⟩

theorem Calm.waits (h : e.Calm e') {key : Key} (hwaits : Waits .other e key) : Waits .other e' key :=
    fun hflag => by
  rw [total_other rfl, h.pending rfl, ← total_other rfl]
  exact hwaits ((h.deferred key).symm.trans hflag)

-- ---------------------------------------------------------------------------
-- What starts and ends an operation
-- ---------------------------------------------------------------------------

theorem sessions_setSession (e : Impl) (device : Identity) (session : Session) (key : Key) :
    (e.setSession device session).sessions key = if key = identityKey device then session else
    e.sessions key := by
  unfold setSession
  split
  · rename_i hkey
    rw [hkey]
    exact Function.update_self ..
  · rename_i hkey
    exact Function.update_of_ne hkey ..

theorem phase_setPhase (e : Impl) (device : Identity) (phase : Phase) (key : Key) :
    ((e.setPhase device phase).sessions key).phase = if key = identityKey device then phase else
    (e.sessions key).phase := by
  rw [setPhase, sessions_setSession]
  split <;> rfl

theorem deferred_setPhase (e : Impl) (device : Identity) (phase : Phase) (key : Key) :
    ((e.setPhase device phase).sessions key).disconnectAfterStop = (e.sessions key).disconnectAfterStop := by
  rw [setPhase, sessions_setSession]
  split
  · rename_i hkey
    rw [hkey]
    rfl
  · rfl

/-- What a handler of the monitors spawns: the phases it sets are those of what is pending then. -/
theorem Kept.spawns (h : Kept .other e) {worker : Worker} {e' : Impl}
    (hpending : ∀ p, e'.pending p = e.pending p)
    (hphase : ∀ key, (e'.sessions key).phase = (e.sessions key).phase ∨
      (e'.sessions key).phase = .starting ∧ worker.op = .start key ∨
      (e'.sessions key).phase = .stopping ∧ (worker.op = .stop key ∨ worker.op = .disconnect key true))
    (hbusy : e'.connectionBusy.toNat = e.connectionBusy.toNat + [worker.op].countP Op.isConnection)
    (howed : ∀ key ∈ e'.backend.owed, (e'.sessions key).disconnectAfterStop ∨
      ∃ other ∈ e'.workers ++ [worker], Worker.disconnects key other) : Kept .other (e'.spawn worker) where
  starting key hstarting := by
    rw [total_other rfl, pending_spawn, hpending]
    obtain hsame | ⟨-, hop⟩ | ⟨hstopping, -⟩ := hphase key
    · have hold := h.starting key (hsame.symm.trans hstarting)
      rw [total_other rfl] at hold
      omega
    · rw [if_pos (by simp [hop])]
      omega
    · cases hstopping.symm.trans hstarting
  stopping key hstopping := by
    rw [total_other rfl, pending_spawn, hpending]
    obtain hsame | ⟨hstarting, -⟩ | ⟨-, hop⟩ := hphase key
    · have hold := h.stopping key (hsame.symm.trans hstopping)
      rw [total_other rfl] at hold
      omega
    · cases hstarting.symm.trans hstopping
    · rw [if_pos (by simpa using hop)]
      omega
  connection := by
    have hold := h.connection
    rw [total_other rfl] at hold ⊢
    rw [pending_spawn, hpending, hold]
    show _ = e'.connectionBusy.toNat
    rw [hbusy, List.countP_singleton]
  owed := howed

theorem Waits.spawns {key : Key} (h : Waits .other e key) (e' : Impl) (worker : Worker)
    (hpending : ∀ p, e'.pending p = e.pending p)
    (hflag : (e'.sessions key).disconnectAfterStop → (e.sessions key).disconnectAfterStop) :
    Waits .other (e'.spawn worker) key := fun hdeferred => by
  have hold := h (hflag hdeferred)
  rw [total_other rfl] at hold ⊢
  rw [pending_spawn, hpending]
  omega

theorem Kept.runDisconnect (h : Kept .other e) (device : Identity) (stopFirst : Bool)
    (hfree : e.connectionBusy = false)
    {owed : List Key} (howed : ∀ key ∈ owed, (e.sessions key).disconnectAfterStop ∨
      (∃ worker ∈ e.workers, Worker.disconnects key worker) ∨ key = identityKey device) :
    Kept .other (Impl.runDisconnect { e with backend := { e.backend with owed } } device stopFirst) := by
  have hnew : Worker.disconnects (identityKey device)
      (.disconnect device stopFirst (if stopFirst then .stops else .disconnects)) := by
    cases stopFirst <;> exact ⟨rfl, by decide⟩
  unfold Impl.runDisconnect
  dsimp only
  rw [hfree, if_neg Bool.false_ne_true]
  refine h.spawns (fun p => ?_) (fun key => ?_) ?_ fun key hkey => ?_
  · cases stopFirst <;> rfl
  · cases stopFirst with
    | false => exact .inl rfl
    | true =>
      by_cases hkey : key = identityKey device
      · refine .inr (.inr ⟨?_, .inr (by rw [hkey]; rfl)⟩)
        rw [if_pos rfl, phase_setPhase, if_pos hkey]
      · refine .inl ?_
        rw [if_pos rfl, phase_setPhase, if_neg hkey]
  · rw [hfree]
    cases stopFirst <;> rfl
  · have hkey' : key ∈ owed := by cases stopFirst <;> exact hkey
    obtain hflag | ⟨worker, hworker, hdisconnects⟩ | rfl := howed key hkey'
    · refine .inl ?_
      cases stopFirst with
      | false => exact hflag
      | true => rw [if_pos rfl, deferred_setPhase]; exact hflag
    · refine .inr ⟨worker, List.mem_append_left _ ?_, hdisconnects⟩
      cases stopFirst <;> exact hworker
    · exact .inr ⟨_, List.mem_append_right _ (List.mem_singleton_self _), hnew⟩

theorem Waits.runDisconnect {key : Key} (h : Waits .other e key) (device : Identity) (stopFirst : Bool) :
    Waits .other (e.runDisconnect device stopFirst) key := by
  unfold Impl.runDisconnect
  split
  · exact h
  · dsimp only
    refine h.spawns _ _ (fun p => ?_) fun hflag => ?_
    · cases stopFirst <;> rfl
    · cases stopFirst with
      | false => exact hflag
      | true =>
        rw [if_pos rfl, deferred_setPhase] at hflag
        exact hflag

theorem Kept.setFlag (h : Kept .other e) (device : Identity) {session : Session}
    (hphase : session.phase = (e.sessionFor device).phase) (hflag : session.disconnectAfterStop) :
    Kept .other
      ({ e with backend := { e.backend with owed := identityKey device :: e.backend.owed } }.setSession
      device session) where
  starting key hstarting := by
    rw [sessions_setSession] at hstarting
    refine h.starting key ?_
    split at hstarting
    · rename_i hkey
      rw [hkey]
      exact hphase.symm.trans hstarting
    · exact hstarting
  stopping key hstopping := by
    rw [sessions_setSession] at hstopping
    refine h.stopping key ?_
    split at hstopping
    · rename_i hkey
      rw [hkey]
      exact hphase.symm.trans hstopping
    · exact hstopping
  connection := h.connection
  owed key hkey := by
    rw [sessions_setSession]
    by_cases hsame : key = identityKey device
    · rw [if_pos hsame]
      exact .inl hflag
    · rw [if_neg hsame]
      obtain heq | hold := List.mem_cons.mp hkey
      · exact absurd heq hsame
      · exact h.owed key hold

/-- A disconnect that waited goes on when its device has nothing pending any more. -/
theorem resumes (device : Identity) (hkept : Kept .other e) (hwaits : ∀ key ≠ identityKey device,
    Waits .other e key)
    (hphase : (e.sessionFor device).phase = .idle ∨ (e.sessionFor device).phase = .active)
    (hfree : (e.sessionFor device).disconnectAfterStop → e.connectionBusy = false) :
    Kept .other (e.resumeDisconnect device) ∧ ∀ key, Waits .other (e.resumeDisconnect device) key := by
  unfold resumeDisconnect
  dsimp only
  by_cases hflag : (e.sessionFor device).disconnectAfterStop = true
  · have hgoes : ¬(!(e.sessionFor device).disconnectAfterStop || decide ((e.sessionFor device).phase =
      .starting) ||
        decide ((e.sessionFor device).phase = .stopping)) = true := by
      obtain hidle | hactive := hphase
      · simp [hflag, hidle]
      · simp [hflag, hactive]
    rw [if_neg hgoes]
    have hsame (key : Key) : key ≠ identityKey device →
        (e.setSession device { e.sessionFor device with disconnectAfterStop := false }).sessions key =
          e.sessions key :=
      fun hne => by rw [sessions_setSession, if_neg hne]
    have hphases (key : Key) :
        ((e.setSession device { e.sessionFor device with disconnectAfterStop := false }).sessions key).phase =
          (e.sessions key).phase := by
      rw [sessions_setSession]
      split
      · rename_i hkey
        rw [hkey]
        rfl
      · rfl
    -- what is owed to the device is taken out until the worker is there
    have hcleared :
      Kept .other { e.setSession device { e.sessionFor device with disconnectAfterStop := false } with
        backend := { e.backend with owed := e.backend.owed.filter (· ≠ identityKey device) } } := by
      refine ⟨fun key hstarting => hkept.starting key ?_, fun key hstopping => hkept.stopping key ?_,
        hkept.connection,
        fun key hkey => ?_⟩
      · exact (hphases key).symm.trans hstarting
      · exact (hphases key).symm.trans hstopping
      · obtain ⟨hmem, hne⟩ := List.mem_filter.mp hkey
        have hne := of_decide_eq_true hne
        show ((e.setSession device _).sessions key).disconnectAfterStop ∨ _
        rw [hsame key hne]
        exact hkept.owed key hmem
    refine ⟨?_, fun key => Waits.runDisconnect (fun hdeferred => ?_) device _⟩
    · refine hcleared.runDisconnect device _ (hfree hflag) fun key hkey => ?_
      by_cases hne : key = identityKey device
      · exact .inr (.inr hne)
      · obtain hdeferred | hworker := hkept.owed key hkey
        · refine .inl ?_
          show ((e.setSession device _).sessions key).disconnectAfterStop
          rw [hsame key hne]
          exact hdeferred
        · exact .inr (.inl hworker)
    · by_cases hne : key = identityKey device
      · rw [hne, sessions_setSession, if_pos rfl] at hdeferred
        cases hdeferred
      · rw [hsame key hne] at hdeferred
        exact hwaits key hne hdeferred
  · have hflag := eq_false_of_ne_true hflag
    rw [if_pos (by simp [hflag])]
    refine ⟨hkept, fun key => ?_⟩
    by_cases hne : key = identityKey device
    · intro hdeferred
      rw [hne] at hdeferred
      exact absurd (hflag.symm.trans hdeferred) Bool.false_ne_true
    · exact hwaits key hne

/-- What holds between the steps. -/
structure Accounted (e : Impl) : Prop where
  kept : Kept .other e
  waits : ∀ key, Waits .other e key

theorem Accounted.calm (h : e.Accounted) (hcalm : e.Calm e') : e'.Accounted :=
  ⟨hcalm.kept h.kept, fun key => hcalm.waits (h.waits key)⟩

/-- The operation of a job is over, and the phase of its device is written. -/
theorem Kept.settles (h : Kept debt e) {device : Identity} {phase : Phase}
    (hdebt : debt = .start (identityKey device) ∨ debt = .stop (identityKey device))
    (hphase : phase = .idle ∨ phase = .active) : Kept .other (e.setPhase device phase) where
  starting key hstarting := by
    rw [phase_setPhase] at hstarting
    split at hstarting
    · obtain rfl | rfl := hphase <;> cases hstarting
    · rename_i hne
      have hold := h.starting key hstarting
      rw [total, List.countP_singleton, if_neg] at hold
      · exact hold
      · obtain rfl | rfl := hdebt <;> simp [Ne.symm hne]
  stopping key hstopping := by
    rw [phase_setPhase] at hstopping
    split at hstopping
    · obtain rfl | rfl := hphase <;> cases hstopping
    · rename_i hne
      have hold := h.stopping key hstopping
      rw [total, List.countP_singleton, if_neg] at hold
      · exact hold
      · obtain rfl | rfl := hdebt <;> simp [Ne.symm hne]
  connection := by
    have hold := h.connection
    obtain rfl | rfl := hdebt <;> exact hold
  owed key hkey := by
    rw [deferred_setPhase]
    exact h.owed key hkey

theorem Waits.settles {key : Key} (h : Waits debt e key) {device : Identity} (phase : Phase)
    (hdebt : debt = .start (identityKey device) ∨ debt = .stop (identityKey device))
    (hne : key ≠ identityKey device) :
    Waits .other (e.setPhase device phase) key := fun hflag => by
  rw [deferred_setPhase] at hflag
  have hold := h hflag
  rw [total, List.countP_singleton, if_neg] at hold
  · exact hold
  · obtain rfl | rfl := hdebt <;> simp [Ne.symm hne]

-- ---------------------------------------------------------------------------
-- Steps
-- ---------------------------------------------------------------------------

/-- The device of a job has settled in a phase, and what waited for it goes on. -/
theorem Accounted.settles (hkept : Kept debt e) (hwaits : ∀ key, Waits debt e key) {device : Identity}
    {phase : Phase}
    (hdebt : debt = .start (identityKey device) ∨ debt = .stop (identityKey device))
    (hphase : phase = .idle ∨ phase = .active)
    (hfree : (e.sessionFor device).disconnectAfterStop → e.connectionBusy = false)
    (hcalm : (e.setPhase device phase).Calm e') : (e'.resumeDisconnect device).Accounted := by
  have hphase' : (e'.sessionFor device).phase = phase := by
    rw [sessionFor, hcalm.phase, phase_setPhase, if_pos rfl]
  have hresumes := resumes device (hcalm.kept (hkept.settles hdebt hphase))
    (fun key hne => hcalm.waits ((hwaits key).settles phase hdebt hne)) (by rw [hphase']; exact hphase)
    fun hflag => by
      rw [hcalm.busy]
      rw [sessionFor, hcalm.deferred, deferred_setPhase] at hflag
      exact hfree hflag
  exact ⟨hresumes.1, hresumes.2⟩

theorem Accounted.finishStart {device : Identity} (hkept : Kept (.start (identityKey device)) e)
    (hwaits : ∀ key, Waits (.start (identityKey device)) e key)
    (hfree : (e.sessionFor device).disconnectAfterStop → e.connectionBusy = false) (result : Result) (now : Nat)
    (jitter : Jitter) : (e.finishStart device result now jitter).Accounted := by
  unfold Impl.finishStart
  cases result with
  | ok => exact .settles hkept hwaits (.inl rfl) (.inr rfl) hfree (.of_eq rfl rfl rfl rfl rfl rfl rfl rfl rfl)
  | error cancelled =>
    refine .settles hkept hwaits (.inl rfl) (.inl rfl) hfree ?_
    dsimp only
    split
    · exact calm_recordFailure _ device now jitter
    · exact .refl _

/-- The phase of a device that has settled changes. -/
theorem Accounted.setPhase (h : e.Accounted) (device : Identity) {phase : Phase}
    (hphase : phase = .idle ∨ phase = .active) :
    (e.setPhase device phase).Accounted where
  kept := by
    refine ⟨fun key hstarting => ?_, fun key hstopping => ?_, h.kept.connection, fun key hkey => ?_⟩
    · rw [phase_setPhase] at hstarting
      split at hstarting
      · obtain rfl | rfl := hphase <;> cases hstarting
      · exact h.kept.starting key hstarting
    · rw [phase_setPhase] at hstopping
      split at hstopping
      · obtain rfl | rfl := hphase <;> cases hstopping
      · exact h.kept.stopping key hstopping
    · rw [deferred_setPhase]
      exact h.kept.owed key hkey
  waits key hflag := by
    rw [deferred_setPhase] at hflag
    exact h.waits key hflag

/-- The connection slot is free again; where the monitor was stopped first, the device is idle. -/
theorem Accounted.frees (hkept : Kept debt e) (hwaits : ∀ key, Waits debt e key) (hdebt : Op.isConnection debt)
    (hpending : ∀ p, e'.pending p = e.pending p) (hbusy : e'.connectionBusy = false)
    (hphase : ∀ key, (e'.sessions key).phase = .idle ∨
      (e'.sessions key).phase = (e.sessions key).phase ∧ debt ≠ .disconnect key true)
    (hflag : ∀ key, (e'.sessions key).disconnectAfterStop = (e.sessions key).disconnectAfterStop)
    (hbackend : e'.backend = e.backend) (hworkers : e'.workers = e.workers) : e'.Accounted where
  kept := by
    refine ⟨fun key hstarting => ?_, fun key hstopping => ?_, ?_, fun key hkey => ?_⟩
    · obtain hidle | ⟨hsame, -⟩ := hphase key
      · cases hidle.symm.trans hstarting
      · have hold := hkept.starting key (hsame.symm.trans hstarting)
        rw [total, List.countP_singleton, if_neg] at hold
        · rw [total_other rfl, hpending]
          exact hold
        · intro heq
          rw [of_decide_eq_true heq] at hdebt
          cases hdebt
    · obtain hidle | ⟨hsame, hne⟩ := hphase key
      · cases hidle.symm.trans hstopping
      · have hold := hkept.stopping key (hsame.symm.trans hstopping)
        rw [total, List.countP_singleton, if_neg] at hold
        · rw [total_other rfl, hpending]
          exact hold
        · intro heq
          obtain heq | heq := of_decide_eq_true heq
          · rw [heq] at hdebt
            cases hdebt
          · exact hne heq
    · have hold := hkept.connection
      rw [total, List.countP_singleton, if_pos hdebt] at hold
      rw [total_other rfl, hpending, hbusy]
      have hle : e.connectionBusy.toNat ≤ 1 := Bool.toNat_le _
      show e.pending Op.isConnection = 0
      omega
    · rw [hbackend] at hkey
      rw [hflag, hworkers]
      exact hkept.owed key hkey
  waits key hdeferred := by
    have hold := hwaits key ((hflag key).symm.trans hdeferred)
    rw [total, List.countP_singleton, if_neg] at hold
    · rw [total_other rfl, hpending]
      exact hold
    · intro heq
      obtain heq | heq := of_decide_eq_true heq
      · rw [heq] at hdebt
        cases hdebt
      · rw [heq] at hdebt
        cases hdebt

theorem Kept.connect (h : Kept .other e) (device : Identity) (hfree : e.connectionBusy = false) :
    Kept .other (spawn { e with connectionBusy := true, pendingConnect := some device } (.connect device)) := by
  refine h.spawns (fun _ => rfl) (fun _ => .inl rfl) ?_ fun key hkey => ?_
  · rw [hfree]
    rfl
  · obtain hflag | ⟨worker, hworker, hdisconnects⟩ := h.owed key hkey
    · exact .inl hflag
    · exact .inr ⟨worker, List.mem_append_left _ hworker, hdisconnects⟩

theorem Accounted.handleConnect (h : e.Accounted) (requested : Identity) :
    (e.handleConnect requested).Accounted := by
  unfold Impl.handleConnect
  split
  · exact h
  · split
    · exact h
    · rename_i hbusy
      split
      · exact ⟨h.kept.connect _ (eq_false_of_ne_true hbusy), fun key => (h.waits key).spawns _ _
          (fun _ => rfl) id⟩
      · exact h

/-- While the monitor starts or stops and no disconnect runs, something of the monitor is pending. -/
theorem Kept.pending_of_busy (h : Kept .other e) (hfree : e.connectionBusy = false) {key : Key}
    (hphase : (e.sessions key).phase = .starting ∨ (e.sessions key).phase = .stopping) :
    0 < e.pending fun op => op = .start key ∨ op = .stop key := by
  have hnone : e.pending Op.isConnection = 0 := by
    have hconnection := h.connection
    rw [total_other rfl, hfree] at hconnection
    exact hconnection
  rw [pending, Nat.add_eq_zero_iff] at hnone
  have hsub (ops : List Op) (hzero : ops.countP Op.isConnection = 0) :
      ops.countP (fun op => op = .stop key ∨ op = .disconnect key true) ≤
        ops.countP fun op => op = .start key ∨ op = .stop key := by
    refine List.countP_mono_left fun op hop hstops => ?_
    rw [List.countP_eq_zero] at hzero
    have hnot := hzero op hop
    obtain rfl | rfl := of_decide_eq_true hstops
    · simp
    · exact absurd rfl hnot
  have hstart (ops : List Op) : ops.countP (fun op => decide (op = .start key)) ≤
      ops.countP fun op => op = .start key ∨ op = .stop key :=
    List.countP_mono_left fun op _ hop => by simp [of_decide_eq_true hop]
  obtain hstarting | hstopping := hphase
  · have hold := h.starting key hstarting
    rw [total_other rfl, pending] at hold
    have hworkers := hstart (e.workers.map Worker.op)
    have hqueue := hstart (e.queue.map Job.op)
    rw [pending]
    omega
  · have hold := h.stopping key hstopping
    rw [total_other rfl, pending] at hold
    have hworkers := hsub _ hnone.1
    have hqueue := hsub _ hnone.2
    rw [pending]
    omega

theorem Accounted.acceptDisconnect (h : e.Accounted) (device : Identity) (hfree : e.connectionBusy = false) :
    (e.acceptDisconnect device).Accounted := by
  -- intents and retries do not matter
  have hcalm :
    e.Calm ({ e with intents := e.intents.filter fun item => !sameIdentity item device }.resetRetries device) :=
    .of_eq rfl rfl rfl rfl rfl rfl rfl rfl rfl
  have hkept := hcalm.kept h.kept
  have hwaits := fun key => hcalm.waits (h.waits key)
  have howed (key : Key) (hkey : key ∈ identityKey device :: e.backend.owed) :
      (e.sessions key).disconnectAfterStop ∨ (∃ worker ∈ e.workers, Worker.disconnects key worker) ∨
        key = identityKey device := by
    obtain rfl | hold := List.mem_cons.mp hkey
    · exact .inr (.inr rfl)
    · exact (h.kept.owed key hold).imp_right .inl
  unfold Impl.acceptDisconnect
  dsimp only
  split
  · rename_i hphase
    refine ⟨hkept.setFlag device rfl rfl, fun key hflag => ?_⟩
    by_cases hkey : key = identityKey device
    · rw [total_other rfl, hkey]
      exact h.kept.pending_of_busy hfree (.inl hphase)
    · rw [sessions_setSession, if_neg hkey] at hflag
      exact hwaits key hflag
  · rename_i hphase
    refine ⟨hkept.setFlag device rfl rfl, fun key hflag => ?_⟩
    by_cases hkey : key = identityKey device
    · rw [total_other rfl, hkey]
      exact h.kept.pending_of_busy hfree (.inr hphase)
    · rw [sessions_setSession, if_neg hkey] at hflag
      exact hwaits key hflag
  · refine ⟨hkept.runDisconnect device true hfree howed, fun key => Waits.runDisconnect ?_ device true⟩
    exact hwaits key
  · refine ⟨hkept.runDisconnect device false hfree howed, fun key => Waits.runDisconnect ?_ device false⟩
    exact hwaits key

theorem Accounted.handleDisconnect (h : e.Accounted) (requested : Identity) :
    (e.handleDisconnect requested).Accounted := by
  unfold Impl.handleDisconnect
  split
  · exact h
  · split
    · exact h.calm (calm_spawn e ⟨rfl, rfl⟩)
    · split
      · exact h
      · rename_i hbusy
        split
        · exact h.acceptDisconnect _ (eq_false_of_ne_true hbusy)
        · exact h

theorem Accounted.handleCommand (h : e.Accounted) (command : Command) :
    (e.handleCommand command).Accounted := by
  by_cases hconnect : ∃ device, command = .connect device
  · obtain ⟨device, rfl⟩ := hconnect
    exact h.handleConnect device
  · by_cases hdisconnect : ∃ device, command = .disconnect device
    · obtain ⟨device, rfl⟩ := hdisconnect
      exact h.handleDisconnect device
    · exact h.calm (calm_handleCommand e (fun device heq => hconnect ⟨device, heq⟩) fun device heq =>
        hdisconnect ⟨device, heq⟩)

/-- A monitor is started or stopped. -/
theorem Accounted.spawns (h : e.Accounted) (worker : Worker) (hpending : ∀ p, e'.pending p = e.pending p)
    (hphase : ∀ key, (e'.sessions key).phase = (e.sessions key).phase ∨
      (e'.sessions key).phase = .starting ∧ worker.op = .start key ∨
      (e'.sessions key).phase = .stopping ∧ worker.op = .stop key)
    (hconnection : Op.isConnection worker.op = false) (hbusy : e'.connectionBusy = e.connectionBusy)
    (hflag : ∀ key, (e'.sessions key).disconnectAfterStop = (e.sessions key).disconnectAfterStop)
    (hbackend : e'.backend = e.backend) (hworkers : e'.workers = e.workers) : (e'.spawn worker).Accounted where
  kept := by
    refine h.kept.spawns hpending (fun key => ?_) ?_ fun key hkey => ?_
    · exact (hphase key).imp_right (Or.imp_right (And.imp_right .inl))
    · rw [hbusy, List.countP_singleton, hconnection]
      rfl
    · rw [hbackend] at hkey
      rw [hflag, hworkers]
      obtain hdeferred | ⟨other, hother, hdisconnects⟩ := h.kept.owed key hkey
      · exact .inl hdeferred
      · exact .inr ⟨other, List.mem_append_left _ hother, hdisconnects⟩
  waits key := (h.waits key).spawns e' worker hpending fun hdeferred => (hflag key).symm.trans hdeferred

theorem Accounted.execute (h : e.Accounted) (command : MonitorCommand) : (e.execute command).Accounted := by
  unfold Impl.execute
  split
  · unfold startMonitor
    refine h.spawns _ (fun _ => rfl) (fun key => ?_) rfl rfl (fun key => ?_) rfl rfl
    · rw [sessions_setSession]
      split
      · rename_i hkey
        exact .inr (.inl ⟨rfl, by rw [hkey]; rfl⟩)
      · exact .inl rfl
    · rw [sessions_setSession]
      split
      · rename_i hkey
        rw [hkey]
        rfl
      · rfl
  · unfold stopMonitor
    refine h.spawns _ (fun _ => rfl) (fun key => ?_) rfl rfl (deferred_setPhase e _ _) rfl rfl
    rw [phase_setPhase]
    split
    · rename_i hkey
      exact .inr (.inr ⟨rfl, by rw [hkey]; rfl⟩)
    · exact .inl rfl

theorem Accounted.reconcile (h : e.Accounted) (now : Nat) : (e.reconcile now).Accounted := by
  have hfold (commands : List MonitorCommand) : ∀ {e : Impl},
    e.Accounted → (commands.foldl Impl.execute e).Accounted := by
    induction commands with
    | nil => exact id
    | cons command commands ih => exact fun hold => ih (hold.execute command)
  refine hfold _ (h.calm ?_)
  exact .of_eq rfl rfl rfl rfl rfl rfl rfl rfl rfl

theorem Accounted.runJob (h : e.Accounted) {job : Job} {batch : List Job} (hbatch : e.batch = job :: batch)
    (hfree : match job with
      | .startDone device _ _ | .stopDone device =>
        (e.sessionFor device).disconnectAfterStop → e.connectionBusy = false
      | _ => True) (now : Nat) (jitter : Jitter) :
    (runJob { e with batch } now jitter job).Accounted := by
  have hkept := h.kept.pop hbatch
  have hwaits := fun key => (h.waits key).pop hbatch
  cases job with
  | command command => exact Accounted.handleCommand ⟨hkept, hwaits⟩ command
  | inventoryChanged => exact Accounted.calm ⟨hkept, hwaits⟩ (calm_refreshInventory _)
  | snapshotDone reply =>
    refine Accounted.calm ⟨hkept, hwaits⟩ ?_
    unfold Impl.runJob
    dsimp only
    split <;> exact .of_eq rfl rfl rfl rfl rfl rfl rfl rfl rfl
  | scanDone enabled result =>
    refine Accounted.calm ⟨hkept, hwaits⟩ (.trans ?_ (calm_refreshInventory _))
    exact .of_eq rfl rfl rfl rfl rfl rfl rfl rfl rfl
  | connectDone =>
    refine Accounted.calm ?_ (calm_refreshInventory _)
    exact .frees hkept hwaits rfl (fun _ => rfl) rfl (fun _ => .inr ⟨rfl, nofun⟩) (fun _ => rfl) rfl rfl
  | disconnectDone device stopFirst =>
    cases stopFirst with
    | false =>
      refine Accounted.calm ?_ (calm_refreshInventory _)
      exact .frees hkept hwaits rfl (fun _ => rfl) rfl (fun _ => .inr ⟨rfl, nofun⟩) (fun _ => rfl) rfl rfl
    | true =>
      refine Accounted.calm ?_ (calm_refreshInventory _)
      refine .frees hkept hwaits rfl (fun _ => rfl) rfl (fun key => ?_) (fun key => ?_) rfl rfl
      · rw [if_pos rfl, phase_setPhase]
        split
        · exact .inl rfl
        · rename_i hne
          exact .inr ⟨rfl, fun heq => hne (Op.disconnect.inj heq).1.symm⟩
      · rw [if_pos rfl, deferred_setPhase]
  | startDone device monitor result => exact .finishStart hkept hwaits hfree result now jitter
  | stopDone device => exact .settles hkept hwaits (.inr rfl) (.inl rfl) hfree (.refl _)
  | monitorEvent device monitor terminal =>
    unfold Impl.runJob handleMonitorEvent
    dsimp only
    split
    · have hidle := Accounted.setPhase ⟨hkept, hwaits⟩ device (.inl rfl)
      split
      · exact hidle.calm (calm_recordFailure _ device now jitter)
      · exact hidle
    · exact ⟨hkept, hwaits⟩
  | directStartDone result => exact Accounted.calm ⟨hkept, hwaits⟩ (calm_finishDirectStart _ result)
  | directStopDone => exact Accounted.calm ⟨hkept, hwaits⟩ (.of_eq rfl rfl rfl rfl rfl rfl rfl rfl rfl)

theorem Accounted.runWorker (h : e.Accounted) {index : Nat} {reply : Reply}
    (hs : e.runWorker index reply = some e') :
    e'.Accounted := by
  have hpending (p : Op → Bool) (hother : p .other = false) : e'.total .other p = e.total .other p := by
    rw [total_other hother, total_other hother, pending_runWorker hs hother]
  obtain ⟨left, worker, right, hworkers, rfl⟩ := runWorker_cases hs
  refine ⟨⟨fun key hstarting => ?_, fun key hstopping => ?_, ?_, fun key hkey => ?_⟩, fun key hflag => ?_⟩
  · rw [hpending _ rfl]
    exact h.kept.starting key hstarting
  · rw [hpending _ rfl]
    exact h.kept.stopping key hstopping
  · rw [hpending _ rfl]
    exact h.kept.connection
  · -- a worker that goes on to its disconnect pays what is owed
    have hold : key ∈ e.backend.owed ∧ (Worker.disconnects key worker →
        ∃ next ∈ (e.backend.advance worker reply).1, Worker.disconnects key next) := by
      cases worker with
      | disconnect device stopFirst pc =>
        cases pc with
        | stops => exact ⟨hkey, fun hnext => ⟨_, List.mem_singleton_self _, hnext.1, by decide⟩⟩
        | stopping => exact ⟨hkey, fun hnext => ⟨_, List.mem_singleton_self _, hnext.1, by decide⟩⟩
        | disconnects =>
          obtain ⟨hmem, hne⟩ := List.mem_filter.mp hkey
          exact ⟨hmem, fun hnext => absurd hnext.1.symm (of_decide_eq_true hne)⟩
        | disconnecting => exact ⟨hkey, fun hnext => absurd rfl hnext.2⟩
      | start device direct monitor =>
        refine ⟨?_, False.elim⟩
        cases monitor with
        | none => exact hkey
        | some monitor =>
          change key ∈ (e.backend.started monitor reply.result).owed at hkey
          unfold Backend.started at hkey
          split at hkey <;> exact hkey
      | stop device direct calling => cases calling <;> exact ⟨hkey, False.elim⟩
      | snapshot | scan | connect | cancelConnect => exact ⟨hkey, False.elim⟩
    obtain hflag | ⟨other, hother, hdisconnects⟩ := h.kept.owed key hold.1
    · exact .inl hflag
    · rw [hworkers, List.mem_append, List.mem_cons] at hother
      obtain hleft | rfl | hright := hother
      · exact .inr ⟨other, List.mem_append_left _ (List.mem_append_left _ hleft), hdisconnects⟩
      · obtain ⟨next, hnext, hnexts⟩ := hold.2 hdisconnects
        exact .inr ⟨next, List.mem_append_left _ (List.mem_append_right _ hnext), hnexts⟩
      · exact .inr ⟨other, List.mem_append_right _ hright, hdisconnects⟩
  · rw [hpending _ rfl]
    exact h.waits key hflag

theorem Accounted.post (h : e.Accounted) {job : Job} (hop : job.op = .other) : (e.post [job]).Accounted := by
  have hpending (p : Op → Bool) (hother : p .other = false) : (e.post [job]).total .other p =
    e.total .other p := by
    rw [total_other hother, total_other hother, pending_post e job (hop ▸ hother)]
  refine ⟨⟨fun key hstarting => ?_, fun key hstopping => ?_, ?_, h.kept.owed⟩, fun key hflag => ?_⟩
  · rw [hpending _ rfl]
    exact h.kept.starting key hstarting
  · rw [hpending _ rfl]
    exact h.kept.stopping key hstopping
  · rw [hpending _ rfl]
    exact h.kept.connection
  · rw [hpending _ rfl]
    exact h.waits key hflag

/-- Only fields that nothing of this is about change, and the queue stays. -/
theorem Accounted.frame (h : e.Accounted) (hqueue : e'.queue = e.queue) (hworkers : e'.workers = e.workers)
    (hsessions : e'.sessions = e.sessions) (hbusy : e'.connectionBusy = e.connectionBusy)
    (howed : e'.backend.owed = e.backend.owed) : e'.Accounted := by
  have hpending (p : Op → Bool) : e'.total .other p = e.total .other p := by
    rw [total, total, pending, pending, hqueue, hworkers]
  refine ⟨⟨fun key hstarting => ?_, fun key hstopping => ?_, ?_, fun key hkey => ?_⟩, fun key hflag => ?_⟩
  · rw [hpending]
    exact h.kept.starting key (hsessions ▸ hstarting)
  · rw [hpending]
    exact h.kept.stopping key (hsessions ▸ hstopping)
  · rw [hpending, hbusy]
    exact h.kept.connection
  · rw [hsessions, hworkers]
    exact h.kept.owed key (howed ▸ hkey)
  · rw [hpending]
    exact h.waits key (hsessions ▸ hflag)

theorem Accounted.control (h : e.Accounted) (hrunning : e.Running) {now : Nat} {refresh : Bool}
    {jitter : Jitter}
    (hok : e.Unhindered (.control now refresh jitter)) (hs : e.control now refresh jitter = some e') :
    e'.Accounted := by
  obtain ⟨hrequested, hfree⟩ := hok
  obtain ⟨-, hbatch, rfl⟩ | ⟨job, batch, hruns, hbatch, rfl⟩ | ⟨-, -, rfl⟩ :=
    control_cases hrunning hrequested hs
  · refine h.frame ?_ rfl rfl rfl rfl
    rw [queue, queue, hbatch, List.append_nil]
    rfl
  · refine h.runJob hbatch ?_ now jitter
    have hfree := hfree hruns
    rw [hindered, hbatch] at hfree
    cases job with
    | startDone | stopDone => exact fun hflag => by simpa [hflag] using hfree
    | _ => trivial
  · have hrefreshed : (if refresh then e.refreshInventory else e).Accounted := by
      split
      · exact h.calm (calm_refreshInventory e)
      · exact h
    exact (hrefreshed.reconcile now).frame rfl rfl rfl rfl rfl

theorem Accounted.step {action : Action} (h : e.Accounted) (hrunning : e.Running) (hok : e.Unhindered action)
    (hs : e.step action = some e') : e'.Accounted := by
  cases action with
  | send command =>
    simp only [Impl.step] at hs
    split at hs
    · cases hs
    · obtain rfl := Option.some.inj hs
      exact h.post rfl
  | inventoryChanged =>
    obtain rfl := Option.some.inj hs
    exact h.post rfl
  | event monitor terminal =>
    simp only [Impl.step] at hs
    split at hs
    · cases hs
    · obtain rfl := Option.some.inj hs
      have hframe :
        Accounted { e with backend := if terminal then e.backend.terminated monitor else e.backend } := by
        refine h.frame rfl rfl rfl rfl ?_
        cases terminal <;> rfl
      exact hframe.post rfl
  | worker index reply => exact h.runWorker hs
  | control now refresh jitter => exact h.control hrunning hok hs

theorem accounted_new (inventoryEnabled : Bool) : (new inventoryEnabled).Accounted := by
  refine Accounted.calm ⟨⟨fun _ hphase => ?_, fun _ hphase => ?_, rfl, fun _ hkey => ?_⟩, fun _ hflag => ?_⟩
    (calm_refreshInventory { inventoryEnabled })
  · cases hphase
  · cases hphase
  · cases hkey
  · cases hflag

theorem accounted_of_reaches {inventoryEnabled : Bool}
    (h : ReachesBy step Unhindered (new inventoryEnabled) e) :
    e.Accounted ∧ e.Running := by
  refine h.invariant (I := fun e => e.Accounted ∧ e.Running) ⟨accounted_new _, running_new _⟩ ?_
  rintro e action e' ⟨haccounted, hrunning⟩ hok hs
  refine ⟨haccounted.step hrunning hok hs, hrunning.step (fun now refresh jitter heq => ?_) hs⟩
  subst heq
  exact hok.1

/-- Where everything has come to rest, the backend has been called for every disconnect that was accepted. -/
theorem accepted_called {inventoryEnabled : Bool} (h : ReachesBy step Unhindered (new inventoryEnabled) e)
    (hquiescent : e.Quiescent) :
    e.backend.owed = [] ∧ ∀ key, (e.sessions key).disconnectAfterStop = false := by
  obtain ⟨haccounted, -⟩ := accounted_of_reaches h
  have hflag (key : Key) : (e.sessions key).disconnectAfterStop = false := by
    refine eq_false_of_ne_true fun hdeferred => ?_
    have hwaits := haccounted.waits key hdeferred
    rw [total_other rfl, pending, hquiescent.workers, hquiescent.queue] at hwaits
    exact absurd hwaits (Nat.lt_irrefl 0)
  refine ⟨List.eq_nil_iff_forall_not_mem.mpr fun key hkey => ?_, hflag⟩
  obtain hdeferred | ⟨worker, hworker, -⟩ := haccounted.kept.owed key hkey
  · rw [hflag key] at hdeferred
    cases hdeferred
  · rw [hquiescent.workers] at hworker
    cases hworker

/-- Two devices that are saved; the first is connected. -/
def phone : Identity := ⟨[65], [49]⟩
def tablet : Identity := ⟨[65], [50]⟩

def devices : List DeviceEntry :=
  [{ identity := phone, displayName := [], paired := some true, connected := some true, present := true },
    { identity := tablet, displayName := [], paired := some true, connected := some false, present := true }]

/-- The control thread goes on. -/
def goesOn : Action := .control 0 false { percent := 100 }

/-- The same, at a time. -/
def goesOnAt (now : Nat) : Action := .control now false { percent := 100 }

/-- Both are saved, and the intents restored. -/
def configured (monitoring : List Identity) : List Action :=
  [.send (.configure [phone, tablet] monitoring none), .worker 0 { devices }, goesOn, goesOn, goesOn, goesOn]

/-- The first device is disconnected while its monitor starts. -/
def deferred : List Action :=
  configured [phone] ++ [.worker 0 {}, .send (.disconnect phone), goesOn, goesOn, goesOn, .worker 0 {},
    goesOn, goesOn, .worker 0 {}, .worker 0 {}, .worker 0 {}, .worker 0 {}, goesOn, goesOn, goesOn,
    .worker 0 { devices }, goesOn, goesOn, goesOn, goesOn]

theorem accepted_called_once :
    ∃ e : Impl, e.backend.owed = [] ∧ ∀ key, (e.sessions key).disconnectAfterStop = false :=
  have h : ReachesBy step Unhindered (new true) _ := ReachesBy.of_isSome_by deferred (by decide +kernel)
  ⟨_, accepted_called h ⟨List.isEmpty_iff.mp (by decide +kernel), List.isEmpty_iff.mp (by decide +kernel)⟩⟩

/-- While a disconnect waits for the start, the other device is connected. -/
def overtaken : List Action :=
  configured [phone] ++ [.send (.disconnect phone), .send (.connect tablet), goesOn, goesOn, goesOn, goesOn,
    .worker 0 {}, .worker 0 { result := .error true }, goesOn, goesOn, goesOn, .worker 0 {}, goesOn,
      goesOn, goesOn,
    .worker 0 { devices }, goesOn, goesOn, goesOn]

theorem accepted_lost : ¬ ∀ e : Impl, Reaches step (new true) e → e.shutdownRequested = false → e.Quiescent →
    e.backend.owed = [] := by
  intro h
  have hreaches : Reaches step (new true) _ := ReachesBy.of_isSome overtaken (by decide +kernel)
  have howed := h _ hreaches (by decide +kernel)
    ⟨List.isEmpty_iff.mp (by decide +kernel), List.isEmpty_iff.mp (by decide +kernel)⟩
  revert howed
  decide +kernel

end Impl
end Dmn.Engine
