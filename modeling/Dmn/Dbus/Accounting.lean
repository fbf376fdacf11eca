import Dmn.Dbus.Callbacks

/-!
# What the queue accounts for

The bytes and the number of the queued signals stay within their limits, every
decoded signal is queued whole or counted as dropped, the callbacks run in the
order of the queue, and a call of `drainSignalCallbacks` that succeeds has
waited for all callbacks that were queued before its marker.
-/

namespace Dmn.Dbus

open Dmn.Lib

section
variable {κ α : Type}

@[simp] theorem signals_append (queue queue' : List (QueuedSignal κ α)) :
    signals (queue ++ queue') = signals queue ++ signals queue' := by
  induction queue with
  | nil => rfl
  | cons signal queue ih => cases signal <;> simp [signals, ih]

@[simp] theorem signals_map (entries : List (Entry κ α)) : signals (entries.map .signal) = entries := by
  induction entries with
  | nil => rfl
  | cons entry entries ih => simp [signals, ih]

@[simp] theorem markers_append (queue queue' : List (QueuedSignal κ α)) :
    markers (queue ++ queue') = markers queue ++ markers queue' := by
  induction queue with
  | nil => rfl
  | cons signal queue ih => cases signal <;> simp [markers, ih]

/-- No marker of the queue counts more than what is before it. -/
def Marked (base : Nat) : List (QueuedSignal κ α) → Prop
  | [] => True
  | .signal _ :: queue => Marked (base + 1) queue
  | .marker completion :: queue => completion.mark ≤ base ∧ Marked base queue

theorem marked_append (base : Nat) (queue queue' : List (QueuedSignal κ α)) :
    Marked base (queue ++ queue') ↔ Marked base queue ∧ Marked (base + (signals queue).length) queue' := by
  induction queue generalizing base with
  | nil => simp [Marked, signals]
  | cons signal queue ih =>
    cases signal with
    | signal entry =>
      rw [List.cons_append, Marked, Marked, signals, ih, List.length_cons, Nat.add_assoc, Nat.add_comm 1]
    | marker completion => rw [List.cons_append, Marked, Marked, signals, ih, and_assoc]

theorem marked_map (base : Nat) (entries : List (Entry κ α)) : Marked base (entries.map .signal) := by
  induction entries generalizing base with
  | nil => trivial
  | cons entry entries ih => exact ih (base + 1)

theorem Signal.entries_length (signal : Signal κ α) : signal.entries.length = signal.callbacks.length :=
  List.length_map _

/-- Every entry of a signal is as large as the signal. -/
theorem Signal.entries_sum (signal : Signal κ α) :
    (signal.entries.map (·.bytes)).sum = signal.callbacks.length * signal.bytes := by
  have hmap : signal.entries.map (·.bytes) = signal.callbacks.map fun _ => signal.bytes := by
    rw [Signal.entries, List.map_map]
    rfl
  rw [hmap, List.map_const', List.sum_replicate_nat]

end

namespace Callbacks

variable {ι κ α : Type} {limits : SignalLimits} {s s' : Callbacks ι κ α}

structure Accounts (limits : SignalLimits) (s : Callbacks ι κ α) : Prop where
  bytes : s.queuedSignalBytes = ((signals s.queue).map (·.bytes)).sum
  messagesLe : (signals s.queue).length ≤ limits.maxSignalMessages
  bytesLe : s.queuedSignalBytes ≤ limits.maxSignalBytes
  droppedMessages : s.droppedSignalMessages = s.dropped.length
  droppedBytes : s.droppedSignalBytes = (s.dropped.map (·.bytes)).sum
  order : s.worker.isDone = false → s.handed ++ signals s.queue = s.queued
  finished : s.finished + s.worker.running = s.handed.length
  marked : Marked s.handed.length s.queue
  completing : ∀ completion, s.worker = .completes completion → completion.mark ≤ s.finished
  completed : ∀ completion ∈ s.completed, s.stopping ∨ completion.mark ≤ s.finished
  returned : ∀ call completion, s.caller call = .returned (some completion) → completion.mark ≤ s.finished
  done : s.worker.isDone → s.stopping

theorem initial_accounts (limits : SignalLimits) : Accounts limits ({} : Callbacks ι κ α) where
  bytes := rfl
  messagesLe := Nat.zero_le _
  bytesLe := Nat.zero_le _
  droppedMessages := rfl
  droppedBytes := rfl
  order _ := rfl
  finished := rfl
  marked := trivial
  completing := nofun
  completed := nofun
  returned := nofun
  done := nofun

/-- The threads move, and none takes out or completes anything. -/
theorem Accounts.places (h : s.Accounts limits) {worker : WorkerPc κ α} {caller : ι → CallerPc}
    (dispatch : DispatchPc κ α) (shutdown : ShutdownPc) (hdone : worker.isDone = s.worker.isDone)
    (hrunning : worker.running = s.worker.running)
    (hcompletes : ∀ completion, worker = .completes completion → s.worker = .completes completion)
    (hcaller : ∀ call completion, caller call = .returned (some completion) → completion.mark ≤ s.finished) :
    Accounts limits { s with worker, caller, dispatch, shutdown } where
  bytes := h.bytes
  messagesLe := h.messagesLe
  bytesLe := h.bytesLe
  droppedMessages := h.droppedMessages
  droppedBytes := h.droppedBytes
  order hnot := h.order (hdone ▸ hnot)
  finished := by
    show s.finished + worker.running = _
    rw [hrunning]
    exact h.finished
  marked := h.marked
  completing completion hcompletes' := h.completing completion (hcompletes completion hcompletes')
  completed := h.completed
  returned := hcaller
  done hisDone := h.done (hdone ▸ hisDone)

theorem Accounts.moveDispatch (h : s.Accounts limits) (dispatch : DispatchPc κ α) :
    Accounts limits { s with dispatch } := h.places dispatch s.shutdown rfl rfl (fun _ heq => heq) h.returned

theorem Accounts.moveShutdown (h : s.Accounts limits) (shutdown : ShutdownPc) :
    Accounts limits { s with shutdown } := h.places s.dispatch shutdown rfl rfl (fun _ heq => heq) h.returned

/-- The callback worker moves between its places around the wait. -/
theorem Accounts.moveWorker (h : s.Accounts limits) {worker : WorkerPc κ α} (hold : s.worker.isDone = false)
    (hrunning : s.worker.running = 0) (hdone : worker.isDone = false) (hrunning' : worker.running = 0)
    (hcompletes : ∀ completion, worker ≠ .completes completion) : Accounts limits { s with worker } :=
  h.places s.dispatch s.shutdown (hdone.trans hold.symm) (hrunning'.trans hrunning.symm)
    (fun completion heq => absurd heq (hcompletes completion)) h.returned

theorem WorkerPc.wake_isDone (pc : WorkerPc κ α) : pc.wake.isDone = pc.isDone := by cases pc <;> rfl

theorem WorkerPc.wake_running (pc : WorkerPc κ α) : pc.wake.running = pc.running := by cases pc <;> rfl

theorem WorkerPc.wake_completes {pc : WorkerPc κ α} {completion : Promise}
    (h : pc.wake = .completes completion) :
    pc = .completes completion := by
  cases pc <;> first | exact h | cases h

theorem CallerPc.wake_returned {pc : CallerPc} {drained : Option Promise} (h : pc.wake = .returned drained) :
    pc = .returned drained := by
  cases pc <;> first | exact h | cases h

theorem Accounts.wakeAll (h : s.Accounts limits) : s.wakeAll.Accounts limits :=
  h.places s.dispatch s.shutdown (WorkerPc.wake_isDone _) (WorkerPc.wake_running _)
    (fun _ => WorkerPc.wake_completes) fun call completion hcaller =>
      h.returned call completion (CallerPc.wake_returned hcaller)

variable [DecidableEq ι]

theorem Accounts.move (h : s.Accounts limits) (call : ι) {pc : CallerPc}
    (hpc : ∀ completion, pc = .returned (some completion) → completion.mark ≤ s.finished) :
    (s.move call pc).Accounts limits := by
  refine h.places s.dispatch s.shutdown rfl rfl (fun _ heq => heq) fun other completion hreturned => ?_
  rw [Function.update_apply] at hreturned
  split at hreturned
  · exact hpc completion hreturned
  · exact h.returned other completion hreturned

theorem Accounts.wake (h : s.Accounts limits) (waiter : Waiter ι) : (s.wake waiter).Accounts limits := by
  cases waiter with
  | worker =>
    exact h.places s.dispatch s.shutdown (WorkerPc.wake_isDone _) (WorkerPc.wake_running _)
      (fun _ => WorkerPc.wake_completes) h.returned
  | caller call =>
    exact h.move call fun completion heq => h.returned call completion (CallerPc.wake_returned heq)

variable [Fintype ι]

theorem Accounts.notifyOne (h : s.Accounts limits) {woken : Option (Waiter ι)}
    (hs : s.notifyOne woken = some s') :
    s'.Accounts limits := by
  cases woken with
  | none =>
    simp only [Callbacks.notifyOne] at hs
    split at hs
    · obtain rfl := Option.some.inj hs
      exact h
    · cases hs
  | some waiter =>
    simp only [Callbacks.notifyOne] at hs
    split at hs
    · obtain rfl := Option.some.inj hs
      exact h.wake waiter
    · cases hs

-- ---------------------------------------------------------------------------
-- Sections
-- ---------------------------------------------------------------------------

omit [DecidableEq ι] [Fintype ι] in
theorem queued_append (s : Callbacks ι κ α) (signal : Signal κ α) (taken : Bool) :
    queued { s with arrived := s.arrived ++ [(signal, taken)] } = s.queued ++
      if taken then signal.entries else [] := by
  cases taken <;> simp [queued]

omit [DecidableEq ι] [Fintype ι] in
theorem dropped_append (s : Callbacks ι κ α) (signal : Signal κ α) (taken : Bool) :
    dropped { s with arrived := s.arrived ++ [(signal, taken)] } = s.dropped ++ if taken then [] else
      [signal] := by
  cases taken <;> simp [dropped]

omit [DecidableEq ι] [Fintype ι] in
theorem Accounts.drop (h : s.Accounts limits) (signal : Signal κ α) : (s.drop signal).Accounts limits where
  bytes := h.bytes
  messagesLe := h.messagesLe
  bytesLe := h.bytesLe
  droppedMessages := by
    have hdropped : (s.drop signal).dropped = s.dropped ++ [signal] := dropped_append s signal false
    rw [hdropped, List.length_append]
    exact congrArg (· + 1) h.droppedMessages
  droppedBytes := by
    have hdropped : (s.drop signal).dropped = s.dropped ++ [signal] := dropped_append s signal false
    rw [hdropped, List.map_append, List.sum_append, ← h.droppedBytes]
    simp [Callbacks.drop]
  order hnot := by
    have hqueued : (s.drop signal).queued = s.queued := (queued_append s signal false).trans (List.append_nil _)
    rw [hqueued]
    exact h.order hnot
  finished := h.finished
  marked := h.marked
  completing := h.completing
  completed := h.completed
  returned := h.returned
  done := h.done

omit [DecidableEq ι] [Fintype ι] in
/-- A signal that is not rejected fits. -/
theorem fits_of_not_rejects (h : s.Accounts limits) {signal : Signal κ α}
    (hrejects : s.rejects limits signal = false) :
    (signals s.queue).length + signal.callbacks.length ≤ limits.maxSignalMessages ∧
      s.queuedSignalBytes + signal.callbacks.length * signal.bytes ≤ limits.maxSignalBytes := by
  have hmessages := h.messagesLe
  have hbytes := h.bytesLe
  simp only [rejects, Bool.or_eq_false_iff, decide_eq_false_iff_not, Nat.not_lt] at hrejects
  rw [Nat.min_eq_left hmessages, Nat.min_eq_left hbytes] at hrejects
  have hdiv : signal.callbacks.length * signal.bytes ≤ limits.maxSignalBytes - s.queuedSignalBytes := by
    rw [Nat.mul_comm]
    exact (Nat.le_div_iff_mul_le (List.length_pos_iff.mpr signal.matched)).mp hrejects.2
  omega

omit [DecidableEq ι] [Fintype ι] in
theorem Accounts.enqueue (h : s.Accounts limits) {signal : Signal κ α}
    (hrejects : s.rejects limits signal = false) :
    (s.enqueue signal).Accounts limits where
  bytes := by
    show s.queuedSignalBytes + _ = ((signals (s.queue ++ signal.entries.map .signal)).map (·.bytes)).sum
    rw [signals_append, signals_map, List.map_append, List.sum_append, ← h.bytes]
  messagesLe := by
    show (signals (s.queue ++ signal.entries.map .signal)).length ≤ _
    rw [signals_append, signals_map, List.length_append, signal.entries_length]
    exact (fits_of_not_rejects h hrejects).1
  bytesLe := by
    show s.queuedSignalBytes + _ ≤ _
    rw [signal.entries_sum]
    exact (fits_of_not_rejects h hrejects).2
  droppedMessages := by
    have hdropped : (s.enqueue signal).dropped = s.dropped := (dropped_append s signal true).trans
      (List.append_nil _)
    rw [hdropped]
    exact h.droppedMessages
  droppedBytes := by
    have hdropped : (s.enqueue signal).dropped = s.dropped := (dropped_append s signal true).trans
      (List.append_nil _)
    rw [hdropped]
    exact h.droppedBytes
  order hnot := by
    have hqueued : (s.enqueue signal).queued = s.queued ++ signal.entries := queued_append s signal true
    show s.handed ++ signals (s.queue ++ signal.entries.map .signal) = _
    rw [hqueued, signals_append, signals_map, ← List.append_assoc, h.order hnot]
  finished := h.finished
  marked := (marked_append _ _ _).mpr ⟨h.marked, marked_map _ _⟩
  completing := h.completing
  completed := h.completed
  returned := h.returned
  done := h.done

omit [DecidableEq ι] [Fintype ι] in
theorem Accounts.discard (h : s.Accounts limits) (hstopping : s.stopping) (hrunning : s.worker.running = 0) :
    s.discard.Accounts limits where
  bytes := rfl
  messagesLe := Nat.zero_le _
  bytesLe := Nat.zero_le _
  droppedMessages := h.droppedMessages
  droppedBytes := h.droppedBytes
  order := nofun
  finished := by
    have hfinished := h.finished
    rw [hrunning] at hfinished
    exact hfinished
  marked := trivial
  completing := nofun
  completed _ _ := .inl hstopping
  returned := h.returned
  done _ := hstopping

omit [DecidableEq ι] [Fintype ι] in
theorem Accounts.pop (h : s.Accounts limits) {signal : QueuedSignal κ α} {queue : List (QueuedSignal κ α)}
    (hworker : s.worker = .locks) (hqueue : s.queue = signal :: queue) :
    (s.pop queue signal).Accounts limits := by
  have hbytes := h.bytes
  have hmessages := h.messagesLe
  have hbytesLe := h.bytesLe
  have horder := h.order (by rw [hworker]; rfl)
  have hfinished := h.finished
  have hmarked := h.marked
  rw [hworker] at hfinished
  rw [hqueue] at hbytes hmessages horder hmarked
  have hreturned : ∀ call completion, (s.caller call).wake = .returned (some completion) →
      completion.mark ≤ s.finished := fun call completion heq => h.returned call completion
        (CallerPc.wake_returned heq)
  cases signal with
  | signal entry =>
    rw [signals, List.map_cons, List.sum_cons] at hbytes
    rw [signals, List.length_cons] at hmessages
    exact {
      bytes := by
        show s.queuedSignalBytes - entry.bytes = ((signals queue).map (·.bytes)).sum
        omega
      messagesLe := Nat.le_of_succ_le hmessages
      bytesLe := Nat.le_trans (Nat.sub_le _ _) hbytesLe
      droppedMessages := h.droppedMessages
      droppedBytes := h.droppedBytes
      order := fun _ => (List.append_assoc _ _ _).trans horder
      finished := by
        show s.finished + 1 = (s.handed ++ [entry]).length
        rw [List.length_append]
        exact congrArg (· + 1) hfinished
      marked := by
        show Marked (s.handed ++ [entry]).length queue
        rw [List.length_append]
        exact hmarked
      completing := nofun
      completed := h.completed
      returned := hreturned
      done := nofun }
  | marker completion =>
    exact {
      bytes := hbytes
      messagesLe := hmessages
      bytesLe := hbytesLe
      droppedMessages := h.droppedMessages
      droppedBytes := h.droppedBytes
      order := fun _ => horder
      finished := hfinished
      marked := hmarked.2
      completing := fun other heq => by
        obtain rfl : completion = other := WorkerPc.completes.inj heq
        exact Nat.le_trans hmarked.1 (Nat.le_of_eq hfinished.symm)
      completed := h.completed
      returned := hreturned
      done := nofun }

omit [Fintype ι] in
theorem Accounts.push (h : s.Accounts limits) (hstopping : s.stopping = false) (call : ι) :
    (s.push call).Accounts limits := by
  have hmoved : (s.move call (.notifies ⟨s.nextPromise, s.queued.length⟩)).Accounts limits := h.move call nofun
  have hdone : s.worker.isDone = false := by
    refine eq_false_of_ne_true fun hdone => ?_
    rw [h.done hdone] at hstopping
    cases hstopping
  have horder := h.order hdone
  have hsignals : signals (s.push call).queue = signals s.queue := by
    show signals (s.queue ++ [.marker _]) = _
    rw [signals_append]
    exact List.append_nil _
  exact {
    bytes := by
      rw [hsignals]
      exact h.bytes
    messagesLe := by
      rw [hsignals]
      exact h.messagesLe
    bytesLe := h.bytesLe
    droppedMessages := h.droppedMessages
    droppedBytes := h.droppedBytes
    order := fun _ => by
      rw [hsignals]
      exact horder
    finished := h.finished
    marked := by
      refine (marked_append _ _ _).mpr ⟨h.marked, ?_, trivial⟩
      show s.queued.length ≤ s.handed.length + (signals s.queue).length
      rw [← horder, List.length_append]
    completing := h.completing
    completed := h.completed
    returned := hmoved.returned
    done := h.done }

-- ---------------------------------------------------------------------------
-- Runs
-- ---------------------------------------------------------------------------

omit [DecidableEq ι] in
theorem runWorker_accounts (h : s.Accounts limits) (hs : s.runWorker = some s') : s'.Accounts limits := by
  unfold runWorker at hs
  split at hs
  · rename_i hworker
    have hold : s.worker.isDone = false := by rw [hworker]; rfl
    have hrunning : s.worker.running = 0 := by rw [hworker]; rfl
    split at hs
    · split at hs
      · rename_i hstopping
        obtain rfl := Option.some.inj hs
        exact h.discard hstopping hrunning
      · split at hs
        · obtain rfl := Option.some.inj hs
          exact h.moveWorker hold hrunning rfl rfl fun _ => nofun
        · rename_i hqueue
          obtain rfl := Option.some.inj hs
          exact h.pop hworker hqueue
    · cases hs
  · rename_i hworker
    obtain rfl := Option.some.inj hs
    exact h.moveWorker (by rw [hworker]; rfl) (by rw [hworker]; rfl) rfl rfl fun _ => nofun
  · cases hs
  · rename_i hworker
    obtain rfl := Option.some.inj hs
    have hfinished := h.finished
    rw [hworker] at hfinished
    have hlater : ∀ completion : Promise, completion.mark ≤ s.finished → completion.mark ≤ s.finished + 1 :=
      fun _ => Nat.le_succ_of_le
    exact {
      bytes := h.bytes
      messagesLe := h.messagesLe
      bytesLe := h.bytesLe
      droppedMessages := h.droppedMessages
      droppedBytes := h.droppedBytes
      order := fun _ => h.order (by rw [hworker]; rfl)
      finished := hfinished
      marked := h.marked
      completing := nofun
      completed := fun completion hmem => (h.completed completion hmem).imp id (hlater completion)
      returned := fun call completion heq => hlater completion (h.returned call completion heq)
      done := nofun }
  · rename_i completion hworker
    obtain rfl := Option.some.inj hs
    have hfinished := h.finished
    rw [hworker] at hfinished
    exact {
      bytes := h.bytes
      messagesLe := h.messagesLe
      bytesLe := h.bytesLe
      droppedMessages := h.droppedMessages
      droppedBytes := h.droppedBytes
      order := fun _ => h.order (by rw [hworker]; rfl)
      finished := hfinished
      marked := h.marked
      completing := nofun
      completed := fun other hmem => by
        obtain hmem | hmem := List.mem_append.mp hmem
        · exact h.completed other hmem
        · rw [List.mem_singleton.mp hmem]
          exact .inr (h.completing completion hworker)
      returned := h.returned
      done := nofun }
  · cases hs

theorem runCaller_accounts {call : ι} (h : s.Accounts limits) (hs : s.runCaller limits call = some s') :
    s'.Accounts limits := by
  unfold runCaller at hs
  split at hs
  · split at hs
    · obtain rfl := Option.some.inj hs
      exact h.move call nofun
    · cases hs
  · split at hs
    · obtain rfl := Option.some.inj hs
      exact h.move call nofun
    · cases hs
  · split at hs
    · split at hs
      · obtain rfl := Option.some.inj hs
        exact h.move call nofun
      · rename_i hstopping
        split at hs
        · obtain rfl := Option.some.inj hs
          exact h.push (eq_false_of_ne_true hstopping) call
        · obtain rfl := Option.some.inj hs
          exact h.move call nofun
    · cases hs
  · obtain rfl := Option.some.inj hs
    exact h.move call nofun
  · rename_i completion _
    split at hs
    · rename_i hmem
      obtain rfl := Option.some.inj hs
      refine h.move call fun other heq => ?_
      split at heq
      · cases heq
      · rename_i hstopping
        obtain rfl := Option.some.inj (CallerPc.returned.inj heq)
        exact (h.completed completion hmem).resolve_left hstopping
    · cases hs
  · cases hs
  · cases hs
  · cases hs
  · cases hs

omit [DecidableEq ι] [Fintype ι] in
theorem runShutdown_accounts (h : s.Accounts limits) (hs : s.runShutdown = some s') : s'.Accounts limits := by
  unfold runShutdown at hs
  split at hs
  · obtain rfl := Option.some.inj hs
    exact { h.moveShutdown .notifies with
      completed := fun _ _ => .inl rfl
      done := fun _ => rfl }
  · obtain rfl := Option.some.inj hs
    exact h.wakeAll.moveShutdown .joinsDispatch
  · split at hs
    · obtain rfl := Option.some.inj hs
      exact h.moveShutdown .joinsCallbacks
    · cases hs
  · split at hs
    · obtain rfl := Option.some.inj hs
      exact h.moveShutdown .returned
    · cases hs
  · cases hs
  · cases hs

theorem runAdmit_accounts {woken : Option (Waiter ι)} (h : s.Accounts limits)
    (hs : s.runAdmit limits woken = some s') : s'.Accounts limits := by
  unfold runAdmit at hs
  split at hs
  · rename_i signal _
    split at hs
    · split at hs
      · obtain rfl := Option.some.inj hs
        exact (h.drop signal).moveDispatch .loops
      · rename_i hrejects
        exact ((h.enqueue (eq_false_of_ne_true hrejects)).moveDispatch .loops).notifyOne hs
    · cases hs
  · cases hs

theorem step_accounts {action : Action ι κ α} (h : s.Accounts limits) (hs : s.step limits action = some s') :
    s'.Accounts limits := by
  cases action with
  | worker => exact runWorker_accounts h hs
  | enter woken => exact runAdmit_accounts h hs
  | drain call => exact runCaller_accounts h hs
  | stop => exact runShutdown_accounts h hs
  | loop | poll | receive | disconnect =>
    simp only [step] at hs
    split at hs
    · obtain rfl := Option.some.inj hs
      exact h.moveDispatch _
    · cases hs
  | call call =>
    simp only [step] at hs
    split at hs
    · obtain rfl := Option.some.inj hs
      exact h.move call nofun
    · obtain rfl := Option.some.inj hs
      exact h.move call nofun
    · cases hs
  | notify call woken =>
    simp only [step] at hs
    split at hs
    · rename_i completion _
      have hmoved : (s.move call (.awaits completion)).Accounts limits := h.move call nofun
      exact hmoved.notifyOne hs
    · cases hs
  | spurious waiter =>
    simp only [step] at hs
    split at hs
    · obtain rfl := Option.some.inj hs
      exact h.wake waiter
    · cases hs
  | shutdown =>
    simp only [step] at hs
    split at hs
    · obtain rfl := Option.some.inj hs
      exact h.moveShutdown .stores
    · cases hs

/-- What the queue accounts for, while the client is not stopped. -/
structure Sound (limits : SignalLimits) (s : Callbacks ι κ α) : Prop where
  bytes : s.queuedSignalBytes = ((signals s.queue).map (·.bytes)).sum
  messagesLe : (signals s.queue).length ≤ limits.maxSignalMessages
  bytesLe : s.queuedSignalBytes ≤ limits.maxSignalBytes
  -- With `queued` and `dropped`: a signal is queued whole, or counted once.
  droppedMessages : s.droppedSignalMessages = s.dropped.length
  droppedBytes : s.droppedSignalBytes = (s.dropped.map (·.bytes)).sum
  -- What was queued has been taken out in order, or is still there.
  order : s.handed ++ signals s.queue = s.queued
  -- Every callback that was taken out has returned, but for the one that runs.
  finished : s.finished + s.worker.running = s.handed.length
  -- The bytes of the front can be subtracted.
  front : ∀ entry queue, s.queue = .signal entry :: queue → entry.bytes ≤ s.queuedSignalBytes
  -- The callbacks before the marker have returned.
  drained : ∀ call completion, s.caller call = .returned (some completion) → completion.mark ≤ s.finished

theorem sound (h : Reaches (step limits) {} s) (hstopping : s.stopping = false) : s.Sound limits := by
  have haccounts : s.Accounts limits :=
    h.invariant (initial_accounts limits) fun hold _ hs => step_accounts hold hs
  have hdone : s.worker.isDone = false := by
    refine eq_false_of_ne_true fun hdone => ?_
    rw [haccounts.done hdone] at hstopping
    cases hstopping
  exact {
    bytes := haccounts.bytes
    messagesLe := haccounts.messagesLe
    bytesLe := haccounts.bytesLe
    droppedMessages := haccounts.droppedMessages
    droppedBytes := haccounts.droppedBytes
    order := haccounts.order hdone
    finished := haccounts.finished
    front := fun entry queue hqueue => by
      rw [haccounts.bytes, hqueue, signals, List.map_cons, List.sum_cons]
      exact Nat.le_add_right _ _
    drained := haccounts.returned }

/-- A signal for two callbacks, and one that is too large. -/
def small : Signal Bool Unit := ⟨[true, false], nofun, (), 10⟩

def large : Signal Bool Unit := ⟨[true], nofun, (), 100⟩

/-- The queue has room for three callbacks and thirty bytes; a call drains it. -/
def drains : List (Action Unit Bool Unit) :=
  [Action.loop, .receive small, .enter none, .loop, .receive large, .enter none, .call (), .drain (),
    .drain (), .drain (),
    .notify () none] ++ List.replicate 6 Action.worker ++ [Action.drain ()]

theorem sound_drained :
    ∃ s : Callbacks Unit Bool Unit, s.caller () = .returned (some ⟨0, 2⟩) ∧ s.finished = 2 ∧
      s.dropped.length = 1 ∧
      s.Sound ⟨3, 30⟩ :=
  have h : Reaches (step ⟨3, 30⟩) ({} : Callbacks Unit Bool Unit) _ := .of_isSome drains (by decide +kernel)
  ⟨_, by decide +kernel, by decide +kernel, by decide +kernel, sound h (by decide +kernel)⟩

end Callbacks
end Dmn.Dbus
