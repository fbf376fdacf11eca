import Dmn.Dbus.Accounting

/-!
# The end of the callbacks

`shutdown` sets `m_stopping` and notifies without `m_callbackMutex`, and the
dispatch worker may queue a signal when the callback worker has ended. Where
neither meets the other thread halfway, no thread is left waiting, and every
signal that was queued and not handed over is counted.
-/

namespace Dmn.Dbus

open Dmn.Lib

def WorkerPc.parked {κ α : Type} : WorkerPc κ α → Bool
  | .parks | .waits => true
  | _ => false

def CallerPc.parked : CallerPc → Bool
  | .parks | .waits => true
  | _ => false

/-- The promise that the call waits for, or is going to. -/
def CallerPc.promise : CallerPc → Option Promise
  | .notifies completion | .awaits completion => some completion
  | _ => none

/-- All have been notified. -/
def ShutdownPc.joining : ShutdownPc → Bool
  | .joinsDispatch | .joinsCallbacks | .returned => true
  | _ => false

def ShutdownPc.stored : ShutdownPc → Bool
  | .idle | .stores => false
  | _ => true

namespace Callbacks

variable {ι κ α : Type} [DecidableEq ι] [Fintype ι] {limits : SignalLimits} {s s' : Callbacks ι κ α}

/-- No thread can step. What the dispatch worker receives and whom a notification wakes are its
steps too; a call from outside and a spurious wake-up are not. -/
def Stuck (limits : SignalLimits) (s : Callbacks ι κ α) : Prop :=
  s.step limits .worker = none ∧ s.step limits .loop = none ∧ s.step limits .poll = none ∧
    (∀ signal, s.step limits (.receive signal) = none) ∧ s.step limits .disconnect = none ∧
    (∀ woken, s.step limits (.enter woken) = none) ∧ (∀ call, s.step limits (.drain call) = none) ∧
    (∀ call woken, s.step limits (.notify call woken) = none) ∧ s.step limits .stop = none

/-- `notify_all` of `shutdown` finds no thread between its predicate and the wait set, and no
signal is queued when the callback worker has ended. -/
def Orderly (limits : SignalLimits) (s : Callbacks ι κ α) : Action ι κ α → Prop
  | .stop => s.shutdown = .notifies → s.Unlocked
  | .enter _ => s.worker.isDone → ∀ signal, s.dispatch = .admits signal → s.rejects limits signal
  | _ => True

/-- The promise is kept, or it is going to be. -/
def Kept (s : Callbacks ι κ α) (completion : Promise) : Prop :=
  completion ∈ s.completed ∨ s.worker = .completes completion ∨ completion ∈ markers s.queue

structure Inv (s : Callbacks ι κ α) : Prop where
  stopping : s.stopping = s.shutdown.stored
  -- After the notification no thread waits.
  notified : s.shutdown.joining → s.worker.parked = false ∧ ∀ call, (s.caller call).parked = false
  dispatch : s.shutdown = .joinsCallbacks ∨ s.shutdown = .returned → s.dispatch = .done
  joined : s.shutdown = .returned → s.worker.isDone
  promised : ∀ call completion, (s.caller call).promise = some completion → s.Kept completion
  -- The callback worker has left nothing, and has counted what it discarded.
  emptied : s.worker.isDone → s.queue = []
  uncounted : s.worker.isDone = false →
    s.shutdownDiscardedSignalMessages = 0 ∧ s.shutdownDiscardedSignalBytes = 0
  counted : s.worker.isDone → ∃ rest, s.queued = s.handed ++ rest ∧
    s.shutdownDiscardedSignalMessages = rest.length ∧ s.shutdownDiscardedSignalBytes = (rest.map (·.bytes)).sum

omit [DecidableEq ι] [Fintype ι] in
theorem initial_inv : Inv ({} : Callbacks ι κ α) where
  stopping := rfl
  notified := nofun
  dispatch := nofun
  joined := nofun
  promised := nofun
  emptied := nofun
  uncounted _ := ⟨rfl, rfl⟩
  counted := nofun

omit [DecidableEq ι] [Fintype ι] in
/-- No thread goes to wait when `m_stopping` is set. -/
theorem Inv.not_joining (h : s.Inv) (hstopping : s.stopping = false) : s.shutdown.joining = false := by
  have hstored := h.stopping
  rw [hstopping] at hstored
  cases hshutdown : s.shutdown with
  | idle | stores | notifies => rfl
  | joinsDispatch | joinsCallbacks | returned =>
    rw [hshutdown] at hstored
    cases hstored

-- ---------------------------------------------------------------------------
-- Threads that move
-- ---------------------------------------------------------------------------

theorem WorkerPc.wake_parked {pc : WorkerPc κ α} (h : pc.parked = false) : pc.wake.parked = false := by
  cases pc <;> first | rfl | exact h

theorem CallerPc.wake_parked {pc : CallerPc} (h : pc.parked = false) : pc.wake.parked = false := by
  cases pc <;> first | rfl | exact h

theorem CallerPc.wake_promise (pc : CallerPc) : pc.wake.promise = pc.promise := by cases pc <;> rfl

theorem WorkerPc.completes_wake {pc : WorkerPc κ α} {completion : Promise} (h : pc = .completes completion) :
    pc.wake = .completes completion := by
  rw [h]
  rfl

omit [Fintype ι] in
theorem Inv.move (h : s.Inv) (call : ι) {pc : CallerPc} (hparked : s.shutdown.joining → pc.parked = false)
    (hpromise : ∀ completion, pc.promise = some completion → s.Kept completion) : (s.move call pc).Inv := by
  have hcaller : ∀ other, (s.move call pc).caller other = if other = call then pc else s.caller other :=
    fun other =>
    Function.update_apply ..
  exact {
    stopping := h.stopping
    notified := fun hjoining => by
      refine ⟨(h.notified hjoining).1, fun other => ?_⟩
      rw [hcaller]
      split
      · exact hparked hjoining
      · exact (h.notified hjoining).2 other
    dispatch := h.dispatch
    joined := h.joined
    promised := fun other completion heq => by
      rw [hcaller] at heq
      split at heq
      · exact hpromise completion heq
      · exact h.promised other completion heq
    emptied := h.emptied
    uncounted := h.uncounted
    counted := h.counted }

omit [DecidableEq ι] [Fintype ι] in
/-- The callback worker moves, and neither ends nor leaves a promise behind. -/
theorem Inv.moveWorker (h : s.Inv) {worker : WorkerPc κ α} (hold : s.worker.isDone = false)
    (hdone : worker.isDone = false)
    (hparked : s.shutdown.joining → worker.parked = false) (hkept : ∀ completion,
    s.worker ≠ .completes completion) :
    Inv { s with worker } where
  stopping := h.stopping
  notified hjoining := ⟨hparked hjoining, (h.notified hjoining).2⟩
  dispatch := h.dispatch
  joined hreturned := by
    have hjoined := h.joined hreturned
    rw [hold] at hjoined
    cases hjoined
  promised call completion heq :=
    (h.promised call completion heq).imp id fun hkept' => .inr (hkept'.resolve_left (hkept completion))
  emptied hisDone := by
    have hisDone' : worker.isDone = true := hisDone
    rw [hdone] at hisDone'
    cases hisDone'
  uncounted _ := h.uncounted hold
  counted hisDone := by
    have hisDone' : worker.isDone = true := hisDone
    rw [hdone] at hisDone'
    cases hisDone'

omit [DecidableEq ι] [Fintype ι] in
/-- Threads wake. -/
theorem Inv.wakes (h : s.Inv) {worker : WorkerPc κ α} {caller : ι → CallerPc}
    (hworker : worker = s.worker ∨ worker = s.worker.wake)
    (hcaller : ∀ call, caller call = s.caller call ∨ caller call = (s.caller call).wake) :
    Inv { s with worker, caller } := by
  have hdone : worker.isDone = s.worker.isDone := by
    obtain rfl | rfl := hworker
    · rfl
    · exact WorkerPc.wake_isDone _
  exact {
    stopping := h.stopping
    notified := fun hjoining => by
      obtain ⟨hworkerParked, hcallerParked⟩ := h.notified hjoining
      refine ⟨?_, fun call => ?_⟩
      · obtain rfl | rfl := hworker
        · exact hworkerParked
        · exact WorkerPc.wake_parked hworkerParked
      · show (caller call).parked = false
        obtain heq | heq := hcaller call
        · exact heq ▸ hcallerParked call
        · exact heq ▸ CallerPc.wake_parked (hcallerParked call)
    dispatch := h.dispatch
    joined := fun hreturned => hdone ▸ h.joined hreturned
    promised := fun call completion heq => by
      have hpromise : (s.caller call).promise = some completion := by
        obtain hsame | hwake := hcaller call
        · exact hsame ▸ heq
        · rw [← CallerPc.wake_promise, ← hwake]
          exact heq
      refine (h.promised call completion hpromise).imp id fun hkept => hkept.imp (fun hcompletes => ?_) id
      obtain rfl | rfl := hworker
      · exact hcompletes
      · exact WorkerPc.completes_wake hcompletes
    emptied := fun hisDone => h.emptied (hdone ▸ hisDone)
    uncounted := fun hnot => h.uncounted (hdone ▸ hnot)
    counted := fun hisDone => h.counted (hdone ▸ hisDone) }

omit [DecidableEq ι] [Fintype ι] in
theorem Inv.wakeAll (h : s.Inv) : s.wakeAll.Inv := h.wakes (.inr rfl) fun _ => .inr rfl

omit [Fintype ι] in
theorem Inv.wake (h : s.Inv) (waiter : Waiter ι) : (s.wake waiter).Inv := by
  cases waiter with
  | worker => exact h.wakes (.inr rfl) fun _ => .inl rfl
  | caller call =>
    refine h.wakes (.inl rfl) fun other => ?_
    rw [Function.update_apply]
    split
    · rename_i hsame
      exact .inr (hsame ▸ rfl)
    · exact .inl rfl

theorem Inv.notifyOne (h : s.Inv) {woken : Option (Waiter ι)} (hs : s.notifyOne woken = some s') : s'.Inv := by
  cases woken with
  | none =>
    simp only [Callbacks.notifyOne] at hs
    split at hs
    · obtain rfl := Option.some.inj hs
      exact h
    · cases hs
  | some waiter =>
    simp only [Callbacks.notifyOne] at hs
    split at hs
    · obtain rfl := Option.some.inj hs
      exact h.wake waiter
    · cases hs

omit [DecidableEq ι] [Fintype ι] in
/-- The dispatch worker moves. -/
theorem Inv.moveDispatch (h : s.Inv) {dispatch : DispatchPc κ α} (hold : s.dispatch ≠ .done) :
    Inv { s with dispatch } :=
  { h with dispatch := fun hshutdown => absurd (h.dispatch hshutdown) hold }

-- ---------------------------------------------------------------------------
-- Sections
-- ---------------------------------------------------------------------------

omit [DecidableEq ι] [Fintype ι] in
theorem Inv.discard (h : s.Inv) (ha : s.Accounts limits) (hworker : s.worker = .locks) : s.discard.Inv where
  stopping := h.stopping
  notified hjoining := ⟨rfl, (h.notified hjoining).2⟩
  dispatch := h.dispatch
  joined _ := rfl
  promised call completion heq := by
    refine .inl (List.mem_append.mpr ?_)
    obtain hcompleted | hcompletes | hmarker := h.promised call completion heq
    · exact .inl hcompleted
    · rw [hworker] at hcompletes
      cases hcompletes
    · exact .inr hmarker
  emptied _ := rfl
  uncounted := nofun
  counted _ := by
    have hnot : s.worker.isDone = false := by rw [hworker]; rfl
    obtain ⟨hmessages, hbytes⟩ := h.uncounted hnot
    refine ⟨signals s.queue, (ha.order hnot).symm, ?_, ?_⟩
    · show s.shutdownDiscardedSignalMessages + _ = _
      rw [hmessages, Nat.zero_add]
    · show s.shutdownDiscardedSignalBytes + _ = _
      rw [hbytes, Nat.zero_add, ha.bytes]

omit [DecidableEq ι] [Fintype ι] in
theorem Inv.pop (h : s.Inv) {signal : QueuedSignal κ α} {queue : List (QueuedSignal κ α)}
    (hworker : s.worker = .locks)
    (hqueue : s.queue = signal :: queue) : (s.pop queue signal).Inv := by
  have hwoken := h.wakeAll
  have hnot : s.worker.isDone = false := by rw [hworker]; rfl
  have hjoined : s.shutdown ≠ .returned := fun hreturned => by
    rw [h.joined hreturned] at hnot
    cases hnot
  cases signal with
  | signal entry =>
    exact {
      stopping := h.stopping
      notified := fun hjoining => ⟨rfl, (hwoken.notified hjoining).2⟩
      dispatch := h.dispatch
      joined := fun hreturned => absurd hreturned hjoined
      promised := fun call completion heq => by
        obtain hcompleted | hcompletes | hmarker := hwoken.promised call completion heq
        · exact .inl hcompleted
        · change s.worker.wake = _ at hcompletes
          rw [hworker] at hcompletes
          cases hcompletes
        · change completion ∈ markers s.queue at hmarker
          rw [hqueue] at hmarker
          exact .inr (.inr hmarker)
      emptied := nofun
      uncounted := fun _ => h.uncounted hnot
      counted := nofun }
  | marker next =>
    exact {
      stopping := h.stopping
      notified := fun hjoining => ⟨rfl, (hwoken.notified hjoining).2⟩
      dispatch := h.dispatch
      joined := fun hreturned => absurd hreturned hjoined
      promised := fun call completion heq => by
        obtain hcompleted | hcompletes | hmarker := hwoken.promised call completion heq
        · exact .inl hcompleted
        · change s.worker.wake = _ at hcompletes
          rw [hworker] at hcompletes
          cases hcompletes
        · change completion ∈ markers s.queue at hmarker
          rw [hqueue] at hmarker
          obtain rfl | hmarker := List.mem_cons.mp hmarker
          · exact .inr (.inl rfl)
          · exact .inr (.inr hmarker)
      emptied := nofun
      uncounted := fun _ => h.uncounted hnot
      counted := nofun }

omit [DecidableEq ι] [Fintype ι] in
/-- The callback worker completes a promise. -/
theorem Inv.complete (h : s.Inv) {completion : Promise} (hworker : s.worker = .completes completion) :
    Inv { s with worker := .locks, completed := s.completed ++ [completion] } where
  stopping := h.stopping
  notified hjoining := ⟨rfl, (h.notified hjoining).2⟩
  dispatch := h.dispatch
  joined hreturned := by
    have hjoined := h.joined hreturned
    rw [hworker] at hjoined
    cases hjoined
  promised call other heq := by
    obtain hcompleted | hcompletes | hmarker := h.promised call other heq
    · exact .inl (List.mem_append.mpr (.inl hcompleted))
    · rw [hworker] at hcompletes
      obtain rfl := WorkerPc.completes.inj hcompletes
      exact .inl (List.mem_append.mpr (.inr (.head _)))
    · exact .inr (.inr hmarker)
  emptied := nofun
  uncounted _ := h.uncounted (by rw [hworker]; rfl)
  counted := nofun

omit [Fintype ι] in
theorem Inv.push (h : s.Inv) (hdone : s.worker.isDone = false) (call : ι) : (s.push call).Inv := by
  have hkept : ∀ completion, s.Kept completion → (s.push call).Kept completion := fun completion hkept =>
    hkept.imp id fun hkept => hkept.imp id fun hmarker => by
      show completion ∈ markers (s.queue ++ [.marker _])
      rw [markers_append]
      exact List.mem_append.mpr (.inl hmarker)
  have hcaller : ∀ other, (s.push call).caller other =
      if other = call then .notifies ⟨s.nextPromise, s.queued.length⟩ else s.caller other := fun other =>
    Function.update_apply ..
  exact {
    stopping := h.stopping
    notified := fun hjoining => by
      refine ⟨(h.notified hjoining).1, fun other => ?_⟩
      rw [hcaller]
      split
      · rfl
      · exact (h.notified hjoining).2 other
    dispatch := h.dispatch
    joined := h.joined
    promised := fun other completion heq => by
      rw [hcaller] at heq
      split at heq
      · obtain rfl := Option.some.inj heq
        refine .inr (.inr ?_)
        show _ ∈ markers (s.queue ++ [.marker _])
        rw [markers_append]
        exact List.mem_append.mpr (.inr (.head _))
      · exact hkept completion (h.promised other completion heq)
    emptied := fun hisDone => by
      have hisDone' : s.worker.isDone = true := hisDone
      rw [hdone] at hisDone'
      cases hisDone'
    uncounted := h.uncounted
    counted := fun hisDone => by
      have hisDone' : s.worker.isDone = true := hisDone
      rw [hdone] at hisDone'
      cases hisDone' }

omit [DecidableEq ι] [Fintype ι] in
theorem Inv.drop (h : s.Inv) (signal : Signal κ α) : (s.drop signal).Inv :=
  { h with
    counted := fun hisDone => by
      obtain ⟨rest, hqueued, hcounts⟩ := h.counted hisDone
      exact ⟨rest, (queued_append s signal false).trans ((List.append_nil _).trans hqueued), hcounts⟩ }

omit [DecidableEq ι] [Fintype ι] in
theorem Inv.enqueue (h : s.Inv) (hdone : s.worker.isDone = false) (signal : Signal κ α) :
    (s.enqueue signal).Inv :=
  { h with
    promised := fun call completion heq =>
      (h.promised call completion heq).imp id fun hkept => hkept.imp id fun hmarker => by
        show completion ∈ markers (s.queue ++ _)
        rw [markers_append]
        exact List.mem_append.mpr (.inl hmarker)
    emptied := fun hisDone => by
      have hisDone' : s.worker.isDone = true := hisDone
      rw [hdone] at hisDone'
      cases hisDone'
    counted := fun hisDone => by
      have hisDone' : s.worker.isDone = true := hisDone
      rw [hdone] at hisDone'
      cases hisDone' }

-- ---------------------------------------------------------------------------
-- Steps
-- ---------------------------------------------------------------------------

omit [DecidableEq ι] in
theorem runWorker_inv (h : s.Inv) (ha : s.Accounts limits) (hs : s.runWorker = some s') : s'.Inv := by
  unfold runWorker at hs
  split at hs
  · rename_i hworker
    split at hs
    · split at hs
      · obtain rfl := Option.some.inj hs
        exact h.discard ha hworker
      · rename_i hstopping
        have hjoining := h.not_joining (eq_false_of_ne_true hstopping)
        split at hs
        · obtain rfl := Option.some.inj hs
          refine h.moveWorker (by rw [hworker]; rfl) rfl (fun hjoining' => ?_) (by
            rw [hworker]; exact fun _ => nofun)
          rw [hjoining] at hjoining'
          cases hjoining'
        · rename_i hqueue
          obtain rfl := Option.some.inj hs
          exact h.pop hworker hqueue
    · cases hs
  · rename_i hworker
    obtain rfl := Option.some.inj hs
    refine h.moveWorker (by rw [hworker]; rfl) rfl (fun hjoining => ?_) (by rw [hworker]; exact fun _ => nofun)
    have hparked := (h.notified hjoining).1
    rw [hworker] at hparked
    cases hparked
  · cases hs
  · rename_i hworker
    obtain rfl := Option.some.inj hs
    have hmoved : Inv { s with worker := .locks } :=
      h.moveWorker (by rw [hworker]; rfl) rfl (fun _ => rfl) (by rw [hworker]; exact fun _ => nofun)
    exact { hmoved with }
  · rename_i hworker
    obtain rfl := Option.some.inj hs
    exact h.complete hworker
  · cases hs

theorem runCaller_inv {call : ι} (h : s.Inv) (ha : s.Accounts limits) (hs : s.runCaller limits call = some s') :
    s'.Inv := by
  unfold runCaller at hs
  split at hs
  · split at hs
    · obtain rfl := Option.some.inj hs
      exact h.move call (fun _ => rfl) nofun
    · cases hs
  · split at hs
    · obtain rfl := Option.some.inj hs
      exact h.move call (fun _ => rfl) nofun
    · cases hs
  · split at hs
    · split at hs
      · obtain rfl := Option.some.inj hs
        exact h.move call (fun _ => rfl) nofun
      · rename_i hstopping
        split at hs
        · obtain rfl := Option.some.inj hs
          exact h.push (eq_false_of_ne_true fun hdone => hstopping (ha.done hdone)) call
        · obtain rfl := Option.some.inj hs
          refine h.move call (fun hjoining => ?_) nofun
          rw [h.not_joining (eq_false_of_ne_true hstopping)] at hjoining
          cases hjoining
    · cases hs
  · rename_i hcaller
    obtain rfl := Option.some.inj hs
    refine h.move call (fun hjoining => ?_) nofun
    have hparked := (h.notified hjoining).2 call
    rw [hcaller] at hparked
    cases hparked
  · split at hs
    · obtain rfl := Option.some.inj hs
      exact h.move call (fun _ => rfl) nofun
    · cases hs
  · cases hs
  · cases hs
  · cases hs
  · cases hs

omit [DecidableEq ι] [Fintype ι] in
theorem runShutdown_inv (h : s.Inv) (horderly : s.shutdown = .notifies → s.Unlocked)
    (hs : s.runShutdown = some s') : s'.Inv := by
  unfold runShutdown at hs
  split at hs
  · obtain rfl := Option.some.inj hs
    exact { h with
      stopping := rfl
      notified := nofun
      dispatch := nofun
      joined := nofun }
  · rename_i hshutdown
    obtain rfl := Option.some.inj hs
    obtain ⟨hworker, hcallers⟩ := horderly hshutdown
    have hstopping := h.stopping
    rw [hshutdown] at hstopping
    exact { h.wakeAll with
      stopping := hstopping
      notified := fun _ => by
        refine ⟨?_, fun call => ?_⟩
        · show s.worker.wake.parked = false
          cases hpc : s.worker <;> first | rfl | (rw [hpc] at hworker; cases hworker)
        · show (s.caller call).wake.parked = false
          have hcaller := hcallers call
          cases hpc : s.caller call <;> first | rfl | exact absurd hpc hcaller
      dispatch := nofun
      joined := nofun }
  · rename_i hshutdown
    split at hs
    · rename_i hdispatch
      obtain rfl := Option.some.inj hs
      have hstopping := h.stopping
      rw [hshutdown] at hstopping
      exact { h with
        stopping := hstopping
        notified := fun _ => h.notified (by rw [hshutdown]; rfl)
        dispatch := fun _ => hdispatch
        joined := nofun }
    · cases hs
  · rename_i hshutdown
    split at hs
    · rename_i hdone
      obtain rfl := Option.some.inj hs
      have hstopping := h.stopping
      rw [hshutdown] at hstopping
      exact { h with
        stopping := hstopping
        notified := fun _ => h.notified (by rw [hshutdown]; rfl)
        dispatch := fun _ => h.dispatch (.inl hshutdown)
        joined := fun _ => hdone }
    · cases hs
  · cases hs
  · cases hs

theorem runAdmit_inv {woken : Option (Waiter ι)} (h : s.Inv) (horderly : s.Orderly limits (.enter woken))
    (hs : s.runAdmit limits woken = some s') : s'.Inv := by
  unfold runAdmit at hs
  split at hs
  · rename_i signal hdispatch
    split at hs
    · split at hs
      · obtain rfl := Option.some.inj hs
        exact (h.drop signal).moveDispatch (by rw [Callbacks.drop, hdispatch]; rintro ⟨⟩)
      · rename_i hrejects
        have hdone := eq_false_of_ne_true fun hdone => hrejects (horderly hdone signal hdispatch)
        refine ((h.enqueue hdone signal).moveDispatch ?_).notifyOne hs
        rw [Callbacks.enqueue, hdispatch]
        rintro ⟨⟩
    · cases hs
  · cases hs

theorem step_inv {action : Action ι κ α} (h : s.Inv) (ha : s.Accounts limits)
    (horderly : s.Orderly limits action)
    (hs : s.step limits action = some s') : s'.Inv := by
  cases action with
  | worker => exact runWorker_inv h ha hs
  | enter woken => exact runAdmit_inv h horderly hs
  | drain call => exact runCaller_inv h ha hs
  | stop => exact runShutdown_inv h horderly hs
  | loop | poll | receive | disconnect =>
    simp only [step] at hs
    split at hs
    · rename_i hdispatch
      obtain rfl := Option.some.inj hs
      exact h.moveDispatch (by rw [hdispatch]; rintro ⟨⟩)
    · cases hs
  | call call =>
    simp only [step] at hs
    split at hs
    · obtain rfl := Option.some.inj hs
      exact h.move call (fun _ => rfl) (by rintro _ ⟨⟩)
    · obtain rfl := Option.some.inj hs
      exact h.move call (fun _ => rfl) (by rintro _ ⟨⟩)
    · cases hs
  | notify call woken =>
    simp only [step] at hs
    split at hs
    · rename_i completion hcaller
      have hmoved : (s.move call (.awaits completion)).Inv :=
        h.move call (fun _ => rfl) fun other heq => h.promised call other (by rw [hcaller]; exact heq)
      exact hmoved.notifyOne hs
    · cases hs
  | spurious waiter =>
    simp only [step] at hs
    split at hs
    · obtain rfl := Option.some.inj hs
      exact h.wake waiter
    · cases hs
  | shutdown =>
    simp only [step] at hs
    split at hs
    · rename_i hshutdown
      obtain rfl := Option.some.inj hs
      have hstopping := h.stopping
      rw [hshutdown] at hstopping
      exact { h with
        stopping := hstopping
        notified := by rintro ⟨⟩
        dispatch := by simp
        joined := (by rintro ⟨⟩) }
    · cases hs

-- ---------------------------------------------------------------------------
-- Where no thread can step
-- ---------------------------------------------------------------------------

/-- `notify_one` can always be done. -/
theorem notifyOne_total (s : Callbacks ι κ α) : ∃ woken, s.notifyOne woken ≠ none := by
  by_cases hnone : s.worker.waiting = false ∧ ∀ call, s.caller call ≠ .waits
  · exact ⟨none, by rw [notifyOne, if_pos hnone]; rintro ⟨⟩⟩
  · obtain hworker | hcaller := not_and_or.mp hnone
    · have hwaiting : s.isWaiting .worker := eq_true_of_ne_false hworker
      exact ⟨some .worker, by rw [notifyOne, if_pos hwaiting]; rintro ⟨⟩⟩
    · obtain ⟨call, hcall⟩ := not_forall.mp hcaller
      have hwaiting : s.isWaiting (.caller call) := decide_eq_true (not_not.mp hcall)
      exact ⟨some (.caller call), by rw [notifyOne, if_pos hwaiting]; rintro ⟨⟩⟩

/-- A thread has the mutex only on its way into the wait set. -/
theorem Stuck.unlocked (h : s.Stuck limits) : s.Unlocked := by
  constructor
  · cases hworker : s.worker with
    | parks =>
      have hstep := h.1
      rw [step, runWorker, hworker] at hstep
      cases hstep
    | _ => rfl
  · intro call hcaller
    have hstep := h.2.2.2.2.2.2.1 call
    rw [step, runCaller, hcaller] at hstep
    cases hstep

theorem Stuck.dispatch (h : s.Stuck limits) : s.dispatch = .done := by
  obtain ⟨-, hloop, hpoll, -, -, hadmit, -⟩ := id h
  cases hdispatch : s.dispatch with
  | loops =>
    rw [step, hdispatch] at hloop
    cases hloop
  | dispatches =>
    rw [step, hdispatch] at hpoll
    cases hpoll
  | admits signal =>
    by_cases hrejects : s.rejects limits signal
    · have hstep := hadmit none
      simp only [step, runAdmit, hdispatch, if_pos h.unlocked, if_pos hrejects] at hstep
      cases hstep
    · obtain ⟨woken, hwoken⟩ := notifyOne_total { s.enqueue signal with dispatch := .loops }
      have hstep := hadmit woken
      simp only [step, runAdmit, hdispatch, if_pos h.unlocked, if_neg hrejects] at hstep
      exact absurd hstep hwoken
  | done => rfl

theorem Stuck.worker (h : s.Stuck limits) : s.worker = .waits ∨ s.worker = .done := by
  have hstep := h.1
  rw [step, runWorker] at hstep
  cases hworker : s.worker with
  | locks =>
    rw [hworker] at hstep
    dsimp only at hstep
    rw [if_pos h.unlocked] at hstep
    split at hstep
    · cases hstep
    · split at hstep <;> cases hstep
  | parks | runs | completes =>
    rw [hworker] at hstep
    cases hstep
  | waits => exact .inl rfl
  | done => exact .inr rfl

/-- `shutdown` waits for the callback worker, or it has returned. -/
theorem Stuck.shutdown (h : s.Stuck limits) (hstored : s.shutdown.stored) :
    s.shutdown = .returned ∨ s.shutdown = .joinsCallbacks ∧ s.worker.isDone = false := by
  have hstep := h.2.2.2.2.2.2.2.2
  rw [step, runShutdown] at hstep
  cases hshutdown : s.shutdown with
  | idle | stores =>
    rw [hshutdown] at hstored
    cases hstored
  | notifies =>
    rw [hshutdown] at hstep
    cases hstep
  | joinsDispatch =>
    rw [hshutdown, h.dispatch] at hstep
    cases hstep
  | joinsCallbacks =>
    rw [hshutdown] at hstep
    dsimp only at hstep
    split at hstep
    · cases hstep
    · rename_i hdone
      exact .inr ⟨rfl, eq_false_of_ne_true hdone⟩
  | returned => exact .inl rfl

/-- Every call of `drainSignalCallbacks` has returned, or waits for a promise or the condition. -/
theorem Stuck.caller (h : s.Stuck limits) (hdraining : ∀ call, (s.caller call).parked = false)
    (hpromise : ∀ call completion, s.caller call = .awaits completion → completion ∈ s.completed) (call : ι) :
    s.caller call = .idle ∨ ∃ drained, s.caller call = .returned drained := by
  have hstep : ∀ call, s.runCaller limits call = none := h.2.2.2.2.2.2.1
  have hreleased : ∀ call, (s.caller call).draining = false := by
    intro call
    cases hcaller : s.caller call with
    | idle | calls | wants | returned => rfl
    | parks | waits =>
      have hparked := hdraining call
      rw [hcaller] at hparked
      cases hparked
    | locks =>
      have hcall := hstep call
      rw [runCaller, hcaller] at hcall
      dsimp only at hcall
      rw [if_pos h.unlocked] at hcall
      split at hcall
      · cases hcall
      · split at hcall <;> cases hcall
    | notifies completion =>
      obtain ⟨woken, hwoken⟩ := notifyOne_total (s.move call (.awaits completion))
      have hcall := h.2.2.2.2.2.2.2.1 call woken
      rw [step, hcaller] at hcall
      exact absurd hcall hwoken
    | awaits completion =>
      have hcall := hstep call
      rw [runCaller, hcaller] at hcall
      dsimp only at hcall
      rw [if_pos (hpromise call completion hcaller)] at hcall
      cases hcall
  have hcall := hstep call
  rw [runCaller] at hcall
  cases hcaller : s.caller call with
  | idle => exact .inl rfl
  | returned drained => exact .inr ⟨drained, rfl⟩
  | calls =>
    rw [hcaller] at hcall
    dsimp only at hcall
    rw [if_pos h.unlocked] at hcall
    cases hcall
  | wants =>
    rw [hcaller] at hcall
    dsimp only at hcall
    rw [if_pos hreleased] at hcall
    cases hcall
  | locks | parks | waits | notifies | awaits =>
    have hnot := hreleased call
    rw [hcaller] at hnot
    cases hnot

/-- Once `m_stopping` is set all threads come to their end, and what was queued and not handed over
is counted. -/
theorem shutdown_finishes (h : ReachesBy (step limits) (Orderly limits) {} s) :
    (s.stopping → s.Stuck limits → s.worker = .done ∧ s.shutdown = .returned ∧
      ∀ call, s.caller call = .idle ∨ ∃ drained, s.caller call = .returned drained) ∧
      (s.shutdown = .returned → ∃ rest, s.queued = s.handed ++ rest ∧
        s.shutdownDiscardedSignalMessages = rest.length ∧
        s.shutdownDiscardedSignalBytes = (rest.map (·.bytes)).sum) := by
  obtain ⟨-, hinv⟩ : s.Accounts limits ∧ s.Inv :=
    h.invariant (I := fun d => d.Accounts limits ∧ d.Inv) ⟨initial_accounts limits, initial_inv⟩
      fun hold horderly hs => ⟨step_accounts hold.1 hs, step_inv hold.2 hold.1 horderly hs⟩
  refine ⟨fun hstopping hstuck => ?_, fun hreturned => hinv.counted (hinv.joined hreturned)⟩
  have hshutdown := hstuck.shutdown (hinv.stopping ▸ hstopping)
  have hjoining : s.shutdown.joining := by
    obtain heq | ⟨heq, -⟩ := hshutdown <;> rw [heq] <;> rfl
  obtain ⟨hworkerParked, hcallerParked⟩ := hinv.notified hjoining
  have hworker : s.worker = .done := hstuck.worker.resolve_left fun heq => by
    rw [heq] at hworkerParked
    cases hworkerParked
  have hdone : s.worker.isDone := by rw [hworker]; rfl
  refine ⟨hworker, hshutdown.resolve_right fun hjoins => ?_,
    hstuck.caller hcallerParked fun call completion hawaits => ?_⟩
  · rw [hdone] at hjoins
    cases hjoins.2
  · obtain hcompleted | hcompletes | hmarker := hinv.promised call completion (by rw [hawaits]; rfl)
    · exact hcompleted
    · rw [hworker] at hcompletes
      cases hcompletes
    · rw [hinv.emptied hdone] at hmarker
      cases hmarker

/-- The threads have ended, and nobody has called. -/
theorem stuck_ended (hworker : s.worker.isDone) (hdispatch : s.dispatch matches .done)
    (hshutdown : s.shutdown matches .returned) (hidle : ∀ call, s.caller call matches .idle) :
    s.Stuck limits := by
  replace hworker : s.worker = .done := by
    revert hworker
    cases s.worker <;> simp [WorkerPc.isDone]
  replace hdispatch : s.dispatch = .done := by
    revert hdispatch
    cases s.dispatch <;> simp
  replace hshutdown : s.shutdown = .returned := by
    revert hshutdown
    cases s.shutdown <;> simp
  replace hidle : ∀ call, s.caller call = .idle := fun call => by
    have h := hidle call
    revert h
    cases s.caller call <;> simp
  refine ⟨?_, ?_, ?_, fun _ => ?_, ?_, fun _ => ?_, fun call => ?_, fun call _ => ?_, ?_⟩
  all_goals simp only [step, runWorker, runAdmit, runCaller, runShutdown, hworker, hdispatch, hshutdown, hidle]

/-- A signal is queued, and the client is stopped before the callback worker looks at it. -/
def discards : List (Action Unit Bool Unit) :=
  [.loop, .receive small, .enter none, .shutdown, .stop, .stop, .loop, .stop, .worker, .stop]

instance (limits : SignalLimits) (s : Callbacks ι κ α) : ∀ action, Decidable (s.Orderly limits action)
  | .stop => inferInstanceAs (Decidable (s.shutdown = .notifies → s.Unlocked))
  | .enter _ =>
    match hdispatch : s.dispatch with
    | .admits signal =>
      decidable_of_iff (s.worker.isDone → s.rejects limits signal) <| by
        constructor
        · intro h hdone other hother
          obtain rfl := DispatchPc.admits.inj (hdispatch.symm.trans hother)
          exact h hdone
        · exact fun h hdone => h hdone signal hdispatch
    | .loops | .dispatches | .done => isTrue fun _ signal hother => by
        rw [hdispatch] at hother
        cases hother
  | .worker | .loop | .poll | .receive _ | .disconnect | .call _ | .drain _ | .notify ..
  | .spurious _ | .shutdown =>
    instDecidableTrue

theorem shutdown_finishes_discarded :
    ∃ s : Callbacks Unit Bool Unit, s.shutdownDiscardedSignalMessages = 2 ∧ s.worker = .done ∧
      s.shutdown = .returned ∧
      ∃ rest, s.queued = s.handed ++ rest ∧ s.shutdownDiscardedSignalMessages = rest.length ∧
        s.shutdownDiscardedSignalBytes = (rest.map (·.bytes)).sum :=
  have h : ReachesBy (step {}) (Orderly {}) ({} : Callbacks Unit Bool Unit) _ :=
    .of_isSome_by discards (by decide +kernel)
  have hended := (shutdown_finishes h).1 (by decide +kernel)
    (stuck_ended (by decide +kernel) (by decide +kernel) (by decide +kernel) (by decide +kernel))
  ⟨_, by decide +kernel, hended.1, hended.2.1, (shutdown_finishes h).2 (by decide +kernel)⟩
/-- `m_stopping` is set and notified while the callback worker is on its way into the wait set. -/
def missed : Callbacks Unit Bool Unit :=
  { stopping := true, worker := .waits, dispatch := .done, shutdown := .joinsCallbacks }

/-- A signal is queued when the callback worker has ended. -/
def uncounted : Callbacks Unit Bool Unit :=
  Callbacks.enqueue { stopping := true, worker := .done, dispatch := .done, shutdown := .returned } small

/-- The callback worker waits for ever, or two callbacks are neither run nor counted. -/
theorem shutdown_hangs_or_loses :
    (Reaches (step {}) {} missed ∧ missed.stopping ∧ missed.Stuck {} ∧ missed.worker = .waits) ∧
      Reaches (step {}) {} uncounted ∧ uncounted.shutdown = .returned ∧ uncounted.queued.length = 2 ∧
        uncounted.handed = [] ∧ uncounted.shutdownDiscardedSignalMessages = 0 := by
  have hmissed : exec (step {}) {} [.worker, .shutdown, .stop, .stop, .worker, .loop, .stop] =
    some missed := rfl
  have huncounted : exec (step {}) {}
      [.loop, .receive small, .shutdown, .stop, .stop, .worker, .enter none, .loop, .stop, .stop] =
        some uncounted := rfl
  refine ⟨⟨.of_exec hmissed, rfl, ?_, rfl⟩, .of_exec huncounted, rfl, rfl, rfl, rfl⟩
  exact ⟨rfl, rfl, rfl, fun _ => rfl, rfl, fun _ => rfl, fun _ => rfl, fun _ _ => rfl, rfl⟩

end Callbacks
end Dmn.Dbus
