import Dmn.Ancs.Client.Update
import Dmn.Ancs.Client.Scheduler

/-!
# Acknowledgements of Control Point writes

A result carries no more than the uid of its job. When a response has completed a request before
its result is processed, and the uid is requested again, the result is taken for that of the new
request.
-/

namespace Dmn.Ancs.Client

open Dmn.Lib

/-- The client, and the writes that have completed. -/
structure Watched where
  client : Client := {}
  -- History: the requests whose own write has returned without an error.
  written : List Nat := []

/-- The request whose write a step completes. -/
def completes (c : Client) : Action → Option Nat
  | .writer outcome =>
    match c.writer, outcome.error with
    | .writes job, none => some job.number
    | _, _ => none
  | _ => none

def Watched.step (w : Watched) (action : Action) : Option Watched :=
  (w.client.step action).map fun c =>
    { client := c, written := (w.client.completes action).toList ++ w.written }

-- ---------------------------------------------------------------------------
-- Writes on their way
-- ---------------------------------------------------------------------------

/-- What the worker has in hand, by uid and number of its request. -/
def WorkerPc.inHand : WorkerPc → List (UInt32 × Nat)
  | .queues job => [(job.uid, job.number)]
  | .picked (.result result) | .works (.result result) => [(result.uid, result.number)]
  | _ => []

def WriterPc.inHand : WriterPc → List (UInt32 × Nat)
  | .has job | .writes job => [(job.uid, job.number)]
  | .publishes result => [(result.uid, result.number)]
  | _ => []

/-- The jobs and results that are there. -/
def outstanding (c : Client) : List (UInt32 × Nat) :=
  c.worker.inHand ++ c.controlPointJobs.map (fun job => (job.uid, job.number)) ++ c.writer.inHand ++
    c.controlPointResults.map fun result => (result.uid, result.number)

def WorkerPc.finished : WorkerPc → List ControlPointResult
  | .picked (.result result) | .works (.result result) => [result]
  | _ => []

def WriterPc.finished : WriterPc → List ControlPointResult
  | .publishes result => [result]
  | _ => []

def finished (c : Client) : List ControlPointResult :=
  c.worker.finished ++ c.writer.finished ++ c.controlPointResults

/-- A request that is started has no namesake whose job or result is still there. -/
def Separate (c : Client) : Action → Prop
  | .worker _ =>
    match c.worker, c.activeRequest, c.pendingRequests with
    | .next, none, uid :: _ => c.ready = true → ∀ write ∈ c.outstanding, write.1 ≠ uid
    | _, _, _ => True
  | _ => True

instance (c : Client) (action : Action) : Decidable (c.Separate action) :=
  match action with
  | .worker _ =>
    have : Decidable (match c.worker, c.activeRequest, c.pendingRequests with
        | .next, none, uid :: _ => c.ready = true → ∀ write ∈ c.outstanding, write.1 ≠ uid
        | _, _, _ => True) :=
      match c.worker, c.activeRequest, c.pendingRequests with
      | .next, none, uid :: _ =>
        (inferInstance : Decidable (c.ready = true → ∀ write ∈ c.outstanding, write.1 ≠ uid))
      | .next, none, [] | .next, some _, _ | .off, _, _ | .waits, _, _ | .picked _, _, _ | .works _, _, _
      | .notification _, _, _ | .dataSource _, _, _ | .record _ _, _, _ | .unavailable _ _ _, _, _
      | .enqueue _ _, _, _ | .complete, _, _ | .timedOut, _, _ | .fail _, _, _ | .cleanup _, _, _
      | .report _, _, _ | .queues _, _, _ =>
        isTrue trivial
    this
  | .start _ _ | .callStop | .stop | .api _ | .writer _ | .gattEvent _ _ | .tick => isTrue trivial

variable {c c' : Client} {outcome : Outcome} {written written' : List Nat}

theorem WorkerPc.numbers_eq (worker : WorkerPc) : worker.numbers = worker.inHand.map (·.2) := by
  cases worker with
  | picked item | works item => cases item <;> rfl
  | _ => rfl

theorem WriterPc.numbers_eq (writer : WriterPc) : writer.numbers = writer.inHand.map (·.2) := by
  cases writer <;> rfl

theorem writes_eq (c : Client) : c.writes = c.outstanding.map (·.2) := by
  simp [writes, outstanding, WorkerPc.numbers_eq, WriterPc.numbers_eq, Function.comp_def]

theorem inHand_of_numbers {worker : WorkerPc} (h : worker.numbers = []) : worker.inHand = [] := by
  rw [WorkerPc.numbers_eq] at h
  exact List.map_eq_nil_iff.mp h

theorem finished_of_numbers {worker : WorkerPc} (h : worker.numbers = []) : worker.finished = [] := by
  cases worker with
  | picked item | works item => cases item <;> first | rfl | cases h
  | _ => rfl

-- ---------------------------------------------------------------------------
-- Steps that start and acknowledge nothing
-- ---------------------------------------------------------------------------

/-- The active request is the same in all that is about its write. -/
def SameActive (c c' : Client) : Prop :=
  ∀ active', c'.activeRequest = some active' → ∃ active, c.activeRequest = some active ∧
    active'.notification.uid = active.notification.uid ∧ active'.number = active.number ∧
    active'.writePending = active.writePending ∧ active'.deadline = active.deadline

theorem SameActive.of_eq (h : c'.activeRequest = c.activeRequest) : c.SameActive c' :=
  fun active hactive => ⟨active, h ▸ hactive, rfl, rfl, rfl, rfl⟩

theorem SameActive.of_none (h : c'.activeRequest = none) : c.SameActive c' :=
  fun active hactive => by rw [h] at hactive; cases hactive

structure Fewer (c c' : Client) : Prop where
  active : c.SameActive c'
  outstanding : c'.outstanding ⊆ c.outstanding
  finished : c'.finished ⊆ c.finished

theorem Fewer.of_eq (active : c'.activeRequest = c.activeRequest) (worker : c'.worker = c.worker)
    (jobs : c'.controlPointJobs = c.controlPointJobs) (writer : c'.writer = c.writer)
    (results : c'.controlPointResults = c.controlPointResults) : c.Fewer c' where
  active := .of_eq active
  outstanding := by
    rw [Client.outstanding, worker, jobs, writer, results]
    exact List.Subset.refl _
  finished := by
    rw [Client.finished, worker, writer, results]
    exact List.Subset.refl _

theorem Untouched.goes (h : c.Untouched c') (worker : WorkerPc) : c.Untouched { c' with worker } :=
  ⟨h.requests, h.jobs, h.writer, h.results⟩

/-- The worker has come to a place at which it has no write in hand. -/
theorem Fewer.goes (untouched : c.Untouched c') (active : c.SameActive c') (numbers : c'.worker.numbers = []) :
    c.Fewer c' where
  active := active
  outstanding := by
    simp only [Client.outstanding, untouched.jobs, untouched.writer, untouched.results,
      inHand_of_numbers numbers,
      List.nil_append]
    intro write h
    simp only [List.mem_append] at h ⊢
    tauto
  finished := by
    simp only [Client.finished, untouched.writer, untouched.results, finished_of_numbers numbers,
      List.nil_append]
    intro result h
    simp only [List.mem_append] at h ⊢
    tauto

theorem Fewer.passes {worker : WorkerPc} (numbers : worker.numbers = []) : c.Fewer { c with worker } :=
  .goes ⟨rfl, rfl, rfl, rfl⟩ (.of_eq rfl) numbers

theorem Fewer.governed (governs : c.Governs c') (active : c.SameActive c') : c.Fewer c' where
  active := active
  outstanding := by
    intro write h
    simp only [Client.outstanding, List.mem_append] at h ⊢
    rcases h with ((h | h) | h) | h
    · rcases governs.worker with same | waits
      · exact .inl (.inl (.inl (same ▸ h)))
      · rw [waits] at h; cases h
    · rcases governs.jobs with same | none
      · exact .inl (.inl (.inr (same ▸ h)))
      · rw [none] at h; cases h
    · rcases governs.writer with same | waits
      · exact .inl (.inr (same ▸ h))
      · rw [waits] at h; cases h
    · rcases governs.results with same | none
      · exact .inr (same ▸ h)
      · rw [none] at h; cases h
  finished := by
    intro result h
    simp only [Client.finished, List.mem_append] at h ⊢
    rcases h with (h | h) | h
    · rcases governs.worker with same | waits
      · exact .inl (.inl (same ▸ h))
      · rw [waits] at h; cases h
    · rcases governs.writer with same | waits
      · exact .inl (.inr (same ▸ h))
      · rw [waits] at h; cases h
    · rcases governs.results with same | none
      · exact .inr (same ▸ h)
      · rw [none] at h; cases h

/-- `start` and `stop` leave the active request alone, or the session is over. -/
theorem runApi_active (hs : c.runApi outcome = some c') :
    c'.activeRequest = c.activeRequest ∨ c'.activeRequest = none := by
  cases hapi : c.api with
  | idle =>
    simp only [Client.runApi, hapi] at hs
    cases hs
  | execWorker | execControlPointWorker =>
    simp only [Client.runApi, hapi] at hs
    obtain rfl := Option.some.inj hs
    split
    · exact .inl rfl
    · split <;> exact .inl rfl
  | starting | resolvingServices | discoveringANCS | subscribingDataSource
  | subscribingNotificationSource | ready | failed | stopping | stopped | cleanupError error | stopFailed
  | waitForServicesResolved | startNotifyData | startNotifyNotification | resolved | dataSubscribed
  | notificationSubscribed | controlPoint id | dataSubscription | notificationSubscription
  | failCleanup error | shutdown =>
    simp only [Client.runApi, hapi] at hs
    obtain rfl := Option.some.inj hs
    exact .inl rfl
  | discover =>
    simp only [Client.runApi, hapi] at hs
    split at hs
    · cases hs
    · obtain rfl := Option.some.inj hs
      split <;> exact .inl rfl
  | failStartup error | clear | clearAgain =>
    simp only [Client.runApi, hapi] at hs
    obtain rfl := Option.some.inj hs
    exact .inr rfl
  | stop =>
    simp only [Client.runApi, hapi] at hs
    obtain rfl := Option.some.inj hs
    split <;> exact .inl rfl
  | lockWork | stopSubscriptions =>
    simp only [Client.runApi, hapi] at hs
    split at hs
    · cases hs
    · obtain rfl := Option.some.inj hs
      exact .inl rfl
  | waitWorker | waitControlPointWorker =>
    simp only [Client.runApi, hapi] at hs
    split at hs
    · split at hs
      · obtain rfl := Option.some.inj hs
        exact .inl rfl
      · cases hs
    · obtain rfl := Option.some.inj hs
      exact .inl rfl

-- ---------------------------------------------------------------------------
-- Invariant
-- ---------------------------------------------------------------------------

structure Owned (c : Client) (written : List Nat) : Prop where
  -- What is there for the uid of the active request is its own.
  own : ∀ active, c.activeRequest = some active → ∀ write ∈ c.outstanding,
    write.1 = active.notification.uid → write.2 = active.number
  done : ∀ result ∈ c.finished, result.error = none → result.number ∈ written
  acknowledged : ∀ active, c.activeRequest = some active → active.writePending = false →
    active.number ∈ written ∧ active.number ∉ c.writes
  timed : ∀ active, c.activeRequest = some active → active.deadline.isSome → active.writePending = false

theorem Owned.step (h : c.Owned written) (active : c.SameActive c')
    (outstanding : c'.outstanding ⊆ c.outstanding)
    (done : ∀ result ∈ c'.finished, result.error = none → result.number ∈ written')
    (grown : written ⊆ written') :
    c'.Owned written' where
  own active' found write there uid := by
    obtain ⟨old, before, sameUid, number, -, -⟩ := active active' found
    rw [number]
    exact h.own old before write (outstanding there) (sameUid ▸ uid)
  done := done
  acknowledged active' found pending := by
    obtain ⟨old, before, -, number, samePending, -⟩ := active active' found
    obtain ⟨own, gone⟩ := h.acknowledged old before (samePending ▸ pending)
    rw [number]
    refine ⟨grown own, fun there => gone ?_⟩
    rw [writes_eq] at there ⊢
    exact List.map_subset _ outstanding there
  timed active' found deadline := by
    obtain ⟨old, before, -, -, samePending, sameDeadline⟩ := active active' found
    rw [samePending]
    exact h.timed old before (sameDeadline ▸ deadline)

theorem Owned.fewer (h : c.Owned written) (fewer : c.Fewer c') : c'.Owned written :=
  h.step fewer.active fewer.outstanding (fun result there => h.done result (fewer.finished there))
    (List.Subset.refl _)

/-- What the worker takes it has in hand. -/
theorem take_fewer (before : c.worker = .waits) (hs : c.take = some c') : c.Fewer c' := by
  unfold Client.take at hs
  have takes : ∀ {result : ControlPointResult} {controlPointResults : List ControlPointResult},
      c.controlPointResults = result :: controlPointResults →
      c.Fewer { c with controlPointResults, worker := .picked (.result result) } := fun results => {
    active := .of_eq rfl
    outstanding := fun write there => by
      simp only [outstanding, before, results, WorkerPc.inHand, List.mem_append, List.map_cons, List.mem_cons,
        List.not_mem_nil, or_false, false_or] at there ⊢
      tauto
    finished := fun done there => by
      simp only [finished, before, results, WorkerPc.finished, List.mem_append, List.mem_cons, List.not_mem_nil,
        or_false, false_or] at there ⊢
      tauto }
  split at hs
  · obtain rfl := Option.some.inj hs
    exact .goes ⟨rfl, rfl, rfl, rfl⟩ (.of_eq rfl) rfl
  · split at hs
    · obtain rfl := Option.some.inj hs
      exact .goes ⟨rfl, rfl, rfl, rfl⟩ (.of_eq rfl) rfl
    · obtain rfl := Option.some.inj hs
      exact .goes ⟨rfl, rfl, rfl, rfl⟩ (.of_eq rfl) rfl
    · next results =>
      obtain rfl := Option.some.inj hs
      exact takes results
    · next results =>
      obtain rfl := Option.some.inj hs
      exact takes results
    · split at hs
      · obtain rfl := Option.some.inj hs
        exact .goes ⟨rfl, rfl, rfl, rfl⟩ (.of_eq rfl) rfl
      · cases hs
    · split at hs
      · obtain rfl := Option.some.inj hs
        exact .goes ⟨rfl, rfl, rfl, rfl⟩ (.of_eq rfl) rfl
      · cases hs

/-- A result without an error is one of the active request, or of none. -/
theorem Owned.acknowledge {result : ControlPointResult} (h : c.Owned written) (scheduling : c.Scheduling)
    (before : c.worker = .works (.result result)) (succeeds : result.error = none) :
    Owned { c.acknowledgeControlPointWrite result.uid with worker := .next } written := by
  have dropped : c.Fewer { c with worker := .next } := .passes rfl
  unfold acknowledgeControlPointWrite
  split
  · exact h.fewer dropped
  next active found =>
    split
    next uid =>
      have inHand : (result.uid, result.number) ∈ c.outstanding := by
        simp [outstanding, before, WorkerPc.inHand]
      have number : result.number = active.number := h.own active found _ inHand uid.symm
      have own : active.number ∈ written := by
        rw [← number]
        exact h.done result (by simp [finished, before, WorkerPc.finished]) succeeds
      have gone : active.number ∉ Client.writes { c with worker := .next } := by
        have once := scheduling.once active.number
        rw [← List.count_eq_zero]
        simp only [writes, before, WorkerPc.numbers, number, List.count_append, List.count_cons_self,
          List.count_nil] at once ⊢
        omega
      refine { own := fun active' same write there hwrite => ?_, done := fun result' there => ?_
               acknowledged := fun active' same _ => ?_, timed := fun active' same _ => ?_ }
      · obtain rfl := Option.some.inj same
        exact h.own active found write (dropped.outstanding there) hwrite
      · exact h.done result' (dropped.finished there)
      · obtain rfl := Option.some.inj same
        exact ⟨own, gone⟩
      · obtain rfl := Option.some.inj same
        rfl
    next => exact h.fewer dropped

/-- A request that is started, with all that is new about it. -/
theorem Queues.begins (h : c.Queues) :
    c.startNextRequest = (c, none) ∨ ∃ uid pendingRequests active job,
      c.ready = true ∧ c.activeRequest = none ∧ c.pendingRequests = uid :: pendingRequests ∧
      c.startNextRequest = ({ c with
        pendingRequests, queuedUids := Function.update c.queuedUids uid false
        activeRequest := some active, requests := c.requests + 1 }.note (.started uid), some job) ∧
      active.notification.uid = uid ∧ active.number = c.requests ∧ active.writePending = true ∧
      active.deadline = none ∧ job.uid = uid ∧ job.number = c.requests := by
  unfold Client.startNextRequest
  split
  · next uid pendingRequests ready active pending =>
    obtain ⟨record, found, available⟩ := h.recorded uid (by simp [pending])
    have named := h.named uid record found
    dsimp only
    rw [found]
    simp only [available, Bool.false_eq_true, if_false]
    exact .inr ⟨uid, pendingRequests, _, _, ready, active, pending, rfl, named, rfl, rfl, rfl, named, rfl⟩
  · exact .inl rfl

theorem Owned.next (h : c.Owned written) (queues : c.Queues) (before : c.worker = .next)
    (separate : c.Separate (.worker outcome)) : Owned {
      c.startNextRequest.1 with
        worker := match c.startNextRequest.2 with
          | some job => .queues job
          | none => .waits } written := by
  rcases queues.begins with idle | ⟨uid, pendingRequests, active, job, ready, none, pending, starts,
    named, number,
    waits, untimed, ofJob, jobNumber⟩
  · rw [idle]
    exact h.fewer (.passes rfl)
  · rw [starts]
    simp only [Separate, before, none, pending] at separate
    have old := separate ready
    refine { own := fun active' same write there hwrite => ?_, done := fun result there => ?_
             acknowledged := fun active' same done => ?_, timed := fun active' same timed => ?_ }
    · obtain rfl := Option.some.inj same
      have cases : write = (job.uid, job.number) ∨ write ∈ c.outstanding := by
        simp only [outstanding, before, WorkerPc.inHand, Client.note, List.mem_append, List.mem_cons,
          List.not_mem_nil, or_false, false_or] at there ⊢
        tauto
      rcases cases with rfl | there
      · exact jobNumber.trans number.symm
      · exact absurd (hwrite.trans named) (old write there)
    · refine h.done result ?_
      simp only [finished, before, WorkerPc.finished, Client.note] at there ⊢
      exact there
    · obtain rfl := Option.some.inj same
      rw [waits] at done
      cases done
    · obtain rfl := Option.some.inj same
      rw [untimed] at timed
      cases timed

-- ---------------------------------------------------------------------------
-- Steps
-- ---------------------------------------------------------------------------

theorem activeRequest_dropPending (c : Client) : c.dropPending.1.activeRequest = c.activeRequest := by
  unfold dropPending
  dsimp only
  split
  · split <;> rfl
  · rfl

theorem activeRequest_addNotification (c : Client) (notification : Notification) :
    (c.addNotification notification).1.activeRequest = c.activeRequest := by
  unfold addNotification
  dsimp only
  split
  · exact activeRequest_dropPending _
  · rfl

theorem sameActive_removeNotification (c : Client) (notification : Notification) :
    c.SameActive (c.removeNotification notification).1 := by
  intro active' found
  obtain ⟨active, before, same⟩ := Option.map_eq_some_iff.mp found
  refine ⟨active, before, ?_⟩
  rw [← same]
  split <;> exact ⟨rfl, rfl, rfl, rfl⟩

theorem sameActive_processDataSourceValue (c : Client) (value : List UInt8) :
    c.SameActive (c.processDataSourceValue value) := by
  unfold processDataSourceValue
  split
  · exact .of_eq rfl
  next active before =>
    intro active' found
    obtain rfl := Option.some.inj found
    exact ⟨active, before, rfl, rfl, rfl, rfl⟩

theorem sameActive_failTimedOutRequest (c : Client) : c.SameActive c.failTimedOutRequest.1 := by
  unfold failTimedOutRequest
  split
  · exact .of_eq rfl
  · split
    · exact .of_none rfl
    · exact .of_eq rfl

theorem activeRequest_recordAttributes (c : Client) (uid : UInt32) (attributes : AttributeSet) :
    (c.recordAttributes uid attributes).1.activeRequest = c.activeRequest := by
  unfold recordAttributes
  split <;> rfl

theorem activeRequest_markUnavailable (c : Client) (uid : UInt32) (error : Error) :
    (c.markUnavailable uid error).1.activeRequest = c.activeRequest := by
  unfold markUnavailable
  split <;> rfl

theorem Owned.runWorker (h : c.Owned written) (scheduling : c.Scheduling)
    (separate : c.Separate (.worker outcome))
    (hs : c.runWorker outcome = some c') : c'.Owned written := by
  unfold Client.runWorker at hs
  split at hs
  · cases hs
  · next before => exact h.fewer (take_fewer before hs)
  · next item before =>
    split at hs
    · cases hs
    · obtain rfl := Option.some.inj hs
      refine h.fewer ⟨.of_eq rfl, ?_, ?_⟩
      · cases item <;> simp [outstanding, before, WorkerPc.inHand]
      · cases item <;> simp [finished, before, WorkerPc.finished]
  · obtain rfl := Option.some.inj hs
    exact h.fewer (.passes rfl)
  · next packet before =>
    obtain rfl := Option.some.inj hs
    exact h.fewer (.passes (processGattPacket_bare c packet).2)
  · next result before =>
    obtain rfl := Option.some.inj hs
    split
    · exact h.fewer (.passes rfl)
    · next succeeds => exact h.acknowledge scheduling before succeeds
  · obtain rfl := Option.some.inj hs
    refine h.fewer (.passes ?_)
    split <;> rfl
  · next notification before =>
    obtain rfl := Option.some.inj hs
    split
    · refine h.fewer (.goes ⟨rfl, rfl, rfl, rfl⟩ (sameActive_removeNotification c notification) ?_)
      dsimp only
      split <;> rfl
    · refine h.fewer (.goes ((addNotification_untouched c notification).goes _)
        (.of_eq (activeRequest_addNotification c notification)) ?_)
      dsimp only
      split <;> rfl
  · next value before =>
    obtain rfl := Option.some.inj hs
    have untouched := processDataSourceValue_untouched c value
    exact h.fewer (.goes untouched.1 (sameActive_processDataSourceValue c value) untouched.2)
  · next uid attributes before =>
    obtain rfl := Option.some.inj hs
    refine h.fewer (.goes ((recordAttributes_untouched c uid attributes).goes _)
      (.of_eq (activeRequest_recordAttributes c uid attributes)) ?_)
    dsimp only
    split <;> rfl
  · next uid error after before =>
    obtain rfl := Option.some.inj hs
    exact h.fewer (.goes ((markUnavailable_untouched c uid error).goes _)
      (.of_eq (activeRequest_markUnavailable c uid error)) rfl)
  · next event after before =>
    obtain rfl := Option.some.inj hs
    exact h.fewer (.goes ⟨rfl, rfl, rfl, rfl⟩ (.of_eq rfl) after.bare.2)
  · obtain rfl := Option.some.inj hs
    exact h.fewer (.goes ⟨rfl, rfl, rfl, rfl⟩ (.of_none rfl) rfl)
  · obtain rfl := Option.some.inj hs
    refine h.fewer (.goes ((failTimedOutRequest_untouched c).goes _) (sameActive_failTimedOutRequest c) ?_)
    dsimp only
    split <;> rfl
  · obtain rfl := Option.some.inj hs
    split
    · exact h.fewer (.passes rfl)
    · refine h.fewer ⟨.of_none rfl, fun write there => ?_, fun result there => ?_⟩
      · have there : write ∈ c.writer.inHand := by
          simpa [outstanding, WorkerPc.inHand, Client.close, clearSessionData] using there
        simp [outstanding, there]
      · have there : result ∈ c.writer.finished := by
          simpa [finished, WorkerPc.finished, Client.close, clearSessionData] using there
        simp [finished, there]
  · split at hs
    · cases hs
    · split at hs
      · cases hs
      · obtain rfl := Option.some.inj hs
        exact h.fewer (.goes ⟨rfl, rfl, rfl, rfl⟩ (.of_eq rfl) rfl)
  · obtain rfl := Option.some.inj hs
    exact h.fewer (.goes ⟨rfl, rfl, rfl, rfl⟩ (.of_eq rfl) rfl)
  · next before =>
    obtain rfl := Option.some.inj hs
    exact h.next scheduling.queues before separate
  · next job before =>
    obtain rfl := Option.some.inj hs
    split
    · exact h.fewer (.passes rfl)
    · refine h.fewer ⟨.of_eq rfl, fun write there => ?_, fun result there => ?_⟩
      · simp only [outstanding, before, WorkerPc.inHand, List.map_append, List.mem_append,
          List.map_cons, List.map_nil,
          List.mem_cons, List.not_mem_nil, or_false, false_or] at there ⊢
        tauto
      · simpa [finished, before, WorkerPc.finished] using there

/-- A write that returns leaves its result, under the same uid and number. -/
theorem Owned.runControlPointWrites (h : c.Owned written) (hs : c.runControlPointWrites outcome = some c') :
    c'.Owned ((c.completes (.writer outcome)).toList ++ written) := by
  have grown : written ⊆ (c.completes (.writer outcome)).toList ++ written := List.subset_append_right ..
  have moves : ∀ {d : Client}, d.activeRequest = c.activeRequest → d.outstanding ⊆ c.outstanding →
      d.finished ⊆ c.finished → d.Owned ((c.completes (.writer outcome)).toList ++ written) :=
    fun active outstanding finished => h.step (.of_eq active) outstanding
      (fun result there succeeds => grown (h.done result (finished there) succeeds)) grown
  unfold Client.runControlPointWrites at hs
  split at hs
  · cases hs
  · next before =>
    split at hs
    · obtain rfl := Option.some.inj hs
      refine moves rfl ?_ ?_
      · simp [outstanding, before, WriterPc.inHand]
      · simp [finished, before, WriterPc.finished]
    · split at hs
      · cases hs
      · next jobs =>
        obtain rfl := Option.some.inj hs
        refine moves rfl (fun write there => ?_) ?_
        · simp only [outstanding, before, jobs, WriterPc.inHand, List.mem_append, List.map_cons, List.mem_cons,
            List.not_mem_nil, or_false] at there ⊢
          tauto
        · simp [finished, before, WriterPc.finished]
  · next job before =>
    split at hs
    · cases hs
    · obtain rfl := Option.some.inj hs
      refine moves rfl ?_ ?_
      · simp [outstanding, before, WriterPc.inHand]
      · simp [finished, before, WriterPc.finished]
  · next job before =>
    obtain rfl := Option.some.inj hs
    refine h.step (.of_eq rfl) ?_ (fun result there succeeds => ?_) grown
    · simp [outstanding, before, WriterPc.inHand]
    · have cases : result = ⟨job.uid, outcome.error, job.number⟩ ∨ result ∈ c.finished := by
        simp only [finished, before, WriterPc.finished, List.mem_append, List.mem_cons, List.not_mem_nil,
          or_false] at there ⊢
        tauto
      rcases cases with rfl | there
      · simp [completes, before, show outcome.error = none from succeeds]
      · exact grown (h.done result there succeeds)
  · next result before =>
    obtain rfl := Option.some.inj hs
    split
    · refine moves rfl (fun write there => ?_) (fun done there => ?_)
      · simp only [outstanding, before, WriterPc.inHand, List.mem_append, List.mem_cons, List.not_mem_nil,
          or_false] at there ⊢
        tauto
      · simp only [finished, before, WriterPc.finished, List.mem_append, List.mem_cons, List.not_mem_nil,
          or_false] at there ⊢
        tauto
    · refine moves rfl (fun write there => ?_) (fun done there => ?_)
      · simp only [outstanding, before, WriterPc.inHand, List.map_append, List.map_cons, List.map_nil,
          List.mem_append,
          List.mem_cons, List.not_mem_nil, or_false] at there ⊢
        tauto
      · simp only [finished, before, WriterPc.finished, List.mem_append, List.mem_cons, List.not_mem_nil,
          or_false] at there ⊢
        tauto

theorem Owned.client_step {action : Action} (h : c.Owned written) (scheduling : c.Scheduling)
    (separate : c.Separate action) (hs : c.step action = some c') :
    c'.Owned ((c.completes action).toList ++ written) := by
  cases action with
  | start deviceId config =>
    simp only [Client.step] at hs
    split at hs
    · obtain rfl := Option.some.inj hs
      unfold Client.start
      split
      · exact h
      · split
        · exact h
        · exact h.fewer (.of_eq rfl rfl rfl rfl rfl)
    · cases hs
  | callStop | tick =>
    obtain rfl := Option.some.inj hs
    exact h.fewer (.of_eq rfl rfl rfl rfl rfl)
  | stop =>
    simp only [Client.step] at hs
    split at hs
    · obtain rfl := Option.some.inj hs
      exact h.fewer (.of_eq rfl rfl rfl rfl rfl)
    · cases hs
  | api outcome =>
    refine h.fewer (.governed (runApi_governs hs) ?_)
    rcases runApi_active hs with same | none
    · exact .of_eq same
    · exact .of_none none
  | worker outcome => exact h.runWorker scheduling separate hs
  | writer outcome => exact h.runControlPointWrites hs
  | gattEvent dataSource event =>
    simp only [Client.step] at hs
    split at hs
    · obtain rfl := Option.some.inj hs
      split
      · exact h.fewer (.of_eq rfl rfl rfl rfl rfl)
      · exact h
    · cases hs

theorem Owned.new : ({} : Client).Owned [] where
  own _ (found : none = some _) := nomatch found
  done _ there := absurd there List.not_mem_nil
  acknowledged _ (found : none = some _) := nomatch found
  timed _ (found : none = some _) := nomatch found

-- ---------------------------------------------------------------------------
-- Every run
-- ---------------------------------------------------------------------------

namespace Watched

/-- An acknowledgement belongs to its own request. -/
structure Acknowledged (w : Watched) : Prop where
  own : ∀ active, w.client.activeRequest = some active → active.writePending = false →
    active.number ∈ w.written ∧ active.number ∉ w.client.writes
  -- No response deadline before the write has completed.
  deadline : ∀ active, w.client.activeRequest = some active → active.deadline.isSome → active.number ∈ w.written
  -- No timeout while the write is queued or in progress.
  timeout : w.client.requestTimedOut = true → ∃ active, w.client.activeRequest = some active ∧
    active.number ∈ w.written ∧ active.number ∉ w.client.writes

theorem acknowledged {w : Watched} (run : ReachesBy step (fun w action => w.client.Separate action) {} w) :
    w.Acknowledged := by
  obtain ⟨-, -, h⟩ : w.client.Isolated False ∧ w.client.Scheduling ∧ w.client.Owned w.written :=
    run.invariant (I := fun w => w.client.Isolated False ∧ w.client.Scheduling ∧ w.client.Owned w.written)
      ⟨.new, .new, .new⟩ fun {w action w'} ⟨isolated, scheduling, h⟩ separate hs => by
        obtain ⟨c, hc, rfl⟩ := Option.map_eq_some_iff.mp hs
        exact ⟨isolated.step False.elim hc, scheduling.step isolated hc, h.client_step scheduling separate hc⟩
  refine ⟨h.acknowledged, fun active found deadline => ?_, fun timeout => ?_⟩
  · exact (h.acknowledged active found (h.timed active found deadline)).1
  · unfold requestTimedOut at timeout
    split at timeout
    · cases timeout
    next active found =>
      have pending : active.writePending = false := by
        simp only [Bool.and_eq_true, Bool.not_eq_true'] at timeout
        exact timeout.1
      exact ⟨active, found, h.acknowledged active found pending⟩

/-- The uid is added, its request is written and acknowledged. -/
theorem acknowledged_added : ∃ w : Watched, (w.client.activeRequest.any fun active => !active.writePending) =
    true ∧
    w.Acknowledged := by
  have hany : (execBy step (fun w action => w.client.Separate action) {} (startup ++
      List.replicate 24 (Action.worker {}) ++ addedAndRequested)).any fun w =>
        w.client.activeRequest.any fun active => !active.writePending := by decide +kernel
  obtain ⟨w, hexec, hw⟩ := (Option.any_eq_true _ _).mp hany
  exact ⟨w, hw, acknowledged (.of_execBy hexec)⟩

/-- The response comes before the result of its write is taken, and the uid is updated: the result
acknowledges the request that follows. -/
def updatedBeforeResult : List Action :=
  startup ++ List.replicate 24 (Action.worker {}) ++
    Action.gattEvent false (.valueChanged [0, 0, 0, 0, 7, 0, 0, 0]) :: List.replicate 6 (Action.worker {}) ++
    List.replicate 4 (Action.writer {}) ++
    Action.gattEvent true (.valueChanged [0, 7, 0, 0, 0, 0, 0, 0, 1, 0, 0, 2, 0, 0, 3, 0, 0, 5, 0, 0]) ::
    Action.gattEvent false (.valueChanged [1, 0, 0, 0, 7, 0, 0, 0]) :: List.replicate 21 (Action.worker {})

theorem acknowledged_tooEarly : ∃ w, Reaches step {} w ∧ ¬w.Acknowledged := by
  obtain ⟨w, run, hw⟩ : ∃ w, Reaches step {} w ∧ (w.client.activeRequest.any fun active =>
      !active.writePending && decide (active.number ∈ w.client.writes)) = true :=
    ReachesBy.exists_of_any updatedBeforeResult (by decide +kernel)
  obtain ⟨active, found, hactive⟩ := (Option.any_eq_true _ _).mp hw
  simp only [Bool.and_eq_true, Bool.not_eq_true', decide_eq_true_eq] at hactive
  exact ⟨w, run, fun h => (h.own active found hactive.1).2 hactive.2⟩

end Watched
end Dmn.Ancs.Client
