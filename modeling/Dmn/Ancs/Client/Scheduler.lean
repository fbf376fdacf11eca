import Dmn.Ancs.Client.Isolation

/-!
# The request scheduler

The pending requests, the uids that are queued, the records, the active request and the Control
Point jobs stay in step, whatever the worker, `start` and `stop` do: a uid that is taken from the
pending requests always has a record to make a request of.
-/

namespace Dmn.Ancs.Client

open Dmn.Lib

variable {uid : UInt32} {c c' : Client} {outcome : Outcome}

-- ---------------------------------------------------------------------------
-- The containers
-- ---------------------------------------------------------------------------

structure Queues (c : Client) : Prop where
  nodup : c.pendingRequests.Nodup
  queued : ∀ uid, c.queuedUids uid = true ↔ uid ∈ c.pendingRequests
  named : ∀ uid record, c.records uid = some record → record.notification.uid = uid
  recorded : ∀ uid ∈ c.pendingRequests, ∃ record, c.records uid = some record ∧
    record.unavailable = false
  active : ∀ active, c.activeRequest = some active →
    active.notification.uid ∉ c.pendingRequests
  bounded : c.config.maximumPendingNotifications ≠ 0 →
    c.pendingRequests.length ≤ c.config.maximumPendingNotifications

/-- A step that is not about requests: at most the active one goes, or is no other than before. -/
structure Spares (c c' : Client) : Prop where
  records : c'.records = c.records
  pending : c'.pendingRequests = c.pendingRequests
  queued : c'.queuedUids = c.queuedUids
  config : c'.config = c.config
  active : ∀ active', c'.activeRequest = some active' →
    ∃ active, c.activeRequest = some active ∧ active'.notification.uid = active.notification.uid

theorem Spares.same (records : c'.records = c.records)
    (pending : c'.pendingRequests = c.pendingRequests) (queued : c'.queuedUids = c.queuedUids)
    (config : c'.config = c.config) (active : c'.activeRequest = c.activeRequest) : c.Spares c' :=
  ⟨records, pending, queued, config, fun a ha => ⟨a, active ▸ ha, rfl⟩⟩

theorem Queues.spares (h : c.Queues) (spares : c.Spares c') : c'.Queues where
  nodup := spares.pending ▸ h.nodup
  queued := by
    rw [spares.queued, spares.pending]
    exact h.queued
  named := spares.records ▸ h.named
  recorded := by
    rw [spares.records, spares.pending]
    exact h.recorded
  active active' ha := by
    obtain ⟨active, before, uid⟩ := spares.active active' ha
    rw [uid, spares.pending]
    exact h.active active before
  bounded := by
    rw [spares.config, spares.pending]
    exact h.bounded

/-- The session data have been cleared. -/
theorem Blank.queues (h : c.Blank) : c.Queues where
  nodup := h.pending ▸ .nil
  queued uid := by simp [h.queued, h.pending]
  named uid record hr := by simp [h.records] at hr
  recorded uid hu := by simp [h.pending] at hu
  active active ha := by simp [h.active] at ha
  bounded _ := by simp [h.pending]

/-- A record is set, and its uid is not pending unless the record is as good as new. -/
theorem Queues.setRecord (h : c.Queues) (uid : UInt32) (record : Option NotificationRecord)
    (named : ∀ r ∈ record, r.notification.uid = uid)
    (kept : uid ∈ c.pendingRequests → ∃ r, record = some r ∧ r.unavailable = false) :
    (c.setRecord uid record).Queues where
  nodup := h.nodup
  queued := h.queued
  named other r hr := by
    by_cases eq : other = uid
    · subst eq
      exact named r (by simpa [Client.setRecord] using hr)
    · exact h.named other r (by simpa [Client.setRecord, eq] using hr)
  recorded other pending := by
    by_cases eq : other = uid
    · subst eq
      obtain ⟨r, rfl, available⟩ := kept pending
      exact ⟨r, by simp [Client.setRecord], available⟩
    · obtain ⟨r, hr, available⟩ := h.recorded other pending
      exact ⟨r, by simpa [Client.setRecord, eq] using hr, available⟩
  active := h.active
  bounded := h.bounded

theorem Queues.note (h : c.Queues) (entry : Entry) : (c.note entry).Queues :=
  h.spares (.same rfl rfl rfl rfl rfl)

-- ---------------------------------------------------------------------------
-- Added, Updated and Removed
-- ---------------------------------------------------------------------------

theorem recordOf_uid (c : Client) (notification : Notification) :
    (c.recordOf notification).notification.uid = notification.uid := by
  unfold recordOf
  split <;> rfl

/-- A pending uid has a record to go on with. -/
theorem recordOf_available (h : c.Queues) {notification : Notification}
    (pending : notification.uid ∈ c.pendingRequests) :
    (c.recordOf notification).unavailable = false := by
  obtain ⟨record, found, available⟩ := h.recorded _ pending
  simp [recordOf, found, available]

/-- The first pending request goes, with its record or to become the active one. -/
theorem Queues.popPending (h : c.Queues) {pendingRequests : List UInt32}
    (pending : c.pendingRequests = uid :: pendingRequests) :
    Queues { c with pendingRequests, queuedUids := Function.update c.queuedUids uid false } where
  nodup := (List.nodup_cons.mp (pending ▸ h.nodup)).2
  queued other := by
    have first := (List.nodup_cons.mp (pending ▸ h.nodup)).1
    by_cases eq : other = uid
    · subst eq
      simp [first]
    · simp [eq, h.queued, pending]
  named := h.named
  recorded other hother := h.recorded other (by simp [pending, hother])
  active active ha hmem := h.active active ha (by simp [pending, hmem])
  bounded limited := by
    have bounded := h.bounded limited
    rw [pending, List.length_cons] at bounded
    exact Nat.le_of_succ_le bounded

theorem Queues.pushPending (h : c.Queues) (fresh : uid ∉ c.pendingRequests)
    (recorded : ∃ record, c.records uid = some record ∧ record.unavailable = false)
    (idle : c.requesting uid = false)
    (room : c.config.maximumPendingNotifications ≠ 0 →
      c.pendingRequests.length < c.config.maximumPendingNotifications) :
    (c.pushPending uid).Queues where
  nodup := by
    refine List.nodup_append.mpr ⟨h.nodup, by simp, fun a ha b hb eq => fresh ?_⟩
    rw [← List.mem_singleton.mp hb, ← eq]
    exact ha
  queued other := by
    by_cases eq : other = uid
    · simp [Client.pushPending, eq]
    · simp [Client.pushPending, eq, h.queued]
  named := h.named
  recorded other hother := by
    rcases List.mem_append.mp hother with hother | hother
    · exact h.recorded other hother
    · rw [List.mem_singleton.mp hother]
      exact recorded
  active active ha hmem := by
    rcases List.mem_append.mp hmem with hmem | hmem
    · exact h.active active ha hmem
    · have active : c.activeRequest = some active := ha
      rw [requesting, active] at idle
      simp [List.mem_singleton.mp hmem] at idle
  bounded limited := by simpa [Client.pushPending] using Nat.succ_le_of_lt (room limited)

/-- There is room for another request afterwards, and only the first one can be gone. -/
theorem Queues.dropPending (h : c.Queues) :
    c.dropPending.1.Queues ∧ (∀ uid ∈ c.dropPending.1.pendingRequests, uid ∈ c.pendingRequests) ∧
      (∀ uid, uid ∉ c.pendingRequests → c.dropPending.1.records uid = c.records uid) ∧
      c.dropPending.1.activeRequest = c.activeRequest ∧
      (c.dropPending.1.config.maximumPendingNotifications ≠ 0 →
        c.dropPending.1.pendingRequests.length <
          c.dropPending.1.config.maximumPendingNotifications) := by
  unfold Client.dropPending
  dsimp only
  split
  · next full =>
    obtain ⟨limited, full⟩ := full
    cases pending : c.pendingRequests with
    | nil => simp [pending] at full; omega
    | cons droppedUid pendingRequests =>
      have first := (List.nodup_cons.mp (pending ▸ h.nodup)).1
      have popped := h.popPending pending
      have erased := popped.setRecord droppedUid none (by simp) fun hmem => absurd hmem first
      refine ⟨erased.spares (.same rfl rfl rfl rfl rfl), fun uid hu => List.mem_cons_of_mem _ hu,
        fun uid hu => ?_, rfl, fun _ => ?_⟩
      · have other : uid ≠ droppedUid := fun eq => hu (by simp [eq])
        simp [Client.setRecord, Client.note, other]
      · have bounded := h.bounded limited
        rw [pending, List.length_cons] at bounded
        exact bounded
  · next room =>
    refine ⟨h.spares (.same rfl rfl rfl rfl rfl), fun _ hu => hu, fun _ _ => rfl, rfl, fun limited => ?_⟩
    exact Nat.lt_of_not_le fun full => room ⟨limited, full⟩

theorem Queues.addNotification (h : c.Queues) (notification : Notification) :
    (c.addNotification notification).1.Queues := by
  unfold Client.addNotification
  dsimp only
  have recorded := (h.setRecord notification.uid (some (c.recordOf notification))
    (fun r hr => Option.mem_some.mp hr ▸ recordOf_uid c _)
    fun pending => ⟨_, rfl, recordOf_available h pending⟩).note (.event notification)
  split
  · next push =>
    simp only [Bool.and_eq_true, Bool.not_eq_true'] at push
    obtain ⟨⟨available, unqueued⟩, idle⟩ := push
    have fresh : notification.uid ∉ c.pendingRequests := fun hmem => by
      have queued := (h.queued _).mpr hmem
      exact absurd (unqueued.symm.trans queued) (by simp)
    obtain ⟨dropped, fewer, kept, active, room⟩ := recorded.dropPending
    refine dropped.pushPending (fun hmem => fresh (fewer _ hmem)) ?_ ?_ room
    · refine ⟨_, (kept _ fresh).trans ?_, available⟩
      simp [Client.setRecord, Client.note]
    · rw [requesting, active]
      exact idle
  · exact recorded

theorem Queues.removeNotification (h : c.Queues) (notification : Notification) :
    (c.removeNotification notification).1.Queues where
  nodup := h.nodup.filter _
  queued other := by
    by_cases eq : other = notification.uid
    · simp [Client.removeNotification, Client.note, Client.setRecord, eq]
    · simp [Client.removeNotification, Client.note, Client.setRecord, eq, h.queued]
  named other record hr := by
    by_cases eq : other = notification.uid
    · simp [Client.removeNotification, Client.note, Client.setRecord, eq] at hr
    · exact h.named other record (by
        simpa [Client.removeNotification, Client.note, Client.setRecord, eq] using hr)
  recorded other hother := by
    obtain ⟨pending, ne⟩ := List.mem_filter.mp hother
    have ne : other ≠ notification.uid := of_decide_eq_true ne
    obtain ⟨record, found, available⟩ := h.recorded other pending
    refine ⟨record, ?_, available⟩
    simpa [Client.removeNotification, Client.note, Client.setRecord, ne] using found
  active active' ha hmem := by
    obtain ⟨active, before, eq⟩ := Option.map_eq_some_iff.mp ha
    refine h.active active before ?_
    have same : active'.notification.uid = active.notification.uid := by
      rw [← eq]
      split <;> rfl
    exact same ▸ (List.mem_filter.mp hmem).1
  bounded limited := Nat.le_trans (List.length_filter_le ..) (h.bounded limited)

-- ---------------------------------------------------------------------------
-- Requests
-- ---------------------------------------------------------------------------

/-- A popped uid gets its request. -/
theorem Queues.starts (h : c.Queues) :
    c.startNextRequest = (c, none) ∨ ∃ uid pendingRequests active job,
      c.pendingRequests = uid :: pendingRequests ∧
      c.startNextRequest = ({ c with
        pendingRequests, queuedUids := Function.update c.queuedUids uid false
        activeRequest := some active, requests := c.requests + 1 }.note (.started uid), some job) ∧
      active.notification.uid = uid ∧ active.number = c.requests ∧
      job.uid = uid ∧ job.number = c.requests := by
  unfold Client.startNextRequest
  split
  · next uid pendingRequests ready active pending =>
    obtain ⟨record, found, available⟩ := h.recorded uid (by simp [pending])
    have named := h.named uid record found
    dsimp only
    rw [found]
    simp only [available, Bool.false_eq_true, if_false]
    exact .inr ⟨uid, pendingRequests, _, _, pending, rfl, named, rfl, named, rfl⟩
  · exact .inl rfl

theorem Queues.startNextRequest (h : c.Queues) : c.startNextRequest.1.Queues := by
  rcases h.starts with idle | ⟨uid, pendingRequests, active, job, pending, starts, named, -⟩
  · rw [idle]
    exact h
  · rw [starts]
    have popped := h.popPending pending
    have first := (List.nodup_cons.mp (pending ▸ h.nodup)).1
    exact
      { nodup := popped.nodup
        queued := popped.queued
        named := popped.named
        recorded := popped.recorded
        active := fun active' ha => by
          obtain rfl : active = active' := Option.some.inj ha
          exact named ▸ first
        bounded := popped.bounded }

/-- The uid is about to be marked unavailable. -/
def WorkerPc.gives : WorkerPc → Option UInt32
  | .unavailable uid _ _ => some uid
  | _ => none

theorem recordAttributes_queues (h : c.Queues) (attributes : AttributeSet) :
    (c.recordAttributes uid attributes).1.Queues := by
  unfold recordAttributes
  split
  · exact h
  · next record found =>
    refine h.setRecord uid _ (fun r hr => ?_) fun pending => ?_
    · obtain rfl := Option.some.inj hr
      exact h.named uid record found
    · obtain ⟨r, same, available⟩ := h.recorded uid pending
      obtain rfl := Option.some.inj (found.symm.trans same)
      exact ⟨_, rfl, available⟩

theorem markUnavailable_queues (h : c.Queues) (idle : uid ∉ c.pendingRequests) (error : Error) :
    (c.markUnavailable uid error).1.Queues := by
  unfold markUnavailable
  split
  · next record found =>
    refine (h.setRecord uid _ (fun r hr => ?_) fun pending => absurd pending idle).note _
    obtain rfl := Option.some.inj hr
    exact h.named uid record found
  · exact h.note _

/-- The active request is given up. -/
theorem Queues.gives {active : ActiveRequest} {record : Option NotificationRecord} (h : c.Queues)
    (found : c.activeRequest = some active)
    (named : ∀ r ∈ record, r.notification.uid = active.notification.uid) :
    ({ c.setRecord active.notification.uid record with activeRequest := none }).Queues := by
  have marked := h.setRecord active.notification.uid record named
    fun pending => absurd pending (h.active active found)
  exact
    { nodup := marked.nodup
      queued := marked.queued
      named := marked.named
      recorded := marked.recorded
      active := fun active' (ha : none = some active') => nomatch ha
      bounded := marked.bounded }

/-- The uid that is given up was that of the active request. -/
theorem failTimedOutRequest_queues (h : c.Queues) :
    c.failTimedOutRequest.1.Queues ∧
      ∀ uid ∈ c.failTimedOutRequest.2, uid ∉ c.failTimedOutRequest.1.pendingRequests := by
  unfold failTimedOutRequest
  split
  · exact ⟨h, nofun⟩
  · next active found =>
    split
    · refine ⟨(h.gives found fun r hr => ?_).note _, fun uid hu => ?_⟩
      · obtain ⟨record, before, rfl⟩ := Option.map_eq_some_iff.mp hr
        exact h.named _ record before
      · obtain rfl := Option.some.inj hu
        exact h.active active found
    · exact ⟨h, nofun⟩

theorem acknowledge_spares (c : Client) (uid : UInt32) :
    c.Spares (c.acknowledgeControlPointWrite uid) := by
  unfold acknowledgeControlPointWrite
  split
  · exact .same rfl rfl rfl rfl rfl
  · next active found =>
    split
    · refine ⟨rfl, rfl, rfl, rfl, fun active' ha => ⟨active, found, ?_⟩⟩
      obtain rfl := Option.some.inj ha
      rfl
    · exact .same rfl rfl rfl rfl rfl

theorem processDataSourceValue_queues (h : c.Queues) (value : List UInt8) :
    (c.processDataSourceValue value).Queues ∧
      ∀ uid ∈ (c.processDataSourceValue value).worker.gives,
        uid ∉ (c.processDataSourceValue value).pendingRequests := by
  unfold processDataSourceValue
  split
  · exact ⟨h.spares (.same rfl rfl rfl rfl rfl), nofun⟩
  · next active found =>
    generalize active.reassembler.consume value = consumed
    obtain ⟨parsed, reassembler⟩ := consumed
    dsimp only
    refine ⟨h.spares ⟨rfl, rfl, rfl, rfl, fun active' ha => ⟨active, found, ?_⟩⟩, fun uid hu => ?_⟩
    · obtain rfl := Option.some.inj ha
      rfl
    · have idle := h.active active found
      split at hu
      · split at hu
        · cases hu
        · exact Option.some.inj hu ▸ idle
      · cases hu
      · split at hu <;> cases hu

-- ---------------------------------------------------------------------------
-- Control Point writes
-- ---------------------------------------------------------------------------

/-- The requests whose write the worker has in hand, as a job or as a result. -/
def WorkerPc.numbers : WorkerPc → List Nat
  | .queues job => [job.number]
  | .picked (.result result) | .works (.result result) => [result.number]
  | _ => []

def WriterPc.numbers : WriterPc → List Nat
  | .has job | .writes job => [job.number]
  | .publishes result => [result.number]
  | _ => []

/-- The requests for which there is a job or a result, once for each. -/
def writes (c : Client) : List Nat :=
  c.worker.numbers ++ c.controlPointJobs.map (·.number) ++ c.writer.numbers ++
    c.controlPointResults.map (·.number)

/-- No uid to mark, and no write in hand. -/
def WorkerPc.Bare (worker : WorkerPc) : Prop := worker.gives = none ∧ worker.numbers = []

theorem WorkerPc.bare_ite (reported : Prop) [Decidable reported] {worker worker' : WorkerPc}
    (h : worker.Bare) (h' : worker'.Bare) : (if reported then worker else worker').Bare := by
  split
  · exact h
  · exact h'

theorem After.bare (after : After) : after.pc.Bare := by
  cases after <;> exact ⟨rfl, rfl⟩

structure Scheduling (c : Client) : Prop where
  queues : c.Queues
  giving : ∀ uid ∈ c.worker.gives, uid ∉ c.pendingRequests
  once : ∀ number, c.writes.count number ≤ 1
  fresh : ∀ number, c.requests ≤ number → c.writes.count number = 0

theorem Scheduling.fewer (h : c.Scheduling) (queues : c'.Queues)
    (giving : ∀ uid ∈ c'.worker.gives, uid ∉ c'.pendingRequests)
    (requests : c'.requests = c.requests)
    (fewer : ∀ number, c'.writes.count number ≤ c.writes.count number) : c'.Scheduling where
  queues := queues
  giving := giving
  once number := Nat.le_trans (fewer number) (h.once number)
  fresh number old := Nat.le_zero.mp (h.fresh number (requests ▸ old) ▸ fewer number)

/-- Neither the jobs nor the results nor the writer change. -/
structure Untouched (c c' : Client) : Prop where
  requests : c'.requests = c.requests
  jobs : c'.controlPointJobs = c.controlPointJobs
  writer : c'.writer = c.writer
  results : c'.controlPointResults = c.controlPointResults

theorem dropPending_untouched (c : Client) : c.Untouched c.dropPending.1 := by
  unfold dropPending
  dsimp only
  split
  · split <;> exact ⟨rfl, rfl, rfl, rfl⟩
  · exact ⟨rfl, rfl, rfl, rfl⟩

theorem addNotification_untouched (c : Client) (notification : Notification) :
    c.Untouched (c.addNotification notification).1 := by
  unfold addNotification
  dsimp only
  split
  · have dropped := dropPending_untouched
      ((c.setRecord notification.uid (some (c.recordOf notification))).note (.event notification))
    exact ⟨dropped.requests, dropped.jobs, dropped.writer, dropped.results⟩
  · exact ⟨rfl, rfl, rfl, rfl⟩

theorem recordAttributes_untouched (c : Client) (uid : UInt32) (attributes : AttributeSet) :
    c.Untouched (c.recordAttributes uid attributes).1 := by
  unfold recordAttributes
  split <;> exact ⟨rfl, rfl, rfl, rfl⟩

theorem markUnavailable_untouched (c : Client) (uid : UInt32) (error : Error) :
    c.Untouched (c.markUnavailable uid error).1 := by
  unfold markUnavailable
  split <;> exact ⟨rfl, rfl, rfl, rfl⟩

theorem failTimedOutRequest_untouched (c : Client) : c.Untouched c.failTimedOutRequest.1 := by
  unfold failTimedOutRequest
  split
  · exact ⟨rfl, rfl, rfl, rfl⟩
  · split <;> exact ⟨rfl, rfl, rfl, rfl⟩

theorem acknowledge_untouched (c : Client) (uid : UInt32) :
    c.Untouched (c.acknowledgeControlPointWrite uid) := by
  unfold acknowledgeControlPointWrite
  split
  · exact ⟨rfl, rfl, rfl, rfl⟩
  · split <;> exact ⟨rfl, rfl, rfl, rfl⟩

theorem processDataSourceValue_untouched (c : Client) (value : List UInt8) :
    c.Untouched (c.processDataSourceValue value) ∧ (c.processDataSourceValue value).worker.numbers = [] := by
  unfold processDataSourceValue
  split
  · exact ⟨⟨rfl, rfl, rfl, rfl⟩, rfl⟩
  · refine ⟨⟨rfl, rfl, rfl, rfl⟩, ?_⟩
    dsimp only
    split
    · split <;> rfl
    · rfl
    · split <;> rfl

theorem processGattPacket_bare (c : Client) (packet : GattPacket) :
    (c.processGattPacket packet).Bare := by
  unfold processGattPacket
  split
  · exact ⟨rfl, rfl⟩
  · split
    · exact ⟨rfl, rfl⟩
    · exact ⟨rfl, rfl⟩
    · split
      · exact ⟨rfl, rfl⟩
      · split
        · exact WorkerPc.bare_ite _ ⟨rfl, rfl⟩ ⟨rfl, rfl⟩
        · exact ⟨rfl, rfl⟩

theorem Scheduling.works (h : c.Scheduling) {worker : WorkerPc} (queues : c'.Queues)
    (untouched : c.Untouched c') (giving : ∀ uid ∈ worker.gives, uid ∉ c'.pendingRequests)
    (numbers : worker.numbers = []) : Scheduling { c' with worker } :=
  h.fewer (queues.spares (.same rfl rfl rfl rfl rfl)) giving untouched.requests fun number => by
    simp only [writes, untouched.jobs, untouched.writer, untouched.results, numbers,
      List.count_append, List.count_nil]
    omega

/-- The worker goes on to a place at which nothing has to be known. -/
theorem Scheduling.goes (h : c.Scheduling) {worker : WorkerPc} (queues : c'.Queues)
    (untouched : c.Untouched c') (bare : worker.Bare) : Scheduling { c' with worker } :=
  h.works queues untouched (by simp [bare.1]) bare.2

theorem Scheduling.passes (h : c.Scheduling) {worker : WorkerPc} (bare : worker.Bare) :
    Scheduling { c with worker } :=
  h.goes h.queues ⟨rfl, rfl, rfl, rfl⟩ bare

/-- What the worker takes it has in hand. -/
theorem Scheduling.take (h : c.Scheduling) (before : c.worker = .waits) (hs : c.take = some c') :
    c'.Scheduling := by
  have takes : ∀ {d : Client}, c.Spares d → d.worker.gives = none → d.requests = c.requests →
      (∀ number, d.writes.count number ≤ c.writes.count number) → d.Scheduling :=
    fun spares idle requests fewer => h.fewer (h.queues.spares spares) (by simp [idle]) requests fewer
  unfold Client.take at hs
  split at hs
  · obtain rfl := Option.some.inj hs
    refine takes (.same rfl rfl rfl rfl rfl) rfl rfl fun number => ?_
    simp [writes, before, WorkerPc.numbers]
  · split at hs
    · obtain rfl := Option.some.inj hs
      refine takes (.same rfl rfl rfl rfl rfl) rfl rfl fun number => ?_
      simp [writes, before, WorkerPc.numbers]
    · obtain rfl := Option.some.inj hs
      refine takes (.same rfl rfl rfl rfl rfl) rfl rfl fun number => ?_
      simp [writes, before, WorkerPc.numbers]
    · next results =>
      obtain rfl := Option.some.inj hs
      refine takes (.same rfl rfl rfl rfl rfl) rfl rfl fun number => ?_
      simp [writes, before, WorkerPc.numbers, results, List.count_cons]
      omega
    · next results =>
      obtain rfl := Option.some.inj hs
      refine takes (.same rfl rfl rfl rfl rfl) rfl rfl fun number => ?_
      simp [writes, before, WorkerPc.numbers, results, List.count_cons]
      omega
    · split at hs
      · obtain rfl := Option.some.inj hs
        refine takes (.same rfl rfl rfl rfl rfl) rfl rfl fun number => ?_
        simp [writes, before, WorkerPc.numbers]
      · cases hs
    · split at hs
      · obtain rfl := Option.some.inj hs
        refine takes (.same rfl rfl rfl rfl rfl) rfl rfl fun number => ?_
        simp [writes, before, WorkerPc.numbers]
      · cases hs

/-- The worker's next request. -/
theorem Scheduling.next (h : c.Scheduling) (before : c.worker = .next) : Scheduling {
    c.startNextRequest.1 with
      worker := match c.startNextRequest.2 with
        | some job => .queues job
        | none => .waits } := by
  have queues := h.queues.startNextRequest
  rcases h.queues.starts with idle | ⟨uid, pendingRequests, active, job, -, starts, -, -, -, number⟩
  · rw [idle]
    show Scheduling { c with worker := .waits }
    exact h.passes ⟨rfl, rfl⟩
  · rw [starts] at queues ⊢
    refine ⟨queues.spares (.same rfl rfl rfl rfl rfl), fun _ hu => (nomatch hu), fun n => ?_,
      fun n old => ?_⟩
    · have once := h.once n
      have fresh := h.fresh n
      simp [writes, before, WorkerPc.numbers, Client.note, List.count_cons, number] at once fresh ⊢
      split
      · next eq =>
        obtain ⟨jobs, writer, results⟩ := fresh (Nat.le_of_eq eq)
        omega
      · exact once
    · have fresh := h.fresh n (Nat.le_of_succ_le old)
      have newer : c.requests ≠ n := Nat.ne_of_lt old
      simpa [writes, before, WorkerPc.numbers, Client.note, List.count_cons, number, newer] using fresh

theorem Scheduling.runWorker (h : c.Scheduling) (hs : c.runWorker outcome = some c') :
    c'.Scheduling := by
  unfold Client.runWorker at hs
  split at hs
  · cases hs
  · next worker => exact h.take worker hs
  · next item worker =>
    split at hs
    · cases hs
    · obtain rfl := Option.some.inj hs
      refine h.fewer (h.queues.spares (.same rfl rfl rfl rfl rfl)) nofun rfl fun number => ?_
      cases item <;> simp [writes, worker, WorkerPc.numbers]
  · obtain rfl := Option.some.inj hs
    exact h.passes ⟨rfl, rfl⟩
  · next packet worker =>
    obtain rfl := Option.some.inj hs
    exact h.passes (processGattPacket_bare c packet)
  · next result worker =>
    obtain rfl := Option.some.inj hs
    split
    · exact h.passes ⟨rfl, rfl⟩
    · exact h.goes (h.queues.spares (acknowledge_spares c _)) (acknowledge_untouched c _) ⟨rfl, rfl⟩
  · obtain rfl := Option.some.inj hs
    exact h.passes (WorkerPc.bare_ite _ ⟨rfl, rfl⟩ ⟨rfl, rfl⟩)
  · next notification worker =>
    obtain rfl := Option.some.inj hs
    split
    · exact h.goes (h.queues.removeNotification notification) ⟨rfl, rfl, rfl, rfl⟩
        (WorkerPc.bare_ite _ ⟨rfl, rfl⟩ ⟨rfl, rfl⟩)
    · exact h.goes (h.queues.addNotification notification) (addNotification_untouched c _)
        (WorkerPc.bare_ite _ ⟨rfl, rfl⟩ ⟨rfl, rfl⟩)
  · next value worker =>
    obtain rfl := Option.some.inj hs
    have processed := processDataSourceValue_queues h.queues value
    have untouched := processDataSourceValue_untouched c value
    exact h.works processed.1 untouched.1 processed.2 untouched.2
  · next uid attributes worker =>
    obtain rfl := Option.some.inj hs
    refine h.goes (recordAttributes_queues h.queues attributes) (recordAttributes_untouched c ..) ?_
    split <;> exact ⟨rfl, rfl⟩
  · next uid error after worker =>
    obtain rfl := Option.some.inj hs
    have idle := h.giving uid (by rw [worker]; rfl)
    exact h.goes (markUnavailable_queues h.queues idle error) (markUnavailable_untouched c ..) ⟨rfl, rfl⟩
  · next event after worker =>
    obtain rfl := Option.some.inj hs
    have queues : (c.enqueueEvent event).Queues := h.queues.spares (.same rfl rfl rfl rfl rfl)
    exact h.goes queues ⟨rfl, rfl, rfl, rfl⟩ after.bare
  · obtain rfl := Option.some.inj hs
    have queues : Queues { c with activeRequest := none } :=
      h.queues.spares ⟨rfl, rfl, rfl, rfl, fun a (ha : none = some a) => nomatch ha⟩
    exact h.goes queues ⟨rfl, rfl, rfl, rfl⟩ ⟨rfl, rfl⟩
  · obtain rfl := Option.some.inj hs
    obtain ⟨queues, idle⟩ := failTimedOutRequest_queues h.queues
    refine h.works queues (failTimedOutRequest_untouched c) (fun uid hu => ?_) ?_
    · split at hu
      · next uid' gone =>
        obtain rfl := Option.some.inj hu
        exact idle _ gone
      · cases hu
    · split <;> rfl
  · obtain rfl := Option.some.inj hs
    split
    · exact h.passes ⟨rfl, rfl⟩
    · refine h.fewer (Blank.queues ⟨rfl, fun _ => rfl, rfl, fun _ => rfl, rfl⟩) nofun rfl
        fun number => ?_
      simp [writes, WorkerPc.numbers, Client.close, clearSessionData]
      omega
  · split at hs
    · cases hs
    · split at hs
      · cases hs
      · obtain rfl := Option.some.inj hs
        have queues : (c.stopSubscriptions outcome).1.Queues :=
          h.queues.spares (.same rfl rfl rfl rfl rfl)
        exact h.goes queues ⟨rfl, rfl, rfl, rfl⟩ ⟨rfl, rfl⟩
  · next error worker =>
    obtain rfl := Option.some.inj hs
    have queues : ((c.enqueueEvent (.error error)).enqueueEvent (.stateChanged .failed)).Queues :=
      h.queues.spares (.same rfl rfl rfl rfl rfl)
    exact h.goes queues ⟨rfl, rfl, rfl, rfl⟩ ⟨rfl, rfl⟩
  · next worker =>
    obtain rfl := Option.some.inj hs
    exact h.next worker
  · next job worker =>
    obtain rfl := Option.some.inj hs
    split
    · exact h.passes ⟨rfl, rfl⟩
    · refine h.fewer (h.queues.spares (.same rfl rfl rfl rfl rfl)) nofun rfl fun number => ?_
      simp [writes, worker, WorkerPc.numbers, List.count_cons]
      omega

-- ---------------------------------------------------------------------------
-- Steps of the others
-- ---------------------------------------------------------------------------

/-- What `start` and `stop` may do next. -/
structure Governs (c c' : Client) : Prop where
  session : c.Spares c' ∨ c'.Blank
  requests : c'.requests = c.requests
  worker : c'.worker = c.worker ∨ c'.worker = .waits
  jobs : c'.controlPointJobs = c.controlPointJobs ∨ c'.controlPointJobs = []
  writer : c'.writer = c.writer ∨ c'.writer = .waits
  results : c'.controlPointResults = c.controlPointResults ∨ c'.controlPointResults = []
  ready : c'.ready = true → c.ready = true ∨ c.api = .ready
  starting : c'.api.phase = .starting → c.api.phase = .starting
  shutdown : c'.controlPointShutdown = c.controlPointShutdown ∨ c.api = .shutdown

theorem Governs.same (spares : c.Spares c') (requests : c'.requests = c.requests)
    (worker : c'.worker = c.worker) (jobs : c'.controlPointJobs = c.controlPointJobs)
    (writer : c'.writer = c.writer) (results : c'.controlPointResults = c.controlPointResults)
    (ready : c'.ready = c.ready) (starting : c'.api.phase = .starting → c.api.phase = .starting)
    (shutdown : c'.controlPointShutdown = c.controlPointShutdown) : c.Governs c' :=
  ⟨.inl spares, requests, .inl worker, .inl jobs, .inl writer, .inl results, fun h => .inl (ready ▸ h),
    starting, .inl shutdown⟩

theorem Governs.closes (blank : c'.Blank) (requests : c'.requests = c.requests)
    (worker : c'.worker = c.worker) (writer : c'.writer = c.writer)
    (results : c'.controlPointResults = []) (ready : c'.ready = true → c.ready = true)
    (starting : c'.api.phase ≠ .starting)
    (shutdown : c'.controlPointShutdown = c.controlPointShutdown) : c.Governs c' :=
  ⟨.inr blank, requests, .inl worker, .inr blank.jobs, .inl writer, .inr results,
    fun h => .inl (ready h), fun h => absurd h starting, .inl shutdown⟩

theorem runApi_governs (hs : c.runApi outcome = some c') : c.Governs c' := by
  have spared : ∀ {d : Client}, d.records = c.records → d.pendingRequests = c.pendingRequests →
      d.queuedUids = c.queuedUids → d.config = c.config → d.activeRequest = c.activeRequest →
      c.Spares d := Spares.same
  cases api : c.api with
  | idle =>
    simp only [Client.runApi, api] at hs
    cases hs
  | execWorker =>
    simp only [Client.runApi, api] at hs
    obtain rfl := Option.some.inj hs
    have starting : c.api.phase = .starting := by rw [api]; rfl
    split
    · exact .same (spared rfl rfl rfl rfl rfl) rfl rfl rfl rfl rfl rfl (fun _ => starting) rfl
    · split
      · exact .same (spared rfl rfl rfl rfl rfl) rfl rfl rfl rfl rfl rfl (fun _ => starting) rfl
      · exact ⟨.inl (spared rfl rfl rfl rfl rfl), rfl, .inr rfl, .inl rfl, .inl rfl, .inl rfl, .inl,
          fun _ => starting, .inl rfl⟩
  | execControlPointWorker =>
    simp only [Client.runApi, api] at hs
    obtain rfl := Option.some.inj hs
    have starting : c.api.phase = .starting := by rw [api]; rfl
    split
    · exact .same (spared rfl rfl rfl rfl rfl) rfl rfl rfl rfl rfl rfl (fun _ => starting) rfl
    · split
      · exact .same (spared rfl rfl rfl rfl rfl) rfl rfl rfl rfl rfl rfl (fun _ => starting) rfl
      · exact ⟨.inl (spared rfl rfl rfl rfl rfl), rfl, .inl rfl, .inl rfl, .inr rfl, .inl rfl, .inl,
          fun _ => starting, .inl rfl⟩
  | ready =>
    simp only [Client.runApi, api] at hs
    obtain rfl := Option.some.inj hs
    exact ⟨.inl (spared rfl rfl rfl rfl rfl), rfl, .inl rfl, .inl rfl, .inl rfl, .inl rfl,
      fun _ => .inr api, by rintro ⟨⟩, .inl rfl⟩
  | starting | resolvingServices | discoveringANCS | subscribingDataSource
  | subscribingNotificationSource | waitForServicesResolved | startNotifyData
  | startNotifyNotification | resolved | dataSubscribed | notificationSubscribed | controlPoint
  | dataSubscription | notificationSubscription =>
    simp only [Client.runApi, api] at hs
    obtain rfl := Option.some.inj hs
    exact .same (spared rfl rfl rfl rfl rfl) rfl rfl rfl rfl rfl rfl (fun _ => by rw [api]; rfl) rfl
  | discover =>
    simp only [Client.runApi, api] at hs
    split at hs
    · cases hs
    · obtain rfl := Option.some.inj hs
      split <;>
      exact .same (spared rfl rfl rfl rfl rfl) rfl rfl rfl rfl rfl rfl (fun _ => by rw [api]; rfl) rfl
  | failed | stopping | stopped | cleanupError | stopFailed | failCleanup =>
    simp only [Client.runApi, api] at hs
    obtain rfl := Option.some.inj hs
    exact .same (spared rfl rfl rfl rfl rfl) rfl rfl rfl rfl rfl rfl (by rintro ⟨⟩) rfl
  | shutdown =>
    simp only [Client.runApi, api] at hs
    obtain rfl := Option.some.inj hs
    exact ⟨.inl (spared rfl rfl rfl rfl rfl), rfl, .inl rfl, .inr rfl, .inl rfl, .inl rfl, .inl, by rintro ⟨⟩,
      .inr api⟩
  | failStartup | clear =>
    simp only [Client.runApi, api] at hs
    obtain rfl := Option.some.inj hs
    exact .closes ⟨rfl, fun _ => rfl, rfl, fun _ => rfl, rfl⟩ rfl rfl rfl rfl
      (fun ready => absurd (show false = true from ready) Bool.false_ne_true) (by rintro ⟨⟩) rfl
  | clearAgain =>
    simp only [Client.runApi, api] at hs
    obtain rfl := Option.some.inj hs
    exact .closes ⟨rfl, fun _ => rfl, rfl, fun _ => rfl, rfl⟩ rfl rfl rfl rfl id (by rintro ⟨⟩) rfl
  | stop =>
    simp only [Client.runApi, api] at hs
    obtain rfl := Option.some.inj hs
    split <;> exact .same (spared rfl rfl rfl rfl rfl) rfl rfl rfl rfl rfl rfl (by rintro ⟨⟩) rfl
  | lockWork =>
    simp only [Client.runApi, api] at hs
    split at hs
    · cases hs
    · obtain rfl := Option.some.inj hs
      exact .same (spared rfl rfl rfl rfl rfl) rfl rfl rfl rfl rfl rfl (by rintro ⟨⟩) rfl
  | stopSubscriptions =>
    simp only [Client.runApi, api] at hs
    split at hs
    · cases hs
    · obtain rfl := Option.some.inj hs
      refine .same (spared rfl rfl rfl rfl rfl) rfl rfl rfl rfl rfl rfl ?_ rfl
      dsimp only
      split <;> rintro ⟨⟩
  | waitWorker | waitControlPointWorker =>
    simp only [Client.runApi, api] at hs
    split at hs
    · split at hs
      · obtain rfl := Option.some.inj hs
        exact .same (spared rfl rfl rfl rfl rfl) rfl rfl rfl rfl rfl rfl (by rintro ⟨⟩) rfl
      · cases hs
    · obtain rfl := Option.some.inj hs
      exact .same (spared rfl rfl rfl rfl rfl) rfl rfl rfl rfl rfl rfl (by rintro ⟨⟩) rfl

theorem Scheduling.governed (h : c.Scheduling) (governs : c.Governs c') : c'.Scheduling := by
  have queues : c'.Queues := governs.session.elim h.queues.spares Blank.queues
  refine h.fewer queues (fun uid hu => ?_) governs.requests fun number => ?_
  · rcases governs.worker with same | waits
    · rcases governs.session with spares | blank
      · exact spares.pending ▸ h.giving uid (same ▸ hu)
      · simp [blank.pending]
    · rw [waits] at hu
      cases hu
  · have worker : c'.worker.numbers.count number ≤ c.worker.numbers.count number := by
      rcases governs.worker with same | waits
      · exact same ▸ Nat.le_refl _
      · simp [waits, WorkerPc.numbers]
    have writer : c'.writer.numbers.count number ≤ c.writer.numbers.count number := by
      rcases governs.writer with same | waits
      · exact same ▸ Nat.le_refl _
      · simp [waits, WriterPc.numbers]
    have jobs : (c'.controlPointJobs.map (·.number)).count number ≤
        (c.controlPointJobs.map (·.number)).count number := by
      rcases governs.jobs with same | none
      · exact same ▸ Nat.le_refl _
      · simp [none]
    have results : (c'.controlPointResults.map (·.number)).count number ≤
        (c.controlPointResults.map (·.number)).count number := by
      rcases governs.results with same | none
      · exact same ▸ Nat.le_refl _
      · simp [none]
    simp only [writes, List.count_append]
    omega

/-- The writer hands a write on, from the jobs to the results. -/
theorem Scheduling.runControlPointWrites (h : c.Scheduling)
    (hs : c.runControlPointWrites outcome = some c') : c'.Scheduling := by
  have moves : ∀ {d : Client}, c.Spares d → d.worker = c.worker → d.requests = c.requests →
      (∀ number, d.writes.count number ≤ c.writes.count number) → d.Scheduling :=
    fun spares worker requests fewer => by
      refine h.fewer (h.queues.spares spares) (fun uid hu => ?_) requests fewer
      exact spares.pending ▸ h.giving uid (worker ▸ hu)
  unfold Client.runControlPointWrites at hs
  split at hs
  · cases hs
  · next writer =>
    split at hs
    · obtain rfl := Option.some.inj hs
      refine moves (.same rfl rfl rfl rfl rfl) rfl rfl fun number => ?_
      simp [writes, writer, WriterPc.numbers]
    · split at hs
      · cases hs
      · next jobs =>
        obtain rfl := Option.some.inj hs
        refine moves (.same rfl rfl rfl rfl rfl) rfl rfl fun number => ?_
        simp [writes, writer, WriterPc.numbers, jobs, List.count_cons]
        omega
  · next job writer =>
    split at hs
    · cases hs
    · obtain rfl := Option.some.inj hs
      refine moves (.same rfl rfl rfl rfl rfl) rfl rfl fun number => ?_
      simp [writes, writer, WriterPc.numbers]
  · next job writer =>
    obtain rfl := Option.some.inj hs
    refine moves (.same rfl rfl rfl rfl rfl) rfl rfl fun number => ?_
    simp [writes, writer, WriterPc.numbers]
  · next result writer =>
    obtain rfl := Option.some.inj hs
    split
    · refine moves (.same rfl rfl rfl rfl rfl) rfl rfl fun number => ?_
      simp [writes, writer, WriterPc.numbers, List.count_cons]
    · refine moves (.same rfl rfl rfl rfl rfl) rfl rfl fun number => ?_
      simp [writes, writer, WriterPc.numbers, List.count_cons]

/-- A session starts with nothing pending, whatever its configuration. -/
theorem Scheduling.start (h : c.Scheduling) (isolated : c.Isolated False) (api : c.api = .idle)
    (deviceId : String) (config : Config) : (c.start deviceId config).Scheduling := by
  unfold Client.start
  split
  · exact h
  · split
    · exact h
    · next state =>
      have holds := isolated.phase
      rw [api] at holds
      have rest := holds.1 (Decidable.not_not.mp state)
      refine h.fewer (Blank.queues ⟨rest.jobs, rest.records, rest.pending, rest.queued, rest.active⟩)
        (fun uid hu => ?_) rfl fun _ => Nat.le_refl _
      have off : c.worker.gives = none := by rw [rest.worker]; rfl
      exact absurd hu (by simp [off])

theorem Scheduling.step {action : Action} (h : c.Scheduling) (isolated : c.Isolated False)
    (hs : c.step action = some c') : c'.Scheduling := by
  have aside : ∀ {d : Client}, c.Spares d → d.worker = c.worker → d.requests = c.requests →
      d.writes = c.writes → d.Scheduling := fun spares worker requests writes => by
    refine h.fewer (h.queues.spares spares) (fun uid hu => ?_) requests fun _ => writes ▸ Nat.le_refl _
    exact spares.pending ▸ h.giving uid (worker ▸ hu)
  cases action with
  | start deviceId config =>
    simp only [Client.step] at hs
    split at hs
    · next api =>
      obtain rfl := Option.some.inj hs
      exact h.start isolated api deviceId config
    · cases hs
  | callStop | tick =>
    obtain rfl := Option.some.inj hs
    exact aside (.same rfl rfl rfl rfl rfl) rfl rfl rfl
  | stop =>
    simp only [Client.step] at hs
    split at hs
    · obtain rfl := Option.some.inj hs
      exact aside (.same rfl rfl rfl rfl rfl) rfl rfl rfl
    · cases hs
  | api outcome => exact h.governed (runApi_governs hs)
  | worker outcome => exact h.runWorker hs
  | writer outcome => exact h.runControlPointWrites hs
  | gattEvent dataSource event =>
    simp only [Client.step] at hs
    split at hs
    · obtain rfl := Option.some.inj hs
      split
      · exact aside (.same rfl rfl rfl rfl rfl) rfl rfl rfl
      · exact h
    · cases hs

theorem Scheduling.new : ({} : Client).Scheduling where
  queues := Blank.queues ⟨rfl, fun _ => rfl, rfl, fun _ => rfl, rfl⟩
  giving := nofun
  once _ := Nat.zero_le _
  fresh _ _ := rfl

-- ---------------------------------------------------------------------------
-- A session takes jobs
-- ---------------------------------------------------------------------------

/-- A session that is up has not been told to shut the writer down. -/
def TakesJobs (c : Client) : Prop :=
  c.ready = true ∨ c.api.phase = .starting → c.controlPointShutdown = false

theorem TakesJobs.governed (h : c.TakesJobs) (isolated : c.Isolated False) (governs : c.Governs c') :
    c'.TakesJobs := fun up => by
  have before : c.ready = true ∨ c.api.phase = .starting := by
    rcases up with ready | starting
    · rcases governs.ready ready with ready | api
      · exact .inl ready
      · exact .inr (by rw [api]; rfl)
    · exact .inr (governs.starting starting)
  rcases governs.shutdown with same | api
  · exact same.trans (h before)
  · have holds := isolated.phase
    rw [api] at holds before
    rcases before with ready | starting
    · exact absurd (holds.2.1.ready.symm.trans ready) (by simp)
    · cases starting

theorem TakesJobs.runWorker (h : c.TakesJobs) (hs : c.runWorker outcome = some c') :
    c'.TakesJobs := by
  rcases runWorker_cases hs with ⟨works, -⟩ | ⟨error, -, -, rfl⟩ | ⟨error, error', -, rfl⟩
  · intro up
    rw [works.ready, works.api] at up
    exact works.shutdown.trans (h up)
  · rintro (ready | starting)
    · cases ready
    · exact h (.inr starting)
  · exact h

theorem TakesJobs.step {action : Action} (h : c.TakesJobs) (isolated : c.Isolated False)
    (hs : c.step action = some c') : c'.TakesJobs := by
  cases action with
  | start deviceId config =>
    simp only [Client.step] at hs
    split at hs
    · obtain rfl := Option.some.inj hs
      unfold Client.start
      split
      · exact h
      · split
        · exact h
        · exact fun _ => rfl
    · cases hs
  | callStop | tick =>
    obtain rfl := Option.some.inj hs
    exact h
  | stop =>
    simp only [Client.step] at hs
    split at hs
    · next api stops =>
      obtain rfl := Option.some.inj hs
      rintro (ready | starting)
      · exact h (.inl ready)
      · cases starting
    · cases hs
  | api outcome => exact h.governed isolated (runApi_governs hs)
  | worker outcome => exact h.runWorker hs
  | writer outcome =>
    obtain ⟨jobs, results, writer, rfl, -⟩ := runControlPointWrites_cases hs
    exact h
  | gattEvent dataSource event =>
    simp only [Client.step] at hs
    split at hs
    · obtain rfl := Option.some.inj hs
      split
      · exact h
      · exact h
    · cases hs

-- ---------------------------------------------------------------------------
-- Every reachable state
-- ---------------------------------------------------------------------------

structure Scheduled (c : Client) : Prop where
  nodup : c.pendingRequests.Nodup
  queued : ∀ uid, c.queuedUids uid = true ↔ uid ∈ c.pendingRequests
  recorded : ∀ uid ∈ c.pendingRequests, ∃ record, c.records uid = some record ∧
    record.unavailable = false
  active : ∀ active, c.activeRequest = some active →
    active.notification.uid ∉ c.pendingRequests
  single : ∀ active, c.activeRequest = some active → c.writes.count active.number ≤ 1
  bounded : c.config.maximumPendingNotifications ≠ 0 →
    c.pendingRequests.length ≤ c.config.maximumPendingNotifications
  -- A uid that is popped gets a request, and the request a job.
  starts : ∀ uid ∈ c.pendingRequests, uid ∉ c.startNextRequest.1.pendingRequests →
    ∃ active job, c.startNextRequest.1.activeRequest = some active ∧
      c.startNextRequest.2 = some job ∧ active.notification.uid = uid ∧ job.uid = uid ∧
      job.number = active.number
  -- Unless the session has been closed in between, the job is queued.
  queues : ∀ job, c.worker = .queues job → c.ready = true → ∃ c', c.runWorker {} = some c' ∧
    c'.controlPointJobs = c.controlPointJobs ++ [job]

theorem Queues.popped (h : c.Queues) (pending : uid ∈ c.pendingRequests)
    (popped : uid ∉ c.startNextRequest.1.pendingRequests) :
    ∃ active job, c.startNextRequest.1.activeRequest = some active ∧
      c.startNextRequest.2 = some job ∧ active.notification.uid = uid ∧ job.uid = uid ∧
      job.number = active.number := by
  rcases h.starts with idle | ⟨first, rest, active, job, requests, starts, named, number, ofJob, numbered⟩
  · rw [idle] at popped
    exact absurd pending popped
  · rw [starts] at popped ⊢
    rw [requests] at pending
    obtain rfl := (List.mem_cons.mp pending).resolve_right popped
    exact ⟨active, job, rfl, rfl, named, ofJob, numbered.trans number.symm⟩

theorem requests_scheduled (run : Reaches step {} c) : c.Scheduled := by
  obtain ⟨-, h, takes⟩ : c.Isolated False ∧ c.Scheduling ∧ c.TakesJobs :=
    run.invariant (I := fun c => c.Isolated False ∧ c.Scheduling ∧ c.TakesJobs)
      ⟨.new, .new, fun _ => rfl⟩ fun ⟨isolated, h, takes⟩ _ hs =>
        ⟨isolated.step False.elim hs, h.step isolated hs, takes.step isolated hs⟩
  exact
    { nodup := h.queues.nodup
      queued := h.queues.queued
      recorded := h.queues.recorded
      active := h.queues.active
      single := fun active _ => h.once active.number
      bounded := h.queues.bounded
      starts := fun uid pending popped => h.queues.popped pending popped
      queues := fun job worker ready => by
        have down := takes (.inl ready)
        simp [Client.runWorker, worker, ready, down] }

/-- Two uids are added while a request for the first one is active. -/
def twoAdded : List Action :=
  startup ++ List.replicate 24 (Action.worker {}) ++
    Action.gattEvent false (.valueChanged [0, 0, 0, 0, 7, 0, 0, 0]) ::
    .gattEvent false (.valueChanged [0, 0, 0, 0, 8, 0, 0, 0]) :: List.replicate 11 (.worker {})

theorem requests_scheduled_twoAdded : ∃ c : Client, (c.pendingRequests = [8] ∧ c.activeRequest.isSome ∧
    c.controlPointJobs.length = 1) ∧ c.Scheduled := by
  have h : ∃ c, Reaches step {} c ∧ c.pendingRequests = [8] ∧ c.activeRequest.isSome ∧
      c.controlPointJobs.length = 1 := ReachesBy.exists_of_any twoAdded (by decide +kernel)
  obtain ⟨c, run, state⟩ := h
  exact ⟨c, state, requests_scheduled run⟩

end Dmn.Ancs.Client
