import Dmn.Ancs.Client.Acknowledged

/-!
# The events about one notification

The order in which Added, Updated and Removed are reported about a uid. A notification is over when
its Removed event is processed, reported or not, and when its pending request is discarded together
with its record.
-/

namespace Dmn.Ancs.Client

open Dmn.Lib

-- ---------------------------------------------------------------------------
-- Logs
-- ---------------------------------------------------------------------------

def Event.adds (uid : UInt32) : Event → Bool
  | .notificationAdded notification => notification.uid = uid
  | _ => false

def Event.updates (uid : UInt32) : Event → Bool
  | .notificationUpdated notification => notification.uid = uid
  | _ => false

def Event.removes (uid : UInt32) : Event → Bool
  | .notificationRemoved notification => notification.uid = uid
  | _ => false

/-- What an entry has reported. -/
def Entry.emits (p : Event → Bool) : Entry → Bool
  | .emitted sent => p sent
  | _ => false

/-- The notification is over. -/
def Entry.ends (uid : UInt32) : Entry → Bool
  | .event notification => notification.kind = .removed && notification.uid = uid
  | .dropped other => other = uid
  | _ => false

/-- Added has been reported, and the notification is not over since. -/
def addedIn (uid : UInt32) : List Entry → Bool
  | [] => false
  | entry :: log => !entry.ends uid && (entry.emits (Event.adds uid) || addedIn uid log)

/-- It had been when the notification was over. -/
def addedBefore (uid : UInt32) : List Entry → Bool
  | [] => false
  | entry :: log => if entry.ends uid then addedIn uid log else addedBefore uid log

/-- Added is reported once before a notification is over. -/
def Once (uid : UInt32) : List Entry → Prop
  | [] => True
  | entry :: log => (entry.emits (Event.adds uid) = true → addedIn uid log = false) ∧ Once uid log

/-- Updated is reported after Added, and so is Removed, with a cutoff. -/
def InTurn (uid : UInt32) (cutoff : Bool) : List Entry → Prop
  | [] => True
  | entry :: log =>
    (entry.emits (Event.updates uid) = true → addedIn uid log = true) ∧
      (cutoff = true → entry.emits (Event.removes uid) = true → addedBefore uid log = true) ∧
      InTurn uid cutoff log

/-- The entry is not about how far the notification is. -/
def Entry.silent (uid : UInt32) (entry : Entry) : Bool :=
  !entry.ends uid && !entry.emits (Event.adds uid) && !entry.emits (Event.updates uid) &&
    !entry.emits (Event.removes uid)

variable {uid : UInt32} {log more : List Entry} {entry : Entry} {cutoff : Bool}

theorem Entry.silent_iff : entry.silent uid = true ↔ entry.ends uid = false ∧
    entry.emits (Event.adds uid) = false ∧ entry.emits (Event.updates uid) = false ∧
    entry.emits (Event.removes uid) = false := by
  simp [Entry.silent, and_assoc]

theorem addedIn_append (h : ∀ entry ∈ more, entry.silent uid = true) :
    addedIn uid (more ++ log) = addedIn uid log := by
  induction more with
  | nil => rfl
  | cons entry more ih =>
    obtain ⟨hentry, hmore⟩ := List.forall_mem_cons.mp h
    obtain ⟨hends, hadds, -, -⟩ := Entry.silent_iff.mp hentry
    simp [addedIn, hends, hadds, ih hmore]

theorem addedBefore_append (h : ∀ entry ∈ more, entry.silent uid = true) :
    addedBefore uid (more ++ log) = addedBefore uid log := by
  induction more with
  | nil => rfl
  | cons entry more ih =>
    obtain ⟨hentry, hmore⟩ := List.forall_mem_cons.mp h
    obtain ⟨hends, -, -, -⟩ := Entry.silent_iff.mp hentry
    simp [addedBefore, hends, ih hmore]

theorem Once.append (honce : Once uid log) (h : ∀ entry ∈ more, entry.silent uid = true) :
    Once uid (more ++ log) := by
  induction more with
  | nil => exact honce
  | cons entry more ih =>
    obtain ⟨hentry, hmore⟩ := List.forall_mem_cons.mp h
    obtain ⟨-, hadds, -, -⟩ := Entry.silent_iff.mp hentry
    refine ⟨fun hadded => ?_, ih hmore⟩
    rw [hadds] at hadded
    cases hadded

theorem InTurn.append (hturn : InTurn uid cutoff log) (h : ∀ entry ∈ more, entry.silent uid = true) :
    InTurn uid cutoff (more ++ log) := by
  induction more with
  | nil => exact hturn
  | cons entry more ih =>
    obtain ⟨hentry, hmore⟩ := List.forall_mem_cons.mp h
    obtain ⟨-, -, hupdates, hremoves⟩ := Entry.silent_iff.mp hentry
    refine ⟨fun hupdated => ?_, fun _ hremoved => ?_, ih hmore⟩
    · rw [hupdates] at hupdated
      cases hupdated
    · rw [hremoves] at hremoved
      cases hremoved

/-- An entry that reports nothing. -/
theorem Once.quiet (honce : Once uid log) (h : ∀ p, entry.emits p = false) : Once uid (entry :: log) := by
  refine ⟨fun hadds => ?_, honce⟩
  rw [h] at hadds
  cases hadds

theorem InTurn.quiet (hturn : InTurn uid cutoff log) (h : ∀ p, entry.emits p = false) :
    InTurn uid cutoff (entry :: log) := by
  refine ⟨fun hupdates => ?_, fun _ hremoves => ?_, hturn⟩
  · rw [h] at hupdates
    cases hupdates
  · rw [h] at hremoves
    cases hremoves

-- ---------------------------------------------------------------------------
-- Invariant
-- ---------------------------------------------------------------------------

variable {c c' : Client} {outcome : Outcome}

/-- The flag of the record, if there is one. -/
def flag (c : Client) (uid : UInt32) : Option Bool := (c.records uid).map (·.addedNotReported)

/-- No request can become active any more. -/
structure Over (c : Client) : Prop where
  ready : c.ready = false
  phase : c.api.phase ≠ .starting
  active : c.activeRequest = none
  record : ∀ uid attributes, c.worker = .record uid attributes → c.records uid = none

/-- What the worker is about to report. -/
def WorkerPc.emits (p : Event → Bool) : WorkerPc → Bool
  | .enqueue event _ => p event
  | _ => false

structure Reporting (uid : UInt32) (c : Client) : Prop where
  once : Once uid c.log
  starting : c.api.phase = .starting → addedIn uid c.log = false
  fresh : c.flag uid ≠ some false → c.Over ∨ addedIn uid c.log = false
  pending : c.worker.emits (Event.adds uid) = true →
    addedIn uid c.log = false ∧ (c.Over ∨ c.flag uid = some false)

structure Told (uid : UInt32) (c : Client) : Prop where
  inTurn : InTurn uid c.config.notificationDateCutoff.isSome c.log
  added : c.flag uid = some false → addedIn uid c.log = true ∨ c.worker.emits (Event.adds uid) = true
  updated : c.worker.emits (Event.updates uid) = true → addedIn uid c.log = true
  removed : c.config.notificationDateCutoff.isSome = true → c.worker.emits (Event.removes uid) = true →
    addedBefore uid c.log = true

/-- The worker is not about to report anything about the notification. -/
def WorkerPc.mute (uid : UInt32) (worker : WorkerPc) : Prop :=
  worker.emits (Event.adds uid) = false ∧ worker.emits (Event.updates uid) = false ∧
    worker.emits (Event.removes uid) = false

/-- A step that is not about the notification. -/
structure Passes (uid : UInt32) (c c' : Client) : Prop where
  flag : c'.flag uid = c.flag uid ∨ c.flag uid = none ∧ c'.flag uid = some true
  log : ∃ later, c'.log = later ++ c.log ∧ ∀ entry ∈ later, entry.silent uid = true
  config : c'.config = c.config
  ended : c.Over → c'.Over
  starting : c'.api.phase = .starting → c.api.phase = .starting
  worker : c'.worker = c.worker ∨ c'.worker.mute uid ∧ c.worker.emits (Event.adds uid) = false

theorem Passes.flag_false (h : c.Passes uid c') : c'.flag uid = some false ↔ c.flag uid = some false := by
  rcases h.flag with same | ⟨before, after⟩
  · rw [same]
  · simp [before, after]

theorem Reporting.passes (h : c.Reporting uid) (passes : c.Passes uid c') : c'.Reporting uid := by
  obtain ⟨later, log, silent⟩ := passes.log
  have added : addedIn uid c'.log = addedIn uid c.log := by rw [log, addedIn_append silent]
  refine ⟨log ▸ h.once.append silent, fun starting => ?_, fun fresh => ?_, fun pending => ?_⟩
  · exact added.trans (h.starting (passes.starting starting))
  · rw [added]
    exact (h.fresh fun before => fresh (passes.flag_false.mpr before)).imp_left passes.ended
  · rcases passes.worker with same | ⟨mute, -⟩
    · obtain ⟨none, ended⟩ := h.pending (same ▸ pending)
      exact ⟨added.trans none, ended.imp passes.ended passes.flag_false.mpr⟩
    · rw [mute.1] at pending
      cases pending

theorem Told.passes (h : c.Told uid) (passes : c.Passes uid c') : c'.Told uid := by
  obtain ⟨later, log, silent⟩ := passes.log
  have added : addedIn uid c'.log = addedIn uid c.log := by rw [log, addedIn_append silent]
  have before : addedBefore uid c'.log = addedBefore uid c.log := by rw [log, addedBefore_append silent]
  refine ⟨?_, fun reported => ?_, fun updated => ?_, fun cutoff removed => ?_⟩
  · rw [passes.config, log]
    exact h.inTurn.append silent
  · rw [added]
    rcases h.added (passes.flag_false.mp reported) with done | pending
    · exact .inl done
    · rcases passes.worker with same | ⟨-, none⟩
      · exact .inr (same ▸ pending)
      · rw [none] at pending
        cases pending
  · rw [added]
    rcases passes.worker with same | ⟨mute, -⟩
    · exact h.updated (same ▸ updated)
    · rw [mute.2.1] at updated
      cases updated
  · rw [before]
    rcases passes.worker with same | ⟨mute, -⟩
    · exact h.removed (passes.config ▸ cutoff) (same ▸ removed)
    · rw [mute.2.2] at removed
      cases removed

-- ---------------------------------------------------------------------------
-- Steps of `start` and `stop`
-- ---------------------------------------------------------------------------

/-- The session is over, with all that is known of it. -/
structure Ends (uid : UInt32) (c c' : Client) : Prop where
  flag : c'.flag uid = none
  log : ∃ more, c'.log = more ++ c.log ∧ ∀ entry ∈ more, entry.silent uid = true
  config : c'.config = c.config
  ended : c'.Over
  worker : c'.worker = c.worker

theorem Reporting.sessionEnds (h : c.Reporting uid) (ends : c.Ends uid c') : c'.Reporting uid := by
  obtain ⟨more, log, silent⟩ := ends.log
  have added : addedIn uid c'.log = addedIn uid c.log := by rw [log, addedIn_append silent]
  refine ⟨log ▸ h.once.append silent, fun starting => absurd starting ends.ended.phase,
    fun _ => .inl ends.ended,
    fun pending => ⟨?_, .inl ends.ended⟩⟩
  rw [added]
  exact (h.pending (ends.worker ▸ pending)).1

theorem Told.sessionEnds (h : c.Told uid) (ends : c.Ends uid c') : c'.Told uid := by
  obtain ⟨more, log, silent⟩ := ends.log
  have added : addedIn uid c'.log = addedIn uid c.log := by rw [log, addedIn_append silent]
  have before : addedBefore uid c'.log = addedBefore uid c.log := by rw [log, addedBefore_append silent]
  refine ⟨?_, fun reported => ?_, fun updated => ?_, fun cutoff removed => ?_⟩
  · rw [ends.config, log]
    exact h.inTurn.append silent
  · rw [ends.flag] at reported
    cases reported
  · rw [added]
    exact h.updated (ends.worker ▸ updated)
  · rw [before]
    exact h.removed (ends.config ▸ cutoff) (ends.worker ▸ removed)

/-- What `start` and `stop` do is not about the notification, or the session data are cleared. -/
theorem runApi_logs (hs : c.runApi outcome = some c') : c'.config = c.config ∧
    (∃ more, c'.log = more ++ c.log ∧ ∀ entry ∈ more, entry.silent uid = true) ∧
    (c'.records = c.records ∧ (c'.worker = c.worker ∨ c'.worker = .waits ∧ c.api.phase = .starting) ∨
      c'.Blank ∧ c'.worker = c.worker ∧ c'.api.phase ≠ .starting ∧
      (c'.ready = false ∨ c.api = .clearAgain ∧ c'.ready = c.ready)) := by
  have same : ∃ more, c.log = more ++ c.log ∧ ∀ entry ∈ more, entry.silent uid = true :=
    ⟨[], rfl, List.forall_mem_nil _⟩
  have notes : ∀ entry : Entry, entry.silent uid = true →
      ∃ more, entry :: c.log = more ++ c.log ∧ ∀ entry ∈ more, entry.silent uid = true :=
    fun entry silent => ⟨[entry], rfl, List.forall_mem_singleton.mpr silent⟩
  cases api : c.api with
  | idle =>
    simp only [Client.runApi, api] at hs
    cases hs
  | execWorker =>
    simp only [Client.runApi, api] at hs
    obtain rfl := Option.some.inj hs
    split
    · exact ⟨rfl, same, .inl ⟨rfl, .inl rfl⟩⟩
    · split
      · exact ⟨rfl, same, .inl ⟨rfl, .inl rfl⟩⟩
      · exact ⟨rfl, same, .inl ⟨rfl, .inr ⟨rfl, rfl⟩⟩⟩
  | execControlPointWorker =>
    simp only [Client.runApi, api] at hs
    obtain rfl := Option.some.inj hs
    split
    · exact ⟨rfl, same, .inl ⟨rfl, .inl rfl⟩⟩
    · split <;> exact ⟨rfl, same, .inl ⟨rfl, .inl rfl⟩⟩
  | starting | resolvingServices | discoveringANCS | subscribingDataSource
  | subscribingNotificationSource | ready | failed | stopping | stopped | cleanupError error
  | stopFailed =>
    simp only [Client.runApi, api] at hs
    obtain rfl := Option.some.inj hs
    exact ⟨rfl, notes _ rfl, .inl ⟨rfl, .inl rfl⟩⟩
  | waitForServicesResolved | startNotifyData | startNotifyNotification | resolved | dataSubscribed
  | notificationSubscribed | controlPoint id | dataSubscription | notificationSubscription | failCleanup error
  | shutdown =>
    simp only [Client.runApi, api] at hs
    obtain rfl := Option.some.inj hs
    exact ⟨rfl, same, .inl ⟨rfl, .inl rfl⟩⟩
  | discover =>
    simp only [Client.runApi, api] at hs
    split at hs
    · cases hs
    · obtain rfl := Option.some.inj hs
      split <;> exact ⟨rfl, same, .inl ⟨rfl, .inl rfl⟩⟩
  | failStartup error =>
    simp only [Client.runApi, api] at hs
    obtain rfl := Option.some.inj hs
    refine ⟨rfl, ⟨[.emitted (.error error), .cleared], rfl, ?_⟩,
      .inr ⟨⟨rfl, fun _ => rfl, rfl, fun _ => rfl, rfl⟩, rfl, by rintro ⟨⟩, .inl rfl⟩⟩
    exact List.forall_mem_cons.mpr ⟨rfl, List.forall_mem_singleton.mpr rfl⟩
  | clear =>
    simp only [Client.runApi, api] at hs
    obtain rfl := Option.some.inj hs
    exact ⟨rfl, notes _ rfl, .inr ⟨⟨rfl, fun _ => rfl, rfl, fun _ => rfl, rfl⟩, rfl, by rintro ⟨⟩, .inl rfl⟩⟩
  | clearAgain =>
    simp only [Client.runApi, api] at hs
    obtain rfl := Option.some.inj hs
    exact ⟨rfl, notes _ rfl, .inr ⟨⟨rfl, fun _ => rfl, rfl, fun _ => rfl, rfl⟩, rfl, by rintro ⟨⟩,
      .inr ⟨rfl, rfl⟩⟩⟩
  | stop =>
    simp only [Client.runApi, api] at hs
    obtain rfl := Option.some.inj hs
    split <;> exact ⟨rfl, same, .inl ⟨rfl, .inl rfl⟩⟩
  | lockWork | stopSubscriptions =>
    simp only [Client.runApi, api] at hs
    split at hs
    · cases hs
    · obtain rfl := Option.some.inj hs
      exact ⟨rfl, same, .inl ⟨rfl, .inl rfl⟩⟩
  | waitWorker | waitControlPointWorker =>
    simp only [Client.runApi, api] at hs
    split at hs
    · split at hs
      · obtain rfl := Option.some.inj hs
        exact ⟨rfl, same, .inl ⟨rfl, .inl rfl⟩⟩
      · cases hs
    · obtain rfl := Option.some.inj hs
      exact ⟨rfl, same, .inl ⟨rfl, .inl rfl⟩⟩

theorem emits_of_quiet {worker : WorkerPc} (quiet : worker.quiet) (p : Event → Bool) :
    worker.emits p = false := by
  cases worker <;> first | rfl | cases quiet

theorem emits_of_starting (isolated : c.Isolated False) (starting : c.api.phase = .starting)
    (p : Event → Bool) :
    c.worker.emits p = false := by
  have phase := isolated.phase
  rw [starting] at phase
  exact emits_of_quiet phase.1.quiet p

theorem runApi_passes (uid : UInt32) (isolated : c.Isolated False) (hs : c.runApi outcome = some c') :
    c.Passes uid c' ∨ c.Ends uid c' := by
  obtain ⟨config, log, ⟨records, worker⟩ | ⟨blank, worker, phase, ready⟩⟩ := runApi_logs hs
  · have governs := runApi_governs hs
    refine .inl
      { flag := .inl ?_, log, config, starting := governs.starting, ended := fun ended => ?_, worker := ?_ }
    · rw [flag, flag, records]
    · refine ⟨?_, fun starting => ended.phase (governs.starting starting), ?_, fun uid attributes before => ?_⟩
      · refine Bool.eq_false_iff.mpr fun on => ?_
        rcases governs.ready on with before | api
        · rw [ended.ready] at before
          cases before
        · exact ended.phase (by rw [api]; rfl)
      · rcases runApi_active hs with same | none
        · exact same.trans ended.active
        · exact none
      · rw [records]
        rcases worker with same | ⟨waits, -⟩
        · exact ended.record uid attributes (same ▸ before)
        · rw [waits] at before
          cases before
    · rcases worker with same | ⟨waits, starting⟩
      · exact .inl same
      · rw [waits]
        exact .inr ⟨⟨rfl, rfl, rfl⟩, emits_of_starting isolated starting _⟩
  · refine .inr
      { flag := ?_, log, config, worker, ended := ⟨?_, phase, blank.active, fun uid _ _ => blank.records uid⟩ }
    · rw [flag, blank.records]
      rfl
    · rcases ready with off | ⟨api, same⟩
      · exact off
      · have closed := isolated.phase
        rw [api] at closed
        exact same.trans closed.1.ready

-- ---------------------------------------------------------------------------
-- Steps of the event worker
-- ---------------------------------------------------------------------------

/-- The worker goes on without anything to report about the notification. -/
theorem Passes.works (works : c.Works c')
    (flag : c'.flag uid = c.flag uid ∨ c.flag uid = none ∧ c'.flag uid = some true)
    (log : ∃ more, c'.log = more ++ c.log ∧ ∀ entry ∈ more, entry.silent uid = true)
    (config : c'.config = c.config)
    (active : c.ready = false → c.activeRequest = none →
      c'.activeRequest = none ∧ ∀ uid attributes, c'.worker ≠ .record uid attributes)
    (worker : c'.worker.mute uid) (before : c.worker.emits (Event.adds uid) = false) : c.Passes uid c' where
  flag := flag
  log := log
  config := config
  ended ended := by
    obtain ⟨none, other⟩ := active ended.ready ended.active
    exact ⟨works.ready.trans ended.ready, works.api ▸ ended.phase, none,
      fun uid attributes same => absurd same (other uid attributes)⟩
  starting := works.api ▸ id
  worker := .inr ⟨worker, before⟩

theorem log_same (c : Client) (uid : UInt32) :
    ∃ more, c.log = more ++ c.log ∧ ∀ entry ∈ more, entry.silent uid = true :=
  ⟨[], rfl, List.forall_mem_nil _⟩

theorem log_entry {log : List Entry} (entry : Entry) (silent : entry.silent uid = true) :
    ∃ more, entry :: log = more ++ log ∧ ∀ entry ∈ more, entry.silent uid = true :=
  ⟨[entry], rfl, List.forall_mem_singleton.mpr silent⟩

/-- Only the place of the worker is another. -/
theorem Passes.goes {worker : WorkerPc} (mute : worker.mute uid)
    (plain : ∀ uid attributes, worker ≠ .record uid attributes)
    (before : c.worker.emits (Event.adds uid) = false) : c.Passes uid { c with worker } :=
  .works ((Works.refl c).goes _) (.inl rfl) (log_same c uid) rfl (fun _ none => ⟨none, plain⟩) mute before

theorem processGattPacket_mute (uid : UInt32) (c : Client) (packet : GattPacket) :
    (c.processGattPacket packet).mute uid ∧ ∀ uid attributes, c.processGattPacket packet ≠ .record
    uid attributes := by
  unfold processGattPacket
  split
  · exact ⟨⟨rfl, rfl, rfl⟩, nofun⟩
  · split
    · exact ⟨⟨rfl, rfl, rfl⟩, nofun⟩
    · exact ⟨⟨rfl, rfl, rfl⟩, nofun⟩
    · split
      · exact ⟨⟨rfl, rfl, rfl⟩, nofun⟩
      · split
        · split <;> exact ⟨⟨rfl, rfl, rfl⟩, nofun⟩
        · exact ⟨⟨rfl, rfl, rfl⟩, nofun⟩

theorem take_passes (before : c.worker = .waits) (hs : c.take = some c') : c.Passes uid c' := by
  have emits : c.worker.emits (Event.adds uid) = false := by rw [before]; rfl
  have takes : ∀ {d : Client}, c.Works d → d.records = c.records → d.log = c.log → d.config = c.config →
      d.activeRequest = c.activeRequest → d.worker.mute uid ∧ (∀ uid attributes,
        d.worker ≠ .record uid attributes) →
      c.Passes uid d := fun works records log config active worker =>
    .works works (.inl (by rw [flag, flag, records])) (log ▸ log_same c uid) config
      (fun _ none => ⟨active.trans none, worker.2⟩) worker.1 emits
  have works := take_works hs
  unfold Client.take at hs
  split at hs
  · obtain rfl := Option.some.inj hs
    exact takes works rfl rfl rfl rfl ⟨⟨rfl, rfl, rfl⟩, nofun⟩
  · split at hs
    · obtain rfl := Option.some.inj hs
      exact takes works rfl rfl rfl rfl ⟨⟨rfl, rfl, rfl⟩, nofun⟩
    · obtain rfl := Option.some.inj hs
      exact takes works rfl rfl rfl rfl ⟨⟨rfl, rfl, rfl⟩, nofun⟩
    · obtain rfl := Option.some.inj hs
      exact takes works rfl rfl rfl rfl ⟨⟨rfl, rfl, rfl⟩, nofun⟩
    · obtain rfl := Option.some.inj hs
      exact takes works rfl rfl rfl rfl ⟨⟨rfl, rfl, rfl⟩, nofun⟩
    · split at hs
      · obtain rfl := Option.some.inj hs
        exact takes works rfl rfl rfl rfl ⟨⟨rfl, rfl, rfl⟩, nofun⟩
      · cases hs
    · split at hs
      · obtain rfl := Option.some.inj hs
        exact takes works rfl rfl rfl rfl ⟨⟨rfl, rfl, rfl⟩, nofun⟩
      · cases hs

/-- A Removed event about the notification. -/
theorem Reporting.removeNotification {notification : Notification} {worker : WorkerPc}
    (h : c.Reporting notification.uid)
    (kind : notification.kind = .removed) (adds : worker.emits (Event.adds notification.uid) = false) :
    Reporting notification.uid { (c.removeNotification notification).1 with worker } := by
  have ends : addedIn notification.uid (Entry.event notification :: c.log) = false := by
    simp [addedIn, Entry.ends, kind]
  refine ⟨h.once.quiet (fun _ => rfl), fun _ => ends, fun _ => .inr ends, fun pending => ?_⟩
  rw [show worker.emits _ = false from adds] at pending
  cases pending

theorem Told.removeNotification {notification : Notification} (h : c.Told notification.uid)
    (kind : notification.kind = .removed) (before : c.worker = .notification notification) :
    Told notification.uid { (c.removeNotification notification).1 with
      worker := if (c.removeNotification notification).2 then .enqueue (.notificationRemoved notification) .next
        else .next } := by
  refine ⟨h.inTurn.quiet (fun _ => rfl), fun reported => ?_, fun updated => ?_, fun cutoff removed => ?_⟩
  · simp [flag, Client.removeNotification, Client.note, setRecord] at reported
  · dsimp only at updated
    split at updated <;> cases updated
  · dsimp only at removed
    split at removed
    next kept =>
      have cutoff : c.config.notificationDateCutoff.isSome = true := cutoff
      have reported : c.flag notification.uid = some false := by
        simp only [Client.removeNotification, cutoff, Bool.true_and] at kept
        rw [flag]
        cases found : c.records notification.uid with
        | none => simp [found] at kept
        | some record =>
          simp only [found, Bool.not_or, Bool.and_eq_true, Bool.not_eq_true'] at kept
          simp [kept.2]
      have added : addedIn notification.uid c.log = true := by
        rcases h.added reported with added | pending
        · exact added
        · rw [before] at pending
          cases pending
      show addedBefore notification.uid (.event notification :: c.log) = true
      simp [addedBefore, Entry.ends, kind, added]
    next => cases removed

/-- One about another. -/
theorem removeNotification_passes {notification : Notification} {worker : WorkerPc}
    (other : uid ≠ notification.uid)
    (mute : worker.mute uid) (plain : ∀ uid attributes, worker ≠ .record uid attributes)
    (before : c.worker.emits (Event.adds uid) = false) :
    c.Passes uid { (c.removeNotification notification).1 with worker } := by
  refine .works ((removeNotification_works c notification).goes _) (.inl ?_) (log_entry _ ?_) rfl
    (fun _ none => ⟨?_, plain⟩) mute before
  · simp [flag, Client.removeNotification, Client.note, setRecord, other]
  · simp [Entry.silent, Entry.ends, Entry.emits, other.symm]
  · simp [Client.removeNotification, Client.note, none]

-- ---------------------------------------------------------------------------
-- Added and Updated
-- ---------------------------------------------------------------------------

/-- The record is there, and nothing is pending for it yet. -/
theorem event_passes {notification : Notification} (kind : notification.kind ≠ .removed)
    (before : c.worker = .notification notification) :
    c.Passes uid ((c.setRecord notification.uid (some (c.recordOf notification))).note
      (.event notification)) := by
  refine {
    flag := ?_, log := log_entry _ ?_, config := rfl, ended := fun ended => ?_, starting := id,
    worker := .inl rfl }
  · by_cases same : uid = notification.uid
    · subst same
      cases found : c.records notification.uid with
      | none => exact .inr (by simp [flag, Client.note, setRecord, Client.recordOf, found])
      | some record => exact .inl (by simp [flag, Client.note, setRecord, Client.recordOf, found])
    · exact .inl (by simp [flag, Client.note, setRecord, same])
  · simp [Entry.silent, Entry.ends, Entry.emits, kind]
  · refine ⟨ended.ready, ended.phase, ended.active, fun uid attributes (there : c.worker = _) => ?_⟩
    rw [before] at there
    cases there

/-- The pending request of the notification is discarded. -/
structure Drops (uid : UInt32) (c c' : Client) : Prop where
  log : c'.log = .dropped uid :: c.log
  flag : c'.flag uid = none
  config : c'.config = c.config
  worker : c'.worker.mute uid

theorem Reporting.drops (h : c.Reporting uid) (drops : c.Drops uid c') : c'.Reporting uid := by
  have ends : addedIn uid c'.log = false := by simp [drops.log, addedIn, Entry.ends]
  refine ⟨drops.log ▸ h.once.quiet (fun _ => rfl), fun _ => ends, fun _ => .inr ends, fun pending => ?_⟩
  rw [drops.worker.1] at pending
  cases pending

theorem Told.drops (h : c.Told uid) (drops : c.Drops uid c') : c'.Told uid := by
  refine ⟨?_, fun reported => ?_, fun updated => ?_, fun _ removed => ?_⟩
  · rw [drops.log, drops.config]
    exact h.inTurn.quiet fun _ => rfl
  · rw [drops.flag] at reported
    cases reported
  · rw [drops.worker.2.1] at updated
    cases updated
  · rw [drops.worker.2.2] at removed
    cases removed

theorem dropPending_passes (c : Client) (added : UInt32) {worker : WorkerPc} (mute : worker.mute uid)
    (plain : ∀ uid attributes, worker ≠ .record uid attributes)
    (before : c.worker.emits (Event.adds uid) = false) :
    c.Passes uid { c.dropPending.1.pushPending added with worker } ∨
      c.Drops uid { c.dropPending.1.pushPending added with worker } := by
  have works := ((dropPending_works c).trans (pushPending_works _ added)).goes worker
  have active : c.activeRequest = none → (c.dropPending.1.pushPending added).activeRequest = none :=
    (activeRequest_dropPending c).trans
  revert works active
  unfold dropPending
  dsimp only
  split
  · split
    · exact fun works active => .inl (.works works (.inl rfl) (log_same c uid) rfl
        (fun _ none => ⟨active none, plain⟩) mute before)
    next droppedUid pendingRequests _ =>
      intro works active
      by_cases same : uid = droppedUid
      · subst same
        exact .inr ⟨rfl, by simp [flag, pushPending, Client.note, setRecord], rfl, mute⟩
      · refine .inl (.works works (.inl ?_) (log_entry _ ?_) rfl (fun _ none => ⟨active none,
          plain⟩) mute before)
        · simp [flag, pushPending, Client.note, setRecord, same]
        · simp [Entry.silent, Entry.ends, Entry.emits, Ne.symm same]
  · exact fun works active => .inl (.works works (.inl rfl) (log_same c uid) rfl
      (fun _ none => ⟨active none, plain⟩) mute before)

/-- An Added or Updated event, about the notification or another. -/
theorem addNotification_passes (uid : UInt32) {notification : Notification} {worker : WorkerPc}
    (kind : notification.kind ≠ .removed)
    (before : c.worker = .notification notification) (mute : worker.mute uid)
    (plain : ∀ uid attributes, worker ≠ .record uid attributes) :
    ∃ d, c.Passes uid d ∧ (d.Passes uid { (c.addNotification notification).1 with worker } ∨
      d.Drops uid { (c.addNotification notification).1 with worker }) := by
  refine ⟨_, event_passes kind before, ?_⟩
  unfold addNotification
  dsimp only
  have emits : c.worker.emits (Event.adds uid) = false := by rw [before]; rfl
  split
  · exact dropPending_passes _ notification.uid mute plain emits
  · exact .inl (.goes mute plain emits)

-- ---------------------------------------------------------------------------
-- Responses
-- ---------------------------------------------------------------------------

/-- The first complete response of the uid is not kept back by the cutoff. -/
def Delivers (uid : UInt32) (c : Client) : Action → Prop
  | .worker _ =>
    match c.worker with
    | .record other attributes =>
      other = uid → c.flag uid = some true → c.config.notificationDateCutoff.isSome = true →
        isBeforeCutoff attributes.date c.notificationDateCutoff = false
    | _ => True
  | _ => True

instance (c : Client) (action : Action) : Decidable (c.Delivers uid action) :=
  match action with
  | .worker _ =>
    have : Decidable (match c.worker with
        | .record other attributes =>
          other = uid → c.flag uid = some true → c.config.notificationDateCutoff.isSome = true →
            isBeforeCutoff attributes.date c.notificationDateCutoff = false
        | _ => True) :=
      match c.worker with
      | .record other attributes => (inferInstance : Decidable (other = uid → c.flag uid = some true →
          c.config.notificationDateCutoff.isSome = true →
            isBeforeCutoff attributes.date c.notificationDateCutoff = false))
      | .off | .waits | .picked _ | .works _ | .notification _ | .dataSource _ | .unavailable _ _ _
      | .enqueue _ _ | .complete | .timedOut | .fail _ | .cleanup _ | .report _ | .next | .queues _ =>
        isTrue trivial
    this
  | .start _ _ | .callStop | .stop | .api _ | .writer _ | .gattEvent _ _ | .tick => isTrue trivial

/-- Where the response leaves the worker. -/
def reporting (event : Option Event) : WorkerPc :=
  match event with
  | some event => .enqueue event .complete
  | none => .complete

theorem recordAttributes_passes {attributes : AttributeSet} (other : UInt32) (h : c.Queues)
    (before : c.worker = .record other attributes) (apart : other ≠ uid ∨ c.records uid = none) :
    c.Passes uid { (c.recordAttributes other attributes).1 with
      worker := reporting (c.recordAttributes other attributes).2 } := by
  have emits : c.worker.emits (Event.adds uid) = false := by rw [before]; rfl
  unfold recordAttributes
  split
  · exact .goes ⟨rfl, rfl, rfl⟩ (by rintro _ _ ⟨⟩) emits
  next record found =>
    have named := h.named other record found
    have different : other ≠ uid := by
      rintro rfl
      rcases apart with different | none
      · exact different rfl
      · rw [found] at none
        cases none
    dsimp only
    refine .works ((setRecord_works c _ _).goes _) (.inl ?_) (log_same c uid) rfl (fun _ none => ⟨none,
      ?_⟩) ?_ emits
    · simp [flag, setRecord, different.symm]
    · unfold reporting
      split <;> rintro _ _ ⟨⟩
    · split
      · exact ⟨rfl, rfl, rfl⟩
      · split <;> simp [reporting, WorkerPc.mute, WorkerPc.emits, Event.adds, Event.updates,
          Event.removes, named, different]

theorem reporting_emits {event : Option Event} {p : Event → Bool} (h : (reporting event).emits p = true) :
    ∃ sent, event = some sent ∧ p sent = true := by
  cases event with
  | none => cases h
  | some sent => exact ⟨sent, rfl, h⟩

theorem Reporting.recordAttributes {attributes : AttributeSet} (h : c.Reporting uid)
    (before : c.worker = .record uid attributes) {record : NotificationRecord}
    (found : c.records uid = some record) :
    Reporting uid { (c.recordAttributes uid attributes).1 with
      worker := reporting (c.recordAttributes uid attributes).2 } := by
  have answered : flag (c.recordAttributes uid attributes).1 uid = some false := by
    simp [flag, Client.recordAttributes, found, setRecord]
  have log : (c.recordAttributes uid attributes).1.log = c.log := by
    simp [Client.recordAttributes, found, setRecord]
  have api : (c.recordAttributes uid attributes).1.api = c.api := (recordAttributes_works c uid attributes).api
  refine ⟨?_, fun starting => ?_, fun fresh => absurd answered fresh, fun pending => ⟨?_, .inr answered⟩⟩
  · exact log ▸ h.once
  · exact (congrArg _ log).trans (h.starting (api ▸ starting))
  · obtain ⟨sent, event, adds⟩ := reporting_emits pending
    have first : record.addedNotReported = true := by
      simp only [Client.recordAttributes, found] at event
      split at event
      · cases event
      · obtain rfl := Option.some.inj event
        cases first : record.addedNotReported with
        | true => rfl
        | false =>
          rw [first] at adds
          cases adds
    refine (congrArg _ log).trans ?_
    rcases h.fresh (by simp [flag, found, first]) with ended | none
    · rw [ended.record uid attributes before] at found
      cases found
    · exact none

theorem Told.recordAttributes {attributes : AttributeSet} (h : c.Told uid)
    (before : c.worker = .record uid attributes)
    (delivers : c.Delivers uid (.worker outcome)) {record : NotificationRecord}
    (found : c.records uid = some record)
    (named : record.notification.uid = uid) :
    Told uid { (c.recordAttributes uid attributes).1 with
      worker := reporting (c.recordAttributes uid attributes).2 } := by
  have log : (c.recordAttributes uid attributes).1.log = c.log := by
    simp [Client.recordAttributes, found, setRecord]
  have config : (c.recordAttributes uid attributes).1.config = c.config := by
    simp [Client.recordAttributes, found, setRecord]
  have emits : ∀ p, c.worker.emits p = false := fun p => by rw [before]; rfl
  have added : record.addedNotReported = false → addedIn uid c.log = true := fun reported => by
    rcases h.added (by simp [flag, found, reported]) with added | pending
    · exact added
    · rw [emits] at pending
      cases pending
  refine ⟨?_, fun _ => ?_, fun updated => ?_, fun _ removed => ?_⟩
  · show InTurn uid (c.recordAttributes uid attributes).1.config.notificationDateCutoff.isSome _
    rw [config]
    exact log ▸ h.inTurn
  · cases first : record.addedNotReported with
    | false => exact .inl ((congrArg _ log).trans (added first))
    | true =>
      have kept : (c.config.notificationDateCutoff.isSome && isBeforeCutoff attributes.date
        c.notificationDateCutoff) =
          false := by
        simp only [Delivers, before] at delivers
        cases cutoff : c.config.notificationDateCutoff.isSome with
        | false => rfl
        | true => exact delivers trivial (by simp [flag, found, first]) cutoff
      refine .inr ?_
      simp [Client.recordAttributes, found, first, kept, reporting, WorkerPc.emits, Event.adds, named]
  · obtain ⟨sent, event, updates⟩ := reporting_emits updated
    refine (congrArg _ log).trans (added ?_)
    simp only [Client.recordAttributes, found] at event
    split at event
    · cases event
    · obtain rfl := Option.some.inj event
      cases first : record.addedNotReported with
      | false => rfl
      | true =>
        rw [first] at updates
        cases updates
  · obtain ⟨sent, event, removes⟩ := reporting_emits removed
    simp only [Client.recordAttributes, found] at event
    split at event
    · cases event
    · obtain rfl := Option.some.inj event
      split at removes <;> cases removes

-- ---------------------------------------------------------------------------
-- Events
-- ---------------------------------------------------------------------------

theorem after_mute (after : After) : after.pc.mute uid := by
  cases after <;> exact ⟨rfl, rfl, rfl⟩

theorem after_plain (after : After) (uid : UInt32) (attributes : AttributeSet) :
    after.pc ≠ .record uid attributes := by
  cases after <;> exact nofun

theorem Reporting.enqueue {event : Event} {after : After} (h : c.Reporting uid) (isolated : c.Isolated False)
    (before : c.worker = .enqueue event after) :
    Reporting uid { c.enqueueEvent event with worker := after.pc } := by
  have emits : ∀ p, c.worker.emits p = p event := fun p => by rw [before]; rfl
  have still : c.Over → Over { c.enqueueEvent event with worker := after.pc } := fun ended =>
    ⟨ended.ready, ended.phase, ended.active, fun uid _ there => absurd there (after_plain after uid _)⟩
  have started : c.api.phase ≠ .starting := fun starting => by
    have phase := isolated.phase
    rw [starting] at phase
    have quiet := phase.1.quiet
    rw [before] at quiet
    cases quiet
  refine ⟨⟨fun adds => ?_, h.once⟩, fun starting => ?_, fun fresh => ?_, fun pending => ?_⟩
  · exact (h.pending ((emits _).trans adds)).1
  · exact absurd starting started
  · cases adds : event.adds uid with
    | false =>
      refine (h.fresh fresh).imp still fun none => ?_
      simp [Client.enqueueEvent, addedIn, Entry.ends, Entry.emits, adds, none]
    | true =>
      rcases (h.pending ((emits _).trans adds)).2 with ended | reported
      · exact .inl (still ended)
      · exact absurd reported fresh
  · rw [(after_mute after).1] at pending
    cases pending

theorem Told.enqueue {event : Event} {after : After} (h : c.Told uid)
    (before : c.worker = .enqueue event after) :
    Told uid { c.enqueueEvent event with worker := after.pc } := by
  have emits : ∀ p, c.worker.emits p = p event := fun p => by rw [before]; rfl
  have mute : after.pc.mute uid := after_mute after
  refine ⟨⟨fun updates => h.updated ((emits _).trans updates), fun cutoff removes => ?_, h.inTurn⟩,
    fun reported => ?_,
    fun updated => ?_, fun _ removed => ?_⟩
  · exact h.removed cutoff ((emits _).trans removes)
  · refine .inl ?_
    rcases h.added reported with added | pending
    · simp [Client.enqueueEvent, addedIn, Entry.ends, added]
    · simp [Client.enqueueEvent, addedIn, Entry.ends, Entry.emits, (emits _).symm.trans pending]
  · rw [mute.2.1] at updated
    cases updated
  · rw [mute.2.2] at removed
    cases removed

-- ---------------------------------------------------------------------------
-- Steps
-- ---------------------------------------------------------------------------

/-- What a step keeps. -/
structure Follows (uid : UInt32) (delivers : Prop) (c c' : Client) : Prop where
  reporting : c.Reporting uid → c'.Reporting uid
  told : delivers → c.Told uid → c'.Told uid

theorem Follows.passes {delivers : Prop} (passes : c.Passes uid c') : c.Follows uid delivers c' :=
  ⟨fun h => h.passes passes, fun _ h => h.passes passes⟩

theorem Follows.plain {delivers : Prop} {worker : WorkerPc} (mute : worker.mute uid)
    (plain : ∀ uid attributes, worker ≠ .record uid attributes)
    (before : c.worker.emits (Event.adds uid) = false) :
    c.Follows uid delivers { c with worker } :=
  .passes (.goes mute plain before)

/-- The records are the same, and so is all that `Over` is about. -/
theorem Follows.aside {delivers : Prop} (records : c'.records = c.records) (config : c'.config = c.config)
    (log : ∃ more, c'.log = more ++ c.log ∧ ∀ entry ∈ more, entry.silent uid = true)
    (ready : c'.ready = c.ready)
    (api : c'.api = c.api) (active : c.activeRequest = none → c'.activeRequest = none)
    (worker : c'.worker.mute uid ∧ ∀ uid attributes, c'.worker ≠ .record uid attributes)
    (before : c.worker.emits (Event.adds uid) = false) : c.Follows uid delivers c' :=
  .passes {
    flag := .inl (by rw [flag, flag, records])
    log, config
    ended := fun ended => ⟨ready.trans ended.ready, api ▸ ended.phase, active ended.active,
      fun uid attributes there => absurd there (worker.2 uid attributes)⟩
    starting := api ▸ id
    worker := .inr ⟨worker.1, before⟩ }

/-- The worker closes the session, perhaps while another one is being started. -/
theorem Follows.closes {delivers : Prop} (flag : c'.flag uid = none) (log : c'.log = .cleared :: c.log)
    (config : c'.config = c.config) (api : c'.api = c.api) (ready : c'.ready = false)
    (active : c'.activeRequest = none)
    (worker : c'.worker.mute uid ∧ ∀ uid attributes, c'.worker ≠ .record uid attributes) :
    c.Follows uid delivers c' := by
  have added : addedIn uid c'.log = addedIn uid c.log := by
    rw [log]
    simp [addedIn, Entry.ends, Entry.emits]
  refine ⟨fun h => ⟨?_, fun starting => ?_, fun _ => ?_, fun pending => ?_⟩, fun _ h =>
    ⟨?_, fun reported => ?_, fun updated => ?_, fun _ removed => ?_⟩⟩
  · rw [log]
    exact h.once.quiet fun _ => rfl
  · exact added.trans (h.starting (api ▸ starting))
  · by_cases starting : c.api.phase = .starting
    · exact .inr (added.trans (h.starting starting))
    · exact .inl ⟨ready, api ▸ starting, active, fun uid attributes there => absurd there
        (worker.2 uid attributes)⟩
  · rw [worker.1.1] at pending
    cases pending
  · rw [log, config]
    exact h.inTurn.quiet fun _ => rfl
  · rw [flag] at reported
    cases reported
  · rw [worker.1.2.1] at updated
    cases updated
  · rw [worker.1.2.2] at removed
    cases removed

/-- Whether something is reported makes no difference, if it is about something else. -/
theorem mute_ite (reported : Bool) {event : Event} (mute : (WorkerPc.enqueue event .next).mute uid) :
    (if reported then WorkerPc.enqueue event .next else .next).mute uid := by
  cases reported
  · exact ⟨rfl, rfl, rfl⟩
  · exact mute

theorem plain_ite (reported : Bool) (event : Event) (uid : UInt32) (attributes : AttributeSet) :
    (if reported then WorkerPc.enqueue event .next else .next) ≠ .record uid attributes := by
  cases reported <;> exact nofun

theorem removed_adds (reported : Bool) (notification : Notification) :
    (if reported then WorkerPc.enqueue (.notificationRemoved notification) .next else .next).emits
    (Event.adds uid) =
      false := by
  cases reported <;> rfl

theorem acknowledge_passes (c : Client) (other : UInt32) (before : c.worker.emits (Event.adds uid) = false) :
    c.Passes uid { c.acknowledgeControlPointWrite other with worker := .next } := by
  have works := (acknowledge_works c other).goes .next
  revert works
  unfold acknowledgeControlPointWrite
  split
  · exact fun _ => .goes ⟨rfl, rfl, rfl⟩ nofun before
  next active found =>
    split
    · exact fun works => .works works (.inl rfl) (log_same c uid) rfl
        (fun _ none => by rw [found] at none; cases none) ⟨rfl, rfl, rfl⟩ before
    · exact fun _ => .goes ⟨rfl, rfl, rfl⟩ nofun before

theorem processDataSourceValue_passes (c : Client) (value : List UInt8)
    (before : c.worker.emits (Event.adds uid) = false) : c.Passes uid (c.processDataSourceValue value) := by
  have works := processDataSourceValue_works c value
  revert works
  unfold processDataSourceValue
  split
  · exact fun _ => .goes ⟨rfl, rfl, rfl⟩ nofun before
  next active found =>
    intro works
    refine .works works (.inl rfl) (log_same c uid) rfl (fun _ none => ?_) ?_ before
    · rw [found] at none
      cases none
    · dsimp only
      split
      · split <;> exact ⟨rfl, rfl, rfl⟩
      · exact ⟨rfl, rfl, rfl⟩
      · split <;> exact ⟨rfl, rfl, rfl⟩

/-- The flag of a record that is marked. -/
theorem flag_unavailable (c : Client) (other : UInt32) {record : NotificationRecord}
    (found : c.records other = some record) :
    flag (c.setRecord other (some { record with unavailable := true })) uid = c.flag uid := by
  by_cases same : uid = other
  · subst same
    simp [flag, setRecord, found]
  · simp [flag, setRecord, same]

theorem markUnavailable_passes (c : Client) (other : UInt32) (error : Error) (after : After)
    (before : c.worker.emits (Event.adds uid) = false) :
    c.Passes uid { (c.markUnavailable other error).1 with
      worker := .enqueue (c.markUnavailable other error).2 after } := by
  have works := markUnavailable_works c other error
  revert works
  unfold markUnavailable
  split
  next record found =>
    exact fun works => .works (works.goes _) (.inl (flag_unavailable c other found)) (log_entry _ rfl) rfl
      (fun _ none => ⟨none, nofun⟩) ⟨rfl, rfl, rfl⟩ before
  next =>
    exact fun works => .works (works.goes _) (.inl rfl) (log_entry _ rfl) rfl
      (fun _ none => ⟨none, nofun⟩) ⟨rfl, rfl, rfl⟩ before

theorem failTimedOutRequest_passes (c : Client) (before : c.worker.emits (Event.adds uid) = false) :
    c.Passes uid { c.failTimedOutRequest.1 with
      worker := match c.failTimedOutRequest.2 with
        | some uid => .unavailable uid responseTimeout (.fail responseTimeout)
        | none => .next } := by
  have works := failTimedOutRequest_works c
  revert works
  unfold failTimedOutRequest
  split
  · exact fun _ => .goes ⟨rfl, rfl, rfl⟩ nofun before
  next active found =>
    split
    · intro works
      refine .works (works.goes _) (.inl ?_) (log_entry _ rfl) rfl (fun _ _ => ⟨rfl, nofun⟩) ⟨rfl,
        rfl, rfl⟩ before
      dsimp only [Client.note]
      cases there : c.records active.notification.uid with
      | none =>
        by_cases same : uid = active.notification.uid
        · subst same
          simp [flag, setRecord, there]
        · simp [flag, setRecord, same]
      | some record => exact flag_unavailable c _ there
    · exact fun _ => .goes ⟨rfl, rfl, rfl⟩ nofun before

theorem startNextRequest_passes (c : Client) (before : c.worker.emits (Event.adds uid) = false) :
    c.Passes uid { c.startNextRequest.1 with
      worker := match c.startNextRequest.2 with
        | some job => .queues job
        | none => .waits } := by
  have works := startNextRequest_works c
  revert works
  unfold startNextRequest
  split
  next ready active pending =>
    have off : ∀ {p : Prop}, c.ready = false → p := fun off => by
      rw [ready] at off
      cases off
    dsimp only
    split
    · exact fun works => .works (works.goes _) (.inl rfl) (log_same c uid) rfl (fun no => off no) ⟨rfl,
        rfl, rfl⟩ before
    · split
      · exact fun works => .works (works.goes _) (.inl rfl) (log_same c uid) rfl (fun no => off no) ⟨rfl,
          rfl, rfl⟩ before
      · exact fun works => .works (works.goes _) (.inl rfl) (log_entry _ rfl) rfl (fun no => off no)
          ⟨rfl, rfl, rfl⟩ before
  · exact fun _ => .goes ⟨rfl, rfl, rfl⟩ nofun before

theorem runWorker_follows (isolated : c.Isolated False) (queues : c.Queues)
    (hs : c.runWorker outcome = some c') :
    c.Follows uid (c.Delivers uid (.worker outcome)) c' := by
  unfold Client.runWorker at hs
  split at hs
  · cases hs
  · next before => exact .passes (take_passes before hs)
  · next item before =>
    split at hs
    · cases hs
    · obtain rfl := Option.some.inj hs
      exact .plain ⟨rfl, rfl, rfl⟩ nofun (by rw [before]; rfl)
  · next before =>
    obtain rfl := Option.some.inj hs
    exact .plain ⟨rfl, rfl, rfl⟩ nofun (by rw [before]; rfl)
  · next packet before =>
    obtain rfl := Option.some.inj hs
    have mute := processGattPacket_mute uid c packet
    exact .plain mute.1 mute.2 (by rw [before]; rfl)
  · next result before =>
    obtain rfl := Option.some.inj hs
    have emits : c.worker.emits (Event.adds uid) = false := by rw [before]; rfl
    split
    · exact .plain ⟨rfl, rfl, rfl⟩ nofun emits
    · exact .passes (acknowledge_passes c result.uid emits)
  · next before =>
    obtain rfl := Option.some.inj hs
    refine .plain ?_ ?_ (by rw [before]; rfl)
    · split <;> exact ⟨rfl, rfl, rfl⟩
    · split <;> exact nofun
  · next notification before =>
    obtain rfl := Option.some.inj hs
    split
    next kind =>
      by_cases same : uid = notification.uid
      · subst same
        exact ⟨fun h => h.removeNotification kind (removed_adds _ notification), fun _ h =>
          h.removeNotification kind before⟩
      · refine .passes (removeNotification_passes same (mute_ite _ ⟨rfl, rfl, ?_⟩) (plain_ite _ _) (by
          rw [before]; rfl))
        simp [WorkerPc.emits, Event.removes, Ne.symm same]
    next kind =>
      obtain ⟨d, event, passes | drops⟩ := addNotification_passes uid kind before
        (mute_ite (c.addNotification notification).2 ⟨rfl, rfl, rfl⟩) (plain_ite _ (.error backlogLimit))
      · exact ⟨fun h => (h.passes event).passes passes, fun _ h => (h.passes event).passes passes⟩
      · exact ⟨fun h => (h.passes event).drops drops, fun _ h => (h.passes event).drops drops⟩
  · next value before =>
    obtain rfl := Option.some.inj hs
    exact .passes (processDataSourceValue_passes c value (by rw [before]; rfl))
  · next other attributes before =>
    obtain rfl := Option.some.inj hs
    by_cases same : other = uid
    · subst same
      rcases Option.eq_none_or_eq_some (c.records other) with none | ⟨record, found⟩
      · exact .passes (recordAttributes_passes other queues before (.inr none))
      · exact ⟨fun h => h.recordAttributes before found,
          fun delivers h => h.recordAttributes before delivers found (queues.named other record found)⟩
    · exact .passes (recordAttributes_passes other queues before (.inl same))
  · next other error after before =>
    obtain rfl := Option.some.inj hs
    exact .passes (markUnavailable_passes c other error after (by rw [before]; rfl))
  · next event after before =>
    obtain rfl := Option.some.inj hs
    exact ⟨fun h => h.enqueue isolated before, fun _ h => h.enqueue before⟩
  · next before =>
    obtain rfl := Option.some.inj hs
    exact .aside rfl rfl (log_same c uid) rfl rfl (fun _ => rfl) ⟨⟨rfl, rfl, rfl⟩, nofun⟩ (by rw [before]; rfl)
  · next before =>
    obtain rfl := Option.some.inj hs
    exact .passes (failTimedOutRequest_passes c (by rw [before]; rfl))
  · next error before =>
    obtain rfl := Option.some.inj hs
    split
    · exact .plain ⟨rfl, rfl, rfl⟩ nofun (by rw [before]; rfl)
    · exact .closes rfl rfl rfl rfl rfl rfl ⟨⟨rfl, rfl, rfl⟩, nofun⟩
  · next error before =>
    split at hs
    · cases hs
    · split at hs
      · cases hs
      · obtain rfl := Option.some.inj hs
        exact .aside rfl rfl (log_same c uid) rfl rfl (fun none => none) ⟨⟨rfl, rfl, rfl⟩, nofun⟩ (by
          rw [before]; rfl)
  · next error before =>
    obtain rfl := Option.some.inj hs
    refine .aside rfl rfl ⟨[.emitted (.stateChanged .failed), .emitted (.error error)], rfl,
      ?_⟩ rfl rfl (fun none => none)
      ⟨⟨rfl, rfl, rfl⟩, nofun⟩ (by rw [before]; rfl)
    exact List.forall_mem_cons.mpr ⟨rfl, List.forall_mem_singleton.mpr rfl⟩
  · next before =>
    obtain rfl := Option.some.inj hs
    exact .passes (startNextRequest_passes c (by rw [before]; rfl))
  · next job before =>
    obtain rfl := Option.some.inj hs
    have emits : c.worker.emits (Event.adds uid) = false := by rw [before]; rfl
    split
    · exact .plain ⟨rfl, rfl, rfl⟩ nofun emits
    · exact .aside rfl rfl (log_same c uid) rfl rfl (fun none => none) ⟨⟨rfl, rfl, rfl⟩, nofun⟩ emits

theorem Follows.start {delivers : Prop} (isolated : c.Isolated False) (api : c.api = .idle) (deviceId : String)
    (config : Config) : c.Follows uid delivers (c.start deviceId config) := by
  unfold Client.start
  split
  · exact ⟨id, fun _ => id⟩
  · split
    · exact ⟨id, fun _ => id⟩
    next state =>
      have holds := isolated.phase
      rw [api] at holds
      have rest := holds.1 (Decidable.not_not.mp state)
      have none : c.flag uid = none := by rw [flag, rest.records]; rfl
      have emits : ∀ p, c.worker.emits p = false := fun p => by rw [rest.worker]; rfl
      refine ⟨fun _ => ⟨trivial, fun _ => rfl, fun _ => .inr rfl, fun pending => ?_⟩,
        fun _ _ => ⟨trivial, fun reported => ?_, fun updated => ?_, fun _ removed => ?_⟩⟩
      · cases (emits _).symm.trans pending
      · cases none.symm.trans reported
      · cases (emits _).symm.trans updated
      · cases (emits _).symm.trans removed

theorem step_follows {action : Action} (isolated : c.Isolated False) (queues : c.Queues)
    (hs : c.step action = some c') : c.Follows uid (c.Delivers uid action) c' := by
  have aside : ∀ {d : Client}, d.records = c.records → d.log = c.log → d.config = c.config → d.ready = c.ready →
      (d.api.phase = .starting → c.api.phase = .starting) → d.activeRequest = c.activeRequest →
      d.worker = c.worker → c.Follows uid (c.Delivers uid action) d :=
    fun records log config ready starting active worker => .passes {
      flag := .inl (by rw [flag, flag, records])
      log := log ▸ log_same c uid
      config, starting
      ended := fun ended => ⟨ready.trans ended.ready, fun before => ended.phase (starting before),
        active.trans ended.active, fun uid attributes there => records ▸ ended.record uid attributes
          (worker ▸ there)⟩
      worker := .inl worker }
  cases action with
  | start deviceId config =>
    simp only [Client.step] at hs
    split at hs
    · next api =>
      obtain rfl := Option.some.inj hs
      exact .start isolated api deviceId config
    · cases hs
  | callStop | tick =>
    obtain rfl := Option.some.inj hs
    exact aside rfl rfl rfl rfl id rfl rfl
  | stop =>
    simp only [Client.step] at hs
    split at hs
    · obtain rfl := Option.some.inj hs
      exact aside rfl rfl rfl rfl (by rintro ⟨⟩) rfl rfl
    · cases hs
  | api outcome =>
    rcases runApi_passes uid isolated hs with passes | ends
    · exact .passes passes
    · exact ⟨fun h => h.sessionEnds ends, fun _ h => h.sessionEnds ends⟩
  | worker outcome => exact runWorker_follows isolated queues hs
  | writer outcome =>
    obtain ⟨jobs, results, writer, rfl, -⟩ := runControlPointWrites_cases hs
    exact aside rfl rfl rfl rfl id rfl rfl
  | gattEvent dataSource event =>
    simp only [Client.step] at hs
    split at hs
    · obtain rfl := Option.some.inj hs
      split
      · exact aside rfl rfl rfl rfl id rfl rfl
      · exact ⟨id, fun _ => id⟩
    · cases hs

-- ---------------------------------------------------------------------------
-- Runs
-- ---------------------------------------------------------------------------

theorem Reporting.new (uid : UInt32) : ({} : Client).Reporting uid where
  once := trivial
  starting _ := rfl
  fresh _ := .inr rfl
  pending (pending : false = true) := nomatch pending

theorem Told.new (uid : UInt32) : ({} : Client).Told uid where
  inTurn := trivial
  added (reported : none = some false) := nomatch reported
  updated (updated : false = true) := nomatch updated
  removed _ (removed : false = true) := nomatch removed

theorem reporting_of_reaches (uid : UInt32) {ok : Client → Action → Prop} (run : ReachesBy step ok {} c) :
    c.Isolated False ∧ c.Scheduling ∧ c.Reporting uid :=
  run.invariant (I := fun c => c.Isolated False ∧ c.Scheduling ∧ c.Reporting uid) ⟨.new, .new, .new uid⟩
    fun {_ _ _} ⟨isolated, scheduling, h⟩ _ hs => ⟨isolated.step False.elim hs, scheduling.step isolated hs,
      (step_follows isolated scheduling.queues hs).reporting h⟩

/-- In every session. -/
theorem events_inTurn (uid : UInt32) : (∀ c, Reaches step {} c → Once uid c.log) ∧
    ∀ c, ReachesBy step (Delivers uid) {} c → InTurn uid c.config.notificationDateCutoff.isSome c.log := by
  refine ⟨fun c run => (reporting_of_reaches uid run).2.2.once, fun c run => ?_⟩
  obtain ⟨-, -, told⟩ : c.Isolated False ∧ c.Scheduling ∧ c.Told uid :=
    run.invariant (I := fun c => c.Isolated False ∧ c.Scheduling ∧ c.Told uid) ⟨.new, .new, .new uid⟩
      fun {_ _ _} ⟨isolated, scheduling, h⟩ delivers hs => ⟨isolated.step False.elim hs,
        scheduling.step isolated hs,
        (step_follows isolated scheduling.queues hs).told delivers h⟩
  exact told.inTurn

/-- The uid is added and updated, and both are reported. -/
theorem events_inTurn_updated : ∃ c : Client, c.log.countP (Entry.emits (Event.adds 7)) = 1 ∧
    c.log.countP (Entry.emits (Event.updates 7)) = 1 ∧ Once 7 c.log ∧
    InTurn 7 c.config.notificationDateCutoff.isSome c.log :=
  have run : ReachesBy step (Delivers 7) {} _ := .of_isSome_by addedAndUpdated (by decide +kernel)
  ⟨_, by decide +kernel, by decide +kernel, (events_inTurn 7).1 _ run.reaches,
    (events_inTurn 7).2 _ run⟩

/-- The uid is added and reported. While the request for 8 is active, it is updated, discarded and
updated again. -/
def updatedTwice : List Action :=
  Action.start "device" { maximumPendingNotifications := 1 } :: startup.tail ++ List.replicate 24
    (Action.worker {}) ++
    addedAndRequested ++ emptyResponse ++ List.replicate 4 (Action.worker {}) ++
    Action.gattEvent false (.valueChanged [0, 0, 0, 0, 8, 0, 0, 0]) :: List.replicate 6 (Action.worker {}) ++
    Action.gattEvent false (.valueChanged [1, 0, 0, 0, 7, 0, 0, 0]) :: List.replicate 5 (Action.worker {}) ++
    Action.gattEvent false (.valueChanged [0, 0, 0, 0, 9, 0, 0, 0]) :: List.replicate 10 (Action.worker {}) ++
    Action.gattEvent false (.valueChanged [1, 0, 0, 0, 7, 0, 0, 0]) :: List.replicate 5 (Action.worker {}) ++
    requestWritten ++
    Action.gattEvent true (.valueChanged [0, 8, 0, 0, 0, 0, 0, 0, 1, 0, 0, 2, 0, 0, 3, 0, 0, 5, 0, 0]) ::
      List.replicate 12 (Action.worker {}) ++ requestWritten ++ emptyResponse

theorem added_twice : ∃ c, Reaches step {} c ∧ c.log.countP (Entry.emits (Event.adds 7)) = 2 ∧
    c.log.countP (Entry.emits (Event.removes 7)) = 0 :=
  ReachesBy.exists_of_any updatedTwice (by decide +kernel)

end Dmn.Ancs.Client
