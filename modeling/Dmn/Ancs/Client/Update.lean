import Dmn.Ancs.Client.Isolation

/-!
# Updates and requests

Whether the last Added or Updated event about a uid is followed by a request
of its own and by a report of the response. `addNotification` asks for nothing
while a request for the uid is active: such an event is the one that can be
lost behind the request.
-/

namespace Dmn.Ancs.Client

open Dmn.Lib

-- ---------------------------------------------------------------------------
-- The log
-- ---------------------------------------------------------------------------

/-- The Notification Source event about the uid. -/
def Entry.about (uid : UInt32) : Entry → Option Notification
  | .event notification => if notification.uid = uid then some notification else none
  | _ => none

/-- The last Notification Source event about the uid. -/
def lastEvent (uid : UInt32) (log : List Entry) : Option Notification := log.findSome? (Entry.about uid)

/-- What has happened since the last event about the uid. -/
def sinceEvent (uid : UInt32) (log : List Entry) : List Entry := log.takeWhile fun entry =>
    (entry.about uid).isNone

/-- The attributes of the uid are handed to the application. -/
def Event.reports (uid : UInt32) : Event → Bool
  | .notificationAdded notification | .notificationUpdated notification => notification.uid = uid
  | _ => false

def Entry.reports (uid : UInt32) : Entry → Bool
  | .emitted sent => sent.reports uid
  | _ => false

/-- A failure, a `stop`, a backlog drop, or a uid that becomes unavailable. -/
def Entry.breaks : Entry → Bool
  | .dropped _ | .unavailable _ | .cleared => true
  | _ => false

abbrev Smooth (log : List Entry) : Prop := ∀ entry ∈ log, entry.breaks = false

/-- The last event about the uid is Added or Updated. -/
def Awaited (uid : UInt32) (log : List Entry) : Prop :=
  ∃ notification, lastEvent uid log = some notification ∧ notification.kind ≠ .removed

/-- A request for the uid has been started since, and none after it. -/
def Requested (uid : UInt32) (log : List Entry) : Prop :=
  ∃ later earlier, sinceEvent uid log = later ++ .started uid :: earlier ∧ ∀ other, .started other ∉ later

/-- A request for the uid has been started since, and reported before any other one was started. -/
def Reported (uid : UInt32) (log : List Entry) : Prop :=
  ∃ later event between earlier,
    sinceEvent uid log = later ++ .emitted event :: (between ++ .started uid :: earlier) ∧ event.reports uid ∧
      ∀ other, .started other ∉ between

variable {uid : UInt32} {entry : Entry} {log : List Entry} {c c' : Client} {outcome : Outcome}

theorem lastEvent_cons (h : entry.about uid = none) : lastEvent uid (entry :: log) = lastEvent uid log := by
  rw [lastEvent, List.findSome?_cons, h]
  rfl

theorem sinceEvent_cons (h : entry.about uid = none) : sinceEvent uid (entry :: log) =
    entry :: sinceEvent uid log :=
  List.takeWhile_cons_of_pos (by rw [h]; rfl)

theorem awaited_cons (h : entry.about uid = none) : Awaited uid (entry :: log) ↔ Awaited uid log := by
  rw [Awaited, Awaited, lastEvent_cons h]

theorem Requested.cons (h : Requested uid log) (habout : entry.about uid = none)
    (hstarted : ∀ other, entry ≠ .started other) : Requested uid (entry :: log) := by
  obtain ⟨later, earlier, heq, hlast⟩ := h
  refine ⟨entry :: later, earlier, by rw [sinceEvent_cons habout, heq]; rfl, fun other hmem => ?_⟩
  rcases List.mem_cons.mp hmem with rfl | hmem
  · exact hstarted other rfl
  · exact hlast other hmem

theorem requested_started : Requested uid (.started uid :: log) :=
  ⟨[], sinceEvent uid log, sinceEvent_cons rfl, nofun⟩

theorem Reported.cons (h : Reported uid log) (habout : entry.about uid = none) : Reported uid
    (entry :: log) := by
  obtain ⟨later, event, between, earlier, heq, hreports, hlast⟩ := h
  exact ⟨entry :: later, event, between, earlier, by rw [sinceEvent_cons habout, heq]; rfl, hreports, hlast⟩

/-- The request is answered. -/
theorem Requested.reported {event : Event} (h : Requested uid log) (hreports : event.reports uid) :
    Reported uid (.emitted event :: log) := by
  obtain ⟨later, earlier, heq, hlast⟩ := h
  exact ⟨[], event, later, earlier, by rw [sinceEvent_cons rfl, heq]; rfl, hreports, hlast⟩

theorem Requested.mem (h : Requested uid log) : .started uid ∈ sinceEvent uid log := by
  obtain ⟨later, earlier, heq, -⟩ := h
  rw [heq]
  exact List.mem_append_right _ List.mem_cons_self

theorem Reported.mem (h : Reported uid log) :
    .started uid ∈ sinceEvent uid log ∧ (sinceEvent uid log).any (Entry.reports uid) := by
  obtain ⟨later, event, between, earlier, heq, hreports, -⟩ := h
  rw [heq]
  exact ⟨by simp, List.any_eq_true.mpr ⟨.emitted event, by simp, hreports⟩⟩

-- ---------------------------------------------------------------------------
-- Invariant
-- ---------------------------------------------------------------------------

/-- A request for the uid is active, and its response is not going to be discarded. -/
def Answering (c : Client) (uid : UInt32) : Prop :=
  ∃ active, c.activeRequest = some active ∧ active.notification.uid = uid ∧ active.removed = false

/-- A request has been started since the last event, and the configured cutoff has kept the last
response back. -/
def Suppressed (c : Client) (uid : UInt32) : Prop :=
  .started uid ∈ sinceEvent uid c.log ∧ c.config.notificationDateCutoff.isSome ∧
    ∃ record, c.records uid = some record ∧ record.ignoredBeforeStart

/-- Nothing is left to be done about the last event, but for what is pending. -/
def Served (c : Client) (uid : UInt32) : Prop :=
  uid ∈ c.pendingRequests ∨ Reported uid c.log ∨ c.Suppressed uid

/-- What has been found out at a place. -/
def Placed (c : Client) : WorkerPc → Prop
  | .record uid _ => c.Answering uid
  | .enqueue event .complete => ∃ uid, c.Answering uid ∧ event.reports uid
  | .complete => ∀ uid, Awaited uid c.log → c.Served uid
  | _ => True

/-- A session in which nothing has gone wrong. -/
structure Tracked (c : Client) : Prop where
  records : ∀ uid record, c.records uid = some record → record.unavailable = false ∧
    record.notification.uid = uid
  recorded : ∀ uid, Awaited uid c.log → c.records uid ≠ none
  queued : ∀ uid, c.queuedUids uid → uid ∈ c.pendingRequests
  requested : ∀ uid, c.Answering uid → Requested uid c.log
  served : ∀ uid, Awaited uid c.log → c.Answering uid ∨ c.Served uid

/-- Until something goes wrong. -/
def Tracks (c : Client) : Prop := Smooth c.log → c.Tracked ∧ c.Placed c.worker

/-- An Added or Updated event is processed while no request for its uid is active. -/
def Attended (c : Client) : Action → Prop
  | .worker _ =>
    match c.worker with
    | .notification notification => notification.kind = .removed ∨ c.requesting notification.uid = false
    | _ => True
  | _ => True

instance (c : Client) (action : Action) : Decidable (c.Attended action) := by
  unfold Attended
  split
  · split <;> infer_instance
  · infer_instance

/-- An idle Ready session. -/
def Idle (c : Client) : Prop :=
  c.ready ∧ c.activeRequest.isNone ∧ c.pendingRequests.isEmpty ∧ c.gattQueue.isEmpty

instance (c : Client) : Decidable c.Idle := inferInstanceAs (Decidable (_ ∧ _ ∧ _ ∧ _))

-- ---------------------------------------------------------------------------
-- Steps that are not about requests
-- ---------------------------------------------------------------------------

/-- Events are queued for the application at most. -/
structure Apart (c c' : Client) : Prop where
  records : c'.records = c.records
  pending : c'.pendingRequests = c.pendingRequests
  queued : c'.queuedUids = c.queuedUids
  config : c'.config = c.config
  answering : ∀ uid, c'.Answering uid ↔ c.Answering uid
  log : c'.log = c.log ∨ ∃ event, c'.log = .emitted event :: c.log

theorem Apart.awaited (h : c.Apart c') : Awaited uid c'.log ↔ Awaited uid c.log := by
  rcases h.log with hlog | ⟨event, hlog⟩ <;> rw [hlog]
  exact awaited_cons rfl

theorem Apart.requested (h : c.Apart c') (hrequested : Requested uid c.log) : Requested uid c'.log := by
  rcases h.log with hlog | ⟨event, hlog⟩ <;> rw [hlog]
  · exact hrequested
  · exact hrequested.cons rfl nofun

theorem Apart.served (h : c.Apart c') (hserved : c.Served uid) : c'.Served uid := by
  rcases hserved with hpending | hreported | ⟨hstarted, hcutoff, hrecord⟩
  · exact .inl (h.pending ▸ hpending)
  · refine .inr (.inl ?_)
    rcases h.log with hlog | ⟨event, hlog⟩ <;> rw [hlog]
    · exact hreported
    · exact hreported.cons rfl
  · refine .inr (.inr ⟨?_, h.config ▸ hcutoff, h.records ▸ hrecord⟩)
    rcases h.log with hlog | ⟨event, hlog⟩ <;> rw [hlog]
    · exact hstarted
    · rw [sinceEvent_cons rfl]
      exact List.mem_cons_of_mem _ hstarted

theorem Apart.placed {worker : WorkerPc} (h : c.Apart c') (hplaced : c.Placed worker) : c'.Placed worker := by
  unfold Placed at hplaced ⊢
  split
  · exact (h.answering _).mpr hplaced
  · obtain ⟨uid, hanswering, hreports⟩ := hplaced
    exact ⟨uid, (h.answering uid).mpr hanswering, hreports⟩
  · exact fun uid hawaited => h.served (hplaced uid (h.awaited.mp hawaited))
  · trivial

theorem Tracked.apart (h : c.Tracked) (hapart : c.Apart c') : c'.Tracked where
  records := hapart.records ▸ h.records
  recorded uid hawaited := hapart.records ▸ h.recorded uid (hapart.awaited.mp hawaited)
  queued := by
    rw [hapart.queued, hapart.pending]
    exact h.queued
  requested uid hanswering := hapart.requested (h.requested uid ((hapart.answering uid).mp hanswering))
  served uid hawaited :=
    (h.served uid (hapart.awaited.mp hawaited)).imp (hapart.answering uid).mpr hapart.served

theorem Apart.smooth (h : c.Apart c') (hsmooth : Smooth c'.log) : Smooth c.log := by
  rcases h.log with hlog | ⟨event, hlog⟩ <;> rw [hlog] at hsmooth
  · exact hsmooth
  · exact (List.forall_mem_cons.mp hsmooth).2

theorem Tracks.apart (h : c.Tracks) (hapart : c.Apart c')
    (hplaced : c.Tracked → c.Placed c.worker → c'.Placed c'.worker) : c'.Tracks := fun hsmooth =>
  have htracked := h (hapart.smooth hsmooth)
  ⟨htracked.1.apart hapart, hplaced htracked.1 htracked.2⟩

theorem Tracks.broken (h : entry ∈ c.log) (hbreaks : entry.breaks) : c.Tracks := fun hsmooth => by
  rw [hsmooth entry h] at hbreaks
  cases hbreaks

theorem Apart.refl (c : Client) : c.Apart c := ⟨rfl, rfl, rfl, rfl, fun _ => .rfl, .inl rfl⟩

/-- What `start` and `stop` do next is not about requests, or the session is over. -/
theorem runApi_apart (hs : c.runApi outcome = some c') :
    .cleared ∈ c'.log ∨ c.Apart c' ∧ (c'.worker = c.worker ∨ c'.worker = .waits) := by
  have happly : ∀ {d : Client}, c.Apart d → d.worker = c.worker →
      .cleared ∈ d.log ∨ c.Apart d ∧ (d.worker = c.worker ∨ d.worker = .waits) :=
    fun hapart hworker => .inr ⟨hapart, .inl hworker⟩
  cases hapi : c.api with
  | idle =>
    simp only [Client.runApi, hapi] at hs
    cases hs
  | execWorker =>
    simp only [Client.runApi, hapi] at hs
    obtain rfl := Option.some.inj hs
    split
    · exact happly ⟨rfl, rfl, rfl, rfl, fun _ => .rfl, .inl rfl⟩ rfl
    · split
      · exact happly ⟨rfl, rfl, rfl, rfl, fun _ => .rfl, .inl rfl⟩ rfl
      · exact .inr ⟨⟨rfl, rfl, rfl, rfl, fun _ => .rfl, .inl rfl⟩, .inr rfl⟩
  | execControlPointWorker =>
    simp only [Client.runApi, hapi] at hs
    obtain rfl := Option.some.inj hs
    split
    · exact happly ⟨rfl, rfl, rfl, rfl, fun _ => .rfl, .inl rfl⟩ rfl
    · split <;> exact happly ⟨rfl, rfl, rfl, rfl, fun _ => .rfl, .inl rfl⟩ rfl
  | starting | resolvingServices | discoveringANCS | subscribingDataSource
  | subscribingNotificationSource | ready | failed | stopping | stopped | cleanupError error
  | stopFailed =>
    simp only [Client.runApi, hapi] at hs
    obtain rfl := Option.some.inj hs
    exact happly ⟨rfl, rfl, rfl, rfl, fun _ => .rfl, .inr ⟨_, rfl⟩⟩ rfl
  | waitForServicesResolved | startNotifyData | startNotifyNotification | resolved | dataSubscribed
  | notificationSubscribed | controlPoint id | dataSubscription | notificationSubscription | failCleanup error
  | shutdown =>
    simp only [Client.runApi, hapi] at hs
    obtain rfl := Option.some.inj hs
    exact happly ⟨rfl, rfl, rfl, rfl, fun _ => .rfl, .inl rfl⟩ rfl
  | discover =>
    simp only [Client.runApi, hapi] at hs
    split at hs
    · cases hs
    · obtain rfl := Option.some.inj hs
      split <;> exact happly ⟨rfl, rfl, rfl, rfl, fun _ => .rfl, .inl rfl⟩ rfl
  | failStartup error =>
    simp only [Client.runApi, hapi] at hs
    obtain rfl := Option.some.inj hs
    exact .inl (List.mem_cons_of_mem _ List.mem_cons_self)
  | clear | clearAgain =>
    simp only [Client.runApi, hapi] at hs
    obtain rfl := Option.some.inj hs
    exact .inl List.mem_cons_self
  | stop =>
    simp only [Client.runApi, hapi] at hs
    obtain rfl := Option.some.inj hs
    split <;> exact happly ⟨rfl, rfl, rfl, rfl, fun _ => .rfl, .inl rfl⟩ rfl
  | lockWork =>
    simp only [Client.runApi, hapi] at hs
    split at hs
    · cases hs
    · obtain rfl := Option.some.inj hs
      exact happly ⟨rfl, rfl, rfl, rfl, fun _ => .rfl, .inl rfl⟩ rfl
  | stopSubscriptions =>
    simp only [Client.runApi, hapi] at hs
    split at hs
    · cases hs
    · obtain rfl := Option.some.inj hs
      exact happly ⟨rfl, rfl, rfl, rfl, fun _ => .rfl, .inl rfl⟩ rfl
  | waitWorker | waitControlPointWorker =>
    simp only [Client.runApi, hapi] at hs
    split at hs
    · split at hs
      · obtain rfl := Option.some.inj hs
        exact happly ⟨rfl, rfl, rfl, rfl, fun _ => .rfl, .inl rfl⟩ rfl
      · cases hs
    · obtain rfl := Option.some.inj hs
      exact happly ⟨rfl, rfl, rfl, rfl, fun _ => .rfl, .inl rfl⟩ rfl

theorem take_apart (hs : c.take = some c') : c.Apart c' := by
  unfold take at hs
  split at hs
  · obtain rfl := Option.some.inj hs
    exact ⟨rfl, rfl, rfl, rfl, fun _ => .rfl, .inl rfl⟩
  · split at hs
    · obtain rfl := Option.some.inj hs
      exact ⟨rfl, rfl, rfl, rfl, fun _ => .rfl, .inl rfl⟩
    · obtain rfl := Option.some.inj hs
      exact ⟨rfl, rfl, rfl, rfl, fun _ => .rfl, .inl rfl⟩
    · obtain rfl := Option.some.inj hs
      exact ⟨rfl, rfl, rfl, rfl, fun _ => .rfl, .inl rfl⟩
    · obtain rfl := Option.some.inj hs
      exact ⟨rfl, rfl, rfl, rfl, fun _ => .rfl, .inl rfl⟩
    · split at hs
      · obtain rfl := Option.some.inj hs
        exact ⟨rfl, rfl, rfl, rfl, fun _ => .rfl, .inl rfl⟩
      · cases hs
    · split at hs
      · obtain rfl := Option.some.inj hs
        exact ⟨rfl, rfl, rfl, rfl, fun _ => .rfl, .inl rfl⟩
      · cases hs

-- ---------------------------------------------------------------------------
-- Steps that are
-- ---------------------------------------------------------------------------

theorem about_event {notification : Notification} (h : uid ≠ notification.uid) :
    (Entry.event notification).about uid = none := if_neg (Ne.symm h)

theorem lastEvent_event (notification : Notification) (log : List Entry) :
    lastEvent notification.uid (.event notification :: log) = some notification := by
  rw [lastEvent, List.findSome?_cons, Entry.about, if_pos rfl]

/-- What is not about the uid stays so. -/
theorem Served.cons (h : c.Served uid) (habout : entry.about uid = none) (hlog : c'.log = entry :: c.log)
    (hpending : uid ∈ c.pendingRequests → uid ∈ c'.pendingRequests) (hrecords : c'.records uid = c.records uid)
    (hconfig : c'.config = c.config) : c'.Served uid := by
  rcases h with hold | hreported | ⟨hstarted, hcutoff, hrecord⟩
  · exact .inl (hpending hold)
  · exact .inr (.inl (hlog ▸ hreported.cons habout))
  · refine .inr (.inr ⟨?_, hconfig ▸ hcutoff, hrecords ▸ hrecord⟩)
    rw [hlog, sinceEvent_cons habout]
    exact List.mem_cons_of_mem _ hstarted

theorem Answering.unique {other : UInt32} (h : c.Answering uid) (h' : c.Answering other) : other = uid := by
  obtain ⟨active, hactive, rfl, -⟩ := h
  obtain ⟨active', hactive', rfl, -⟩ := h'
  rw [hactive] at hactive'
  rw [Option.some.inj hactive']

theorem answering_requesting (h : c.Answering uid) : c.requesting uid = true := by
  obtain ⟨active, hactive, rfl, -⟩ := h
  rw [requesting, hactive]
  exact decide_eq_true rfl

theorem Tracked.removeNotification {notification : Notification} (h : c.Tracked)
    (hkind : notification.kind = .removed) :
    (c.removeNotification notification).1.Tracked := by
  have hother : ∀ {uid}, Awaited uid (.event notification :: c.log) → uid ≠ notification.uid := by
    rintro uid ⟨last, hlast, hnot⟩ rfl
    rw [lastEvent_event] at hlast
    exact hnot (Option.some.inj hlast ▸ hkind)
  have hanswering : ∀ {uid}, (c.removeNotification notification).1.Answering uid ↔
      c.Answering uid ∧ uid ≠ notification.uid := by
    intro uid
    constructor
    · rintro ⟨active, hactive, rfl, hremoved⟩
      obtain ⟨old, hold, rfl⟩ := Option.map_eq_some_iff.mp hactive
      split at hremoved
      · cases hremoved
      · rename_i hne
        rw [if_neg hne]
        exact ⟨⟨old, hold, rfl, hremoved⟩, hne⟩
    · rintro ⟨⟨active, hactive, rfl, hremoved⟩, hne⟩
      exact ⟨active, Option.map_eq_some_iff.mpr ⟨active, hactive, if_neg hne⟩, rfl, hremoved⟩
  refine ⟨fun uid record hrecord => ?_, fun uid hawaited => ?_, fun uid hqueued => ?_, fun uid hactive => ?_,
    fun uid hawaited => ?_⟩
  · have hne : uid ≠ notification.uid := by
      rintro rfl
      rw [show (c.removeNotification notification).1.records notification.uid =
        none from Function.update_self ..] at hrecord
      cases hrecord
    exact h.records uid record ((Function.update_of_ne hne ..).symm.trans hrecord)
  · have hne := hother hawaited
    show Function.update c.records notification.uid none uid ≠ none
    rw [Function.update_of_ne hne]
    exact h.recorded uid ((awaited_cons (about_event hne)).mp hawaited)
  · have hne : uid ≠ notification.uid := by
      rintro rfl
      rw [show (c.removeNotification notification).1.queuedUids notification.uid = false from
        Function.update_self ..] at hqueued
      cases hqueued
    have hold : c.queuedUids uid = true := (Function.update_of_ne hne ..).symm.trans hqueued
    exact List.mem_filter.mpr ⟨h.queued uid hold, decide_eq_true hne⟩
  · obtain ⟨hold, hne⟩ := hanswering.mp hactive
    exact (h.requested uid hold).cons (about_event hne) nofun
  · have hne := hother hawaited
    rcases h.served uid ((awaited_cons (about_event hne)).mp hawaited) with hactive | hserved
    · exact .inl (hanswering.mpr ⟨hactive, hne⟩)
    · exact .inr (hserved.cons (about_event hne) rfl
        (fun hpending => List.mem_filter.mpr ⟨hpending, decide_eq_true hne⟩) (Function.update_of_ne hne ..) rfl)

theorem recordOf_spec (h : c.Tracked) (notification : Notification) :
    (c.recordOf notification).unavailable = false ∧ (c.recordOf notification).notification.uid =
    notification.uid := by
  unfold recordOf
  split
  · exact ⟨rfl, rfl⟩
  · rename_i record hrecord
    exact ⟨(h.records _ record hrecord).1, rfl⟩

/-- An Added or Updated event whose uid is pending afterwards. -/
theorem Tracked.event {notification : Notification} {record : NotificationRecord} (h : c.Tracked)
    (hrecord : record.unavailable = false ∧ record.notification.uid = notification.uid)
    (hidle : ¬c.Answering notification.uid)
    (hrecords : c'.records = Function.update c.records notification.uid (some record))
    (hconfig : c'.config = c.config)
    (hlog : c'.log = .event notification :: c.log) (hactive : c'.activeRequest = c.activeRequest)
    (hpending : ∀ uid ∈ c.pendingRequests, uid ∈ c'.pendingRequests)
    (hmem : notification.uid ∈ c'.pendingRequests)
    (hqueued : ∀ uid, c'.queuedUids uid → uid ∈ c'.pendingRequests) : c'.Tracked := by
  have hanswering : ∀ {uid}, c'.Answering uid ↔ c.Answering uid := by
    intro uid
    rw [Answering, Answering, hactive]
  refine ⟨fun uid other hother => ?_, fun uid hawaited => ?_, hqueued, fun uid hanswers => ?_,
    fun uid hawaited => ?_⟩
  · rw [hrecords] at hother
    by_cases hne : uid = notification.uid
    · subst hne
      rw [Function.update_self] at hother
      exact Option.some.inj hother ▸ hrecord
    · rw [Function.update_of_ne hne] at hother
      exact h.records uid other hother
  · rw [hrecords]
    by_cases hne : uid = notification.uid
    · subst hne
      rw [Function.update_self]
      exact nofun
    · rw [Function.update_of_ne hne]
      rw [hlog, awaited_cons (about_event hne)] at hawaited
      exact h.recorded uid hawaited
  · have hold := hanswering.mp hanswers
    have hne : uid ≠ notification.uid := fun heq => hidle (heq ▸ hold)
    rw [hlog]
    exact (h.requested uid hold).cons (about_event hne) nofun
  · by_cases hne : uid = notification.uid
    · exact .inr (.inl (hne ▸ hmem))
    · rw [hlog, awaited_cons (about_event hne)] at hawaited
      exact (h.served uid hawaited).imp hanswering.mpr fun hserved =>
        hserved.cons (about_event hne) hlog (hpending uid) (by rw [hrecords, Function.update_of_ne hne]) hconfig

/-- Nothing is dropped. -/
theorem dropPending_smooth (h : Smooth c.dropPending.1.log) :
    ∃ backlogLimitReported, c.dropPending.1 = { c with backlogLimitReported } := by
  unfold dropPending at h ⊢
  dsimp only at h ⊢
  split
  · rename_i hfull
    rw [if_pos hfull] at h
    split
    · exact ⟨c.backlogLimitReported, rfl⟩
    · rename_i droppedUid pendingRequests hpending
      rw [hpending] at h
      have hbreaks := h (.dropped droppedUid) List.mem_cons_self
      cases hbreaks
  · exact ⟨false, rfl⟩

theorem Tracked.addNotification {notification : Notification} (h : c.Tracked)
    (hidle : c.requesting notification.uid = false) (hsmooth : Smooth (c.addNotification notification).1.log) :
    (c.addNotification notification).1.Tracked := by
  have hnot : ¬c.Answering notification.uid := fun hanswering => by
    rw [answering_requesting hanswering] at hidle
    cases hidle
  have hrecord := recordOf_spec h notification
  unfold Client.addNotification at hsmooth ⊢
  dsimp only at hsmooth ⊢
  split
  · rename_i hpush
    rw [if_pos hpush] at hsmooth
    obtain ⟨backlogLimitReported, hdrop⟩ := dropPending_smooth hsmooth
    rw [hdrop]
    refine h.event hrecord hnot rfl rfl rfl rfl (fun uid hmem => List.mem_append_left _ hmem)
      (List.mem_append_right _ List.mem_cons_self) fun uid hqueued => ?_
    by_cases hne : uid = notification.uid
    · exact hne ▸ List.mem_append_right _ List.mem_cons_self
    · have hold : c.queuedUids uid = true := (Function.update_of_ne hne ..).symm.trans hqueued
      exact List.mem_append_left _ (h.queued uid hold)
  · rename_i hpush
    have hqueued : ((c.setRecord notification.uid (some (c.recordOf notification))).note
        (.event notification)).queuedUids notification.uid = true := by
      have hrequesting : ((c.setRecord notification.uid (some (c.recordOf notification))).note
          (.event notification)).requesting notification.uid = false := hidle
      rw [hrecord.1, hrequesting] at hpush
      simpa using hpush
    exact h.event hrecord hnot rfl rfl rfl rfl (fun uid => id) (h.queued _ hqueued) h.queued

/-- A request is started for the first pending uid, if there is one. -/
theorem Tracked.startNextRequest (h : c.Tracked) : c.startNextRequest.1.Tracked := by
  unfold Client.startNextRequest
  split
  · rename_i uid pendingRequests hready hactive hpending
    have hidle : ∀ {other}, ¬c.Answering other := fun ⟨active, hsome, _⟩ => by
      rw [hactive] at hsome
      cases hsome
    have hqueued : ∀ other, Function.update c.queuedUids uid false other → other ∈ pendingRequests :=
      fun other hq => by
      by_cases hne : other = uid
      · subst hne
        rw [Function.update_self] at hq
        cases hq
      · rw [Function.update_of_ne hne] at hq
        have hmem := h.queued other hq
        rw [hpending] at hmem
        exact (List.mem_cons.mp hmem).resolve_left hne
    dsimp only
    split
    · rename_i hnone
      refine ⟨h.records, h.recorded, hqueued, h.requested, fun other hawaited => .inr ?_⟩
      have hne : other ≠ uid := fun heq => h.recorded other hawaited (heq ▸ hnone)
      rcases (h.served other hawaited).resolve_left hidle with hmem | hrest
      · rw [hpending] at hmem
        exact .inl ((List.mem_cons.mp hmem).resolve_left hne)
      · exact .inr hrest
    · rename_i record hrecord
      obtain ⟨havailable, huid⟩ := h.records uid record hrecord
      rw [if_neg (by rw [havailable]; exact nofun)]
      refine ⟨h.records, fun other hawaited => h.recorded other ((awaited_cons rfl).mp hawaited), hqueued,
        fun other hanswering => ?_, fun other hawaited => ?_⟩
      · obtain ⟨active, hsome, rfl, -⟩ := hanswering
        obtain rfl := Option.some.inj hsome
        show Requested record.notification.uid (.started uid :: c.log)
        rw [huid]
        exact requested_started
      · by_cases hne : other = uid
        · exact .inl ⟨_, rfl, huid.trans hne.symm, rfl⟩
        · have hserved := (h.served other ((awaited_cons rfl).mp hawaited)).resolve_left hidle
          refine .inr (hserved.cons rfl rfl (fun hmem => ?_) rfl rfl)
          rw [hpending] at hmem
          exact (List.mem_cons.mp hmem).resolve_left hne
  · exact h

/-- The response has come: it is reported, or the cutoff keeps it back. -/
theorem Tracked.recordAttributes {attributes : AttributeSet} (h : c.Tracked) (hanswering : c.Answering uid) :
    (c.recordAttributes uid attributes).1.Tracked ∧
      match (c.recordAttributes uid attributes).2 with
      | some event => event.reports uid
      | none => ∀ other, Awaited other c.log → (c.recordAttributes uid attributes).1.Served other := by
  unfold Client.recordAttributes
  split
  · rename_i hnone
    refine ⟨h, fun other hawaited => (h.served other hawaited).resolve_left fun hother => ?_⟩
    exact h.recorded other hawaited (hanswering.unique hother ▸ hnone)
  · rename_i record hrecord
    obtain ⟨havailable, huid⟩ := h.records uid record hrecord
    dsimp only
    -- What is served stays so, but for the uid itself.
    have hserved : ∀ {other} {record' : NotificationRecord}, other ≠ uid → c.Served other →
        (c.setRecord uid (some record')).Served other := fun hne hold => by
      rcases hold with hpending | hreported | ⟨hstarted, hcutoff, old, hold, hignored⟩
      · exact .inl hpending
      · exact .inr (.inl hreported)
      · exact .inr (.inr ⟨hstarted, hcutoff, old, (Function.update_of_ne hne ..).trans hold, hignored⟩)
    refine ⟨⟨fun other old hold => ?_, fun other hawaited => ?_, h.queued, h.requested,
      fun other hawaited => ?_⟩, ?_⟩
    · by_cases hne : other = uid
      · subst hne
        have hsame : Function.update c.records other _ other = some old := hold
        rw [Function.update_self] at hsame
        obtain rfl := Option.some.inj hsame
        exact ⟨havailable, huid⟩
      · exact h.records other old ((Function.update_of_ne hne ..).symm.trans hold)
    · show Function.update c.records uid _ other ≠ none
      by_cases hne : other = uid
      · subst hne
        rw [Function.update_self]
        exact nofun
      · rw [Function.update_of_ne hne]
        exact h.recorded other hawaited
    · by_cases hne : other = uid
      · exact .inl (hne ▸ hanswering)
      · exact (h.served other hawaited).imp id (hserved hne)
    · split
      · rename_i event hevent
        split at hevent
        · cases hevent
        · obtain rfl := Option.some.inj hevent
          split <;> exact decide_eq_true huid
      · rename_i hevent
        split at hevent
        · rename_i hignored
          rw [Bool.and_eq_true] at hignored
          intro other hawaited
          by_cases hne : other = uid
          · subst hne
            exact .inr (.inr ⟨(h.requested other hanswering).mem, hignored.1, _, Function.update_self ..,
              (Bool.and_eq_true _ _).mpr hignored⟩)
          · refine hserved hne ((h.served other hawaited).resolve_left fun hother => hne ?_)
            exact hanswering.unique hother
        · cases hevent

/-- A place about which nothing has to be known. -/
def WorkerPc.plain : WorkerPc → Bool
  | .record .. | .enqueue _ .complete | .complete => false
  | _ => true

theorem placed_of_plain {worker : WorkerPc} (h : worker.plain) : c.Placed worker := by
  unfold Placed
  split <;> trivial

theorem processGattPacket_plain (c : Client) (packet : GattPacket) : (c.processGattPacket packet).plain := by
  unfold processGattPacket
  split
  · rfl
  · split
    · rfl
    · rfl
    · split
      · rfl
      · split
        · split <;> rfl
        · rfl

theorem acknowledge_apart (c : Client) (uid : UInt32) : c.Apart (c.acknowledgeControlPointWrite uid) := by
  unfold acknowledgeControlPointWrite
  split
  · exact .refl c
  · rename_i active hactive
    split
    · refine ⟨rfl, rfl, rfl, rfl, fun other => ?_, .inl rfl⟩
      constructor
      · rintro ⟨active', hsome, huid, hremoved⟩
        obtain rfl := Option.some.inj hsome
        exact ⟨active, hactive, huid, hremoved⟩
      · rintro ⟨active', hsome, huid, hremoved⟩
        rw [hactive] at hsome
        obtain rfl := Option.some.inj hsome
        exact ⟨_, rfl, huid, hremoved⟩
    · exact .refl c

theorem Tracks.processDataSourceValue {value : List UInt8} (h : c.Tracks) :
    (c.processDataSourceValue value).Tracks := by
  unfold Client.processDataSourceValue
  split
  · exact h.apart ⟨rfl, rfl, rfl, rfl, fun _ => .rfl, .inl rfl⟩ fun _ _ => placed_of_plain rfl
  · rename_i active hactive
    dsimp only
    have hanswering : ∀ {reassembler worker uid},
        Answering { c with activeRequest := some { active with reassembler }, worker } uid ↔
          c.Answering uid := by
      intro reassembler worker uid
      constructor
      · rintro ⟨active', hsome, huid, hremoved⟩
        obtain rfl := Option.some.inj hsome
        exact ⟨active, hactive, huid, hremoved⟩
      · rintro ⟨active', hsome, huid, hremoved⟩
        rw [hactive] at hsome
        obtain rfl := Option.some.inj hsome
        exact ⟨_, rfl, huid, hremoved⟩
    have hapart : ∀ {reassembler worker},
      c.Apart { c with activeRequest := some { active with reassembler }, worker } :=
      ⟨rfl, rfl, rfl, rfl, fun _ => hanswering, .inl rfl⟩
    refine h.apart hapart fun htracked _ => ?_
    dsimp only
    split
    · split <;> exact placed_of_plain rfl
    · exact placed_of_plain rfl
    · split
      · rename_i hremoved
        intro uid hawaited
        have hserved := (htracked.served uid hawaited).resolve_left fun ⟨active', hsome, _, hkept⟩ => by
          rw [hactive] at hsome
          obtain rfl := Option.some.inj hsome
          rw [hremoved] at hkept
          cases hkept
        exact hapart.served hserved
      · rename_i hremoved
        exact ⟨_, rfl, rfl, by simpa using hremoved⟩

theorem markUnavailable_log (c : Client) (error : Error) :
    .unavailable uid ∈ (c.markUnavailable uid error).1.log := by
  unfold markUnavailable
  split <;> exact List.mem_cons_self

theorem failTimedOutRequest_cases (c : Client) :
    (∃ uid, .unavailable uid ∈ c.failTimedOutRequest.1.log) ∨ c.failTimedOutRequest = (c, none) := by
  unfold failTimedOutRequest
  split
  · exact .inr rfl
  · split
    · exact .inl ⟨_, List.mem_cons_self⟩
    · exact .inr rfl

theorem Tracked.goes {worker : WorkerPc} (h : c.Tracked) : Tracked { c with worker } :=
  h.apart ⟨rfl, rfl, rfl, rfl, fun _ => .rfl, .inl rfl⟩

theorem addNotification_log (c : Client) (notification : Notification) (h : entry ∈ c.log) :
    entry ∈ (c.addNotification notification).1.log := by
  unfold addNotification dropPending
  dsimp only
  split
  · split
    · split
      · exact List.mem_cons_of_mem _ h
      · exact List.mem_cons_of_mem _ (List.mem_cons_of_mem _ h)
    · exact List.mem_cons_of_mem _ h
  · exact List.mem_cons_of_mem _ h

theorem startNextRequest_log (c : Client) (h : entry ∈ c.log) : entry ∈ c.startNextRequest.1.log := by
  unfold startNextRequest
  split
  · dsimp only
    split
    · exact h
    · split
      · exact h
      · exact List.mem_cons_of_mem _ h
  · exact h

/-- The response is reported. -/
theorem Tracked.reports {event : Event} (h : c.Tracked) (hanswering : c.Answering uid)
    (hreports : event.reports uid)
    {other : UInt32} (hawaited : Awaited other c.log) : (c.enqueueEvent event).Served other := by
  by_cases hne : other = uid
  · subst hne
    exact .inr (.inl ((h.requested other hanswering).reported hreports))
  · have hserved := (h.served other hawaited).resolve_left fun hother => hne (hanswering.unique hother)
    exact hserved.cons rfl rfl id rfl rfl

theorem recordAttributes_same (c : Client) (uid : UInt32) (attributes : AttributeSet) :
    (c.recordAttributes uid attributes).1.log = c.log ∧
      (c.recordAttributes uid attributes).1.activeRequest = c.activeRequest := by
  unfold Client.recordAttributes
  split <;> exact ⟨rfl, rfl⟩

theorem Tracks.recordAttributes {attributes : AttributeSet} (h : c.Tracks)
    (hworker : c.worker = .record uid attributes) :
    Tracks { (c.recordAttributes uid attributes).1 with
      worker := match (c.recordAttributes uid attributes).2 with
        | some event => .enqueue event .complete
        | none => .complete } := by
  obtain ⟨hlog, hactive⟩ := recordAttributes_same c uid attributes
  intro hsmooth
  obtain ⟨htracked, hplaced⟩ := h (hlog ▸ hsmooth)
  rw [hworker] at hplaced
  obtain ⟨htracked', hreported⟩ := htracked.recordAttributes hplaced
  refine ⟨htracked'.goes, ?_⟩
  revert hreported
  cases (c.recordAttributes uid attributes).2 with
  | some event =>
    intro hreports
    obtain ⟨active, hsome, huid, hremoved⟩ := hplaced
    exact ⟨uid, ⟨active, hactive.trans hsome, huid, hremoved⟩, hreports⟩
  | none => exact fun hserved other hawaited => hserved other (hlog ▸ hawaited)

theorem Tracks.processNotification {notification : Notification} (h : c.Tracks)
    (hworker : c.worker = .notification notification) (hok : c.Attended (.worker outcome))
    (removed added : Bool → WorkerPc) (hadded : ∀ b, (added b).plain)
    (hremoved : ∀ b, (removed b).plain) :
    Tracks (if notification.kind = .removed then
        { (c.removeNotification notification).1 with worker := removed (c.removeNotification notification).2 }
      else { (c.addNotification notification).1 with worker := added (c.addNotification notification).2 }) := by
  split
  · rename_i hkind
    intro hsmooth
    have htracked := (h (List.forall_mem_cons.mp hsmooth).2).1
    exact ⟨(htracked.removeNotification hkind).goes, placed_of_plain (hremoved _)⟩
  · rename_i hkind
    intro hsmooth
    simp only [Attended, hworker] at hok
    have hlog : Smooth c.log := fun entry hentry => hsmooth entry (addNotification_log c notification hentry)
    exact ⟨((h hlog).1.addNotification (hok.resolve_left hkind) hsmooth).goes, placed_of_plain (hadded _)⟩

/-- An event is queued for the application. -/
theorem Tracks.enqueueEvent {event : Event} {worker : WorkerPc} (h : c.Tracks)
    (hplaced : c.Tracked → c.Placed c.worker → (c.enqueueEvent event).Placed worker) :
    Tracks { c.enqueueEvent event with worker } :=
  h.apart ⟨rfl, rfl, rfl, rfl, fun _ => .rfl, .inr ⟨event, rfl⟩⟩ hplaced

theorem Tracks.enqueue {event : Event} {after : After} (h : c.Tracks)
    (hworker : c.worker = .enqueue event after) :
    Tracks { c.enqueueEvent event with worker := after.pc } := by
  refine h.enqueueEvent fun htracked hplaced => ?_
  cases after with
  | next => exact placed_of_plain rfl
  | fail error => exact placed_of_plain rfl
  | complete =>
    rw [hworker] at hplaced
    obtain ⟨uid, hanswering, hreports⟩ := hplaced
    intro other hawaited
    exact htracked.reports hanswering hreports ((awaited_cons rfl).mp hawaited)

theorem Tracks.completeActiveRequest (h : c.Tracks) (hworker : c.worker = .complete) :
    Tracks { c with activeRequest := none, worker := .next } := by
  intro hsmooth
  obtain ⟨htracked, hplaced⟩ := h hsmooth
  rw [hworker] at hplaced
  have hidle : ∀ uid, ¬Answering { c with activeRequest := none, worker := .next } uid :=
    fun _ ⟨_, hsome, _⟩ => nomatch hsome
  exact ⟨⟨htracked.records, htracked.recorded, htracked.queued,
    fun uid hanswering => absurd hanswering (hidle uid),
    fun uid hawaited => .inr (hplaced uid hawaited)⟩, placed_of_plain rfl⟩

theorem Tracks.failTimedOutRequest (h : c.Tracks) :
    Tracks { c.failTimedOutRequest.1 with
      worker := match c.failTimedOutRequest.2 with
        | some uid => .unavailable uid responseTimeout (.fail responseTimeout)
        | none => .next } := by
  rcases failTimedOutRequest_cases c with ⟨uid, hmem⟩ | hsame
  · exact .broken hmem rfl
  · rw [hsame]
    exact h.apart ⟨rfl, rfl, rfl, rfl, fun _ => .rfl, .inl rfl⟩ fun _ _ => placed_of_plain rfl

/-- A failure. -/
theorem tracks_of_close {worker : WorkerPc} : Tracks { c.close with state := .failed, worker } :=
  .broken List.mem_cons_self rfl

theorem Tracks.report {error : Error} (h : c.Tracks) :
    Tracks { (c.enqueueEvent (.error error)).enqueueEvent (.stateChanged .failed) with worker := .next } := by
  have hfirst : Tracks { c.enqueueEvent (.error error) with worker := .next } :=
    h.enqueueEvent fun _ _ => placed_of_plain rfl
  exact hfirst.enqueueEvent fun _ _ => placed_of_plain rfl

theorem Tracks.startNextRequest {worker : WorkerPc} (h : c.Tracks) (hworker : worker.plain) :
    Tracks { c.startNextRequest.1 with worker } := by
  intro hsmooth
  have hlog : Smooth c.log := fun entry hentry => hsmooth entry (startNextRequest_log c hentry)
  exact ⟨(h hlog).1.startNextRequest.goes, placed_of_plain hworker⟩

theorem Tracks.runWorker (h : c.Tracks) (hok : c.Attended (.worker outcome))
    (hs : c.runWorker outcome = some c') :
    c'.Tracks := by
  have hgoes : ∀ {worker : WorkerPc}, c.Apart { c with worker } := ⟨rfl, rfl, rfl, rfl, fun _ => .rfl, .inl rfl⟩
  unfold Client.runWorker at hs
  split at hs
  · cases hs
  · refine h.apart (take_apart hs) fun _ _ => placed_of_plain ?_
    rcases take_worker hs with hworker | ⟨item, hworker⟩ <;> rw [hworker] <;> rfl
  · split at hs
    · cases hs
    · obtain rfl := Option.some.inj hs
      exact h.apart hgoes fun _ _ => placed_of_plain rfl
  · obtain rfl := Option.some.inj hs
    exact h.apart hgoes fun _ _ => placed_of_plain rfl
  · rename_i packet hworker
    obtain rfl := Option.some.inj hs
    exact h.apart hgoes fun _ _ => placed_of_plain (processGattPacket_plain c packet)
  · rename_i result hworker
    obtain rfl := Option.some.inj hs
    split
    · exact h.apart hgoes fun _ _ => placed_of_plain rfl
    · have hapart := acknowledge_apart c result.uid
      exact h.apart ⟨hapart.records, hapart.pending, hapart.queued, hapart.config, hapart.answering, hapart.log⟩
        fun _ _ => placed_of_plain rfl
  · obtain rfl := Option.some.inj hs
    refine h.apart hgoes fun _ _ => placed_of_plain ?_
    dsimp only
    split <;> rfl
  · rename_i notification hworker
    obtain rfl := Option.some.inj hs
    exact h.processNotification hworker hok
      (fun reported => if reported then .enqueue (.notificationRemoved notification) .next else .next)
      (fun reported => if reported then .enqueue (.error backlogLimit) .next else .next)
      (by decide) (fun reported => by cases reported <;> rfl)
  · obtain rfl := Option.some.inj hs
    exact h.processDataSourceValue
  · rename_i uid attributes hworker
    obtain rfl := Option.some.inj hs
    exact h.recordAttributes hworker
  · rename_i uid error after hworker
    obtain rfl := Option.some.inj hs
    exact .broken (markUnavailable_log c error) rfl
  · rename_i event after hworker
    obtain rfl := Option.some.inj hs
    exact h.enqueue hworker
  · rename_i hworker
    obtain rfl := Option.some.inj hs
    exact h.completeActiveRequest hworker
  · obtain rfl := Option.some.inj hs
    exact h.failTimedOutRequest
  · obtain rfl := Option.some.inj hs
    split
    · exact h.apart hgoes fun _ _ => placed_of_plain rfl
    · exact tracks_of_close
  · split at hs
    · cases hs
    · split at hs
      · cases hs
      · obtain rfl := Option.some.inj hs
        exact h.apart ⟨rfl, rfl, rfl, rfl, fun _ => .rfl, .inl rfl⟩ fun _ _ => placed_of_plain rfl
  · rename_i error hworker
    obtain rfl := Option.some.inj hs
    exact h.report
  · obtain rfl := Option.some.inj hs
    refine h.startNextRequest ?_
    split <;> rfl
  · obtain rfl := Option.some.inj hs
    split
    · exact h.apart hgoes fun _ _ => placed_of_plain rfl
    · exact h.apart ⟨rfl, rfl, rfl, rfl, fun _ => .rfl, .inl rfl⟩ fun _ _ => placed_of_plain rfl

-- ---------------------------------------------------------------------------
-- Runs
-- ---------------------------------------------------------------------------

/-- A new session. -/
theorem Tracks.start {deviceId : String} {config : Config} (h : c.Tracks) (hisolated : c.Isolated False)
    (hapi : c.api = .idle) : (c.start deviceId config).Tracks := by
  unfold Client.start
  split
  · exact h
  · split
    · exact h
    · rename_i hstate
      have hholds := hisolated.phase
      rw [hapi] at hholds
      have hrest := hholds.1 (not_not.mp hstate)
      refine fun _ => ⟨⟨fun uid record hrecord => ?_, fun uid hawaited => ?_, fun uid hqueued => ?_,
        fun uid hactive => ?_,
        fun uid hawaited => ?_⟩, placed_of_plain ?_⟩
      · rw [show c.records uid = none from hrest.records uid] at hrecord
        cases hrecord
      · obtain ⟨notification, hlast, -⟩ := hawaited
        cases hlast
      · rw [show c.queuedUids uid = false from hrest.queued uid] at hqueued
        cases hqueued
      · obtain ⟨active, hsome, -⟩ := hactive
        rw [show c.activeRequest = none from hrest.active] at hsome
        cases hsome
      · obtain ⟨notification, hlast, -⟩ := hawaited
        cases hlast
      · show c.worker.plain = true
        rw [hrest.worker]
        rfl

theorem Tracks.step {action : Action} (h : c.Tracks) (hisolated : c.Isolated False) (hok : c.Attended action)
    (hs : c.step action = some c') : c'.Tracks := by
  cases action with
  | start deviceId config =>
    simp only [Client.step] at hs
    split at hs
    · rename_i hapi
      obtain rfl := Option.some.inj hs
      exact h.start hisolated hapi
    · cases hs
  | callStop =>
    obtain rfl := Option.some.inj hs
    have hapart : c.Apart { c with cancelRequested := true, stops := c.stops + 1 } :=
      ⟨rfl, rfl, rfl, rfl, fun _ => .rfl, .inl rfl⟩
    exact h.apart hapart fun _ => hapart.placed
  | stop =>
    simp only [Client.step] at hs
    split at hs
    · rename_i stops hapi hstops
      obtain rfl := Option.some.inj hs
      have hapart : c.Apart { c with stops, api := .stop } := ⟨rfl, rfl, rfl, rfl, fun _ => .rfl, .inl rfl⟩
      exact h.apart hapart fun _ => hapart.placed
    · cases hs
  | api outcome =>
    rcases runApi_apart hs with hcleared | ⟨hapart, hsame | hwaits⟩
    · exact .broken hcleared rfl
    · refine h.apart hapart fun _ hplaced => ?_
      rw [hsame]
      exact hapart.placed hplaced
    · refine h.apart hapart fun _ _ => ?_
      rw [hwaits]
      exact placed_of_plain rfl
  | worker outcome => exact h.runWorker hok hs
  | writer outcome =>
    obtain ⟨jobs, results, writer, rfl, -⟩ := runControlPointWrites_cases hs
    have hapart : c.Apart { c with controlPointJobs := jobs, controlPointResults := results, writer } :=
      ⟨rfl, rfl, rfl, rfl, fun _ => .rfl, .inl rfl⟩
    exact h.apart hapart fun _ => hapart.placed
  | gattEvent dataSource event =>
    simp only [Client.step] at hs
    split at hs
    · obtain rfl := Option.some.inj hs
      split
      · have hapart : c.Apart { c with gattQueue := c.gattQueue ++ [⟨dataSource, event⟩] } :=
          ⟨rfl, rfl, rfl, rfl, fun _ => .rfl, .inl rfl⟩
        exact h.apart hapart fun _ => hapart.placed
      · exact h
    · cases hs
  | tick =>
    obtain rfl := Option.some.inj hs
    have hapart : c.Apart { c with now := c.now + 1 } := ⟨rfl, rfl, rfl, rfl, fun _ => .rfl, .inl rfl⟩
    exact h.apart hapart fun _ => hapart.placed

theorem Tracks.new : ({} : Client).Tracks := by
  have hnone : ∀ uid, ¬Awaited uid [] := fun _ ⟨_, hlast, _⟩ => nomatch hlast
  have hidle : ∀ uid, ¬Answering {} uid := fun _ ⟨_, hsome, _⟩ => nomatch hsome
  exact fun _ => ⟨⟨fun _ _ (hrecord : none = some _) => (nomatch hrecord),
    fun uid hawaited => absurd hawaited (hnone uid),
    fun _ (hqueued : false = true) => (nomatch hqueued), fun uid hanswering => absurd hanswering (hidle uid),
    fun uid hawaited => absurd hawaited (hnone uid)⟩, placed_of_plain rfl⟩

theorem tracks_of_reaches (h : ReachesBy step Attended {} c) : c.Isolated False ∧ c.Tracks := by
  refine h.invariant (I := fun d => d.Isolated False ∧ d.Tracks) ⟨.new, .new⟩ ?_
  rintro d action d' ⟨hisolated, htracks⟩ hok hs
  exact ⟨hisolated.step False.elim hs, htracks.step hisolated hok hs⟩

/-- When an idle session has been reached and nothing has gone wrong, the last Added or Updated
event about a uid has been followed by a request of its own, and the response has been reported
if the configured cutoff has not kept it back. -/
theorem updates_reported (h : ReachesBy step Attended {} c) (hidle : c.Idle) (hsmooth : Smooth c.log)
    (uid : UInt32)
    (notification : Notification) (hlast : lastEvent uid c.log = some notification)
    (hkind : notification.kind ≠ .removed) : Reported uid c.log ∨ c.Suppressed uid := by
  obtain ⟨-, hactive, hpending, -⟩ := hidle
  have htracked := ((tracks_of_reaches h).2 hsmooth).1
  rcases htracked.served uid ⟨notification, hlast, hkind⟩ with ⟨active, hsome, -⟩ | hmem | hserved
  · rw [Option.isNone_iff_eq_none.mp hactive] at hsome
    cases hsome
  · rw [List.isEmpty_iff.mp hpending] at hmem
    cases hmem
  · exact hserved

def requestWritten : List Action := List.replicate 4 (Action.writer {}) ++ List.replicate 4 (Action.worker {})

/-- A response without any text. -/
def emptyResponse : List Action :=
  Action.gattEvent true (.valueChanged [0, 7, 0, 0, 0, 0, 0, 0, 1, 0, 0, 2, 0, 0, 3, 0, 0, 5, 0, 0]) ::
    List.replicate 8 (.worker {})

/-- The uid is added, and a request is written. -/
def addedAndRequested : List Action :=
  Action.gattEvent false (.valueChanged [0, 0, 0, 0, 7, 0, 0, 0]) :: List.replicate 6 (.worker {}) ++
    requestWritten

/-- Added, answered, updated, answered. -/
def addedAndUpdated : List Action :=
  startup ++ List.replicate 24 (Action.worker {}) ++ addedAndRequested ++ emptyResponse ++
    List.replicate 4 (Action.worker {}) ++ Action.gattEvent false (.valueChanged [1, 0, 0, 0, 7, 0, 0, 0]) ::
      List.replicate 6 (.worker {}) ++ requestWritten ++ emptyResponse

theorem updates_reported_updated :
    ∃ c : Client, (lastEvent 7 c.log).map (·.kind) = some .updated ∧ (Reported 7 c.log ∨ c.Suppressed 7) :=
  have h : ReachesBy step Attended {} _ := .of_isSome_by addedAndUpdated (by decide +kernel)
  ⟨_, by decide +kernel, updates_reported h (by decide +kernel) (by decide +kernel) 7
    { kind := .updated, uid := 7, category := 0, categoryCount := 0, flags := 0 } (by decide +kernel) nofun⟩

/-- With a cutoff, the response is not reported. -/
def keptBack : List Action :=
  Action.start "device" { notificationDateCutoff := some [50] } :: startup.tail ++ List.replicate 24
    (Action.worker {}) ++
    addedAndRequested ++ emptyResponse

/-- The uid is updated after its request has been written and before the response. -/
def updatedBehindRequest : List Action :=
  startup ++ List.replicate 24 (Action.worker {}) ++ addedAndRequested ++
    Action.gattEvent false (.valueChanged [1, 0, 0, 0, 7, 0, 0, 0]) :: List.replicate 5 (.worker {}) ++
      emptyResponse

theorem update_lostBehindRequest :
    (∃ c, Reaches step {} c ∧ c.Idle ∧ Smooth c.log ∧ (lastEvent 7 c.log).map (·.kind) = some .added ∧
        ¬Reported 7 c.log) ∧
      ∃ c, Reaches step {} c ∧ c.Idle ∧ Smooth c.log ∧ (lastEvent 7 c.log).map (·.kind) = some .updated ∧
        .started 7 ∉ sinceEvent 7 c.log ∧ ¬Reported 7 c.log := by
  constructor
  · have h : ∃ c, Reaches step {} c ∧ c.Idle ∧ Smooth c.log ∧ (lastEvent 7 c.log).map (·.kind) = some .added ∧
        (sinceEvent 7 c.log).any (Entry.reports 7) = false := ReachesBy.exists_of_any keptBack (by
          decide +kernel)
    obtain ⟨c, hreaches, hidle, hsmooth, hlast, hnone⟩ := h
    refine ⟨c, hreaches, hidle, hsmooth, hlast, fun hreported => ?_⟩
    rw [hreported.mem.2] at hnone
    cases hnone
  · have h : ∃ c, Reaches step {} c ∧ c.Idle ∧ Smooth c.log ∧ (lastEvent 7 c.log).map (·.kind) = some .updated ∧
        .started 7 ∉ sinceEvent 7 c.log := ReachesBy.exists_of_any updatedBehindRequest (by decide +kernel)
    obtain ⟨c, hreaches, hidle, hsmooth, hlast, hnone⟩ := h
    exact ⟨c, hreaches, hidle, hsmooth, hlast, hnone, fun hreported => hnone hreported.mem.1⟩

end Dmn.Ancs.Client
