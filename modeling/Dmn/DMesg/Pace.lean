import Dmn.DMesg.Conflict

/-!
# Keeping pace

A writer numbers its messages ahead of the publisher, one for each write that it
has on its way. Its next write to arrive is never more than one ahead, as long
as every message that arrives with the next number is counted.
-/

namespace Dmn.DMesg

open Dmn.Lib

-- ---------------------------------------------------------------------------
-- What is on its way to a handler
-- ---------------------------------------------------------------------------

namespace Handler

variable {h : Handler} {spec : HandlerSpec} {m : DMesgPb} {listed : Bool}
  {counter counter' : String → Nat}

/-- No task brings the handler's context a number above the publisher's. -/
def Within (h : Handler) (counter : String → Nat) : Prop :=
  ∀ task ∈ h.inbox, ∀ t, task.counterOn t ≤ counter t

theorem Within.mono (w : h.Within counter) (le : ∀ t, counter t ≤ counter' t) :
    h.Within counter' := fun task mem t => (w task mem t).trans (le t)

theorem Within.enqueue (w : h.Within counter) (b : h.Bounded counter) (type : HandlerEventType)
    (topic : String) (message : Option DMesgPb) (notifyObserver : Bool) :
    (h.enqueueHandlerEvent listed type topic message notifyObserver).Within counter := by
  unfold enqueueHandlerEvent
  split
  · exact w
  · next state present =>
    split
    · intro task mem t
      rcases List.mem_append.mp mem with mem | mem
      · exact w task mem t
      · cases List.mem_singleton.mp mem
        unfold HandlerTask.counterOn
        simp only
        split
        · next same =>
          rw [← same.2]
          have bound := b topic
          unfold counterOf at bound
          rwa [present] at bound
        · exact Nat.zero_le _
    · exact w

/-- The record of the conflicts changes, and an event says so. -/
theorem Within.replace (w : h.Within counter) (b : h.Bounded counter) {state state' : HandlerState}
    (present : h.state = some state)
    (same : state'.topicRunningCounter = state.topicRunningCounter) (type : HandlerEventType)
    (topic : String) (message : Option DMesgPb) (notifyObserver : Bool) :
    (enqueueHandlerEvent { h with state := some state' } listed type topic message
      notifyObserver).Within counter := by
  refine Within.enqueue (h := { h with state := some state' }) w (fun t => ?_) _ _ _ _
  have bound := b t
  unfold counterOf at bound ⊢
  rw [present] at bound
  simpa [same] using bound

theorem Within.throw (w : h.Within counter) (b : h.Bounded counter) (m : DMesgPb) :
    (h.throwHandlerConflict listed m).Within counter := by
  unfold throwHandlerConflict
  split
  · exact w
  · next present =>
    refine w.replace b present ?_ _ _ _ _
    rfl

theorem Within.resolveTopic (w : h.Within counter) (b : h.Bounded counter) (topic : String)
    (message : Option DMesgPb) : (h.resolveTopicConflict listed topic message).Within counter := by
  unfold resolveTopicConflict
  split
  · exact w
  · next present =>
    simp only
    split
    · refine w.replace b present ?_ _ _ _ _
      rfl
    · exact w

theorem Within.resolveTopics (w : h.Within counter) (b : h.Bounded counter)
    (message : Option DMesgPb) (topics : List String) :
    (topics.foldl (fun h t => h.resolveTopicConflict listed t message) h).Within counter := by
  induction topics generalizing h with
  | nil => exact w
  | cons topic topics ih =>
    refine ih (w.resolveTopic b topic message) fun t => ?_
    rw [counterOf_resolveTopic]
    exact b t

theorem Within.resolve (w : h.Within counter) (b : h.Bounded counter) (topic : String)
    (message : Option DMesgPb) :
    (h.resolveHandlerConflict listed topic message).Within counter := by
  unfold resolveHandlerConflict
  split
  · exact w
  · split
    · exact w.resolveTopics b message _
    · exact w.resolveTopic b topic message

theorem Within.receive (w : h.Within counter) (b : h.Bounded counter) (le : m.conflict = true ∨
    m.runningCounter ≤ counter m.topic) : (h.receive spec listed m).Within counter := by
  unfold Handler.receive
  split
  · unfold notify
    split
    · exact w
    · split
      · split
        · exact w.throw b m
        · exact w
      · next unmarked =>
        have noted : (h.setStateCounter m.topic m.runningCounter).Bounded counter :=
          b.setStateCounter (le.resolve_left unmarked)
        have resolved : ((h.setStateCounter m.topic m.runningCounter).resolveHandlerConflict listed
            m.topic (some m)).Within counter :=
          Within.resolve (h := h.setStateCounter m.topic m.runningCounter) w noted _ _
        split
        · split
          · exact resolved
          · split
            · split
              · refine Within.enqueue resolved (fun t => ?_) _ _ _ _
                rw [counterOf_resolve]
                exact noted t
              · exact w
            · exact w
        · exact w
  · exact w

end Handler

namespace State

variable {ι : Type} [DecidableEq ι] {specs : ι → HandlerSpec} {s s' : State ι} {m : DMesgPb}

-- ---------------------------------------------------------------------------
-- The publisher's work
-- ---------------------------------------------------------------------------

/-- No task on its way to any handler is ahead of the publisher. -/
def Within (s : State ι) : Prop := ∀ i, (s.handler i).Within s.topicRunningCounter

theorem within_notifyAll {counter : String → Nat} (single : s.subscribers.Nodup)
    (w : ∀ i, (s.handler i).Within counter) (b : ∀ i, (s.handler i).Bounded counter)
    (le : m.conflict = true ∨ m.runningCounter ≤ counter m.topic) (i : ι) :
    ((s.notifyAll specs m).handler i).Within counter := by
  rw [notifyAll_eq single]
  simp only
  split
  · exact (w i).receive (b i) le
  · exact w i

theorem within_noteSource {counter : String → Nat} (w : ∀ i, (s.handler i).Within counter)
    (i : ι) : ((s.noteSource specs m).handler i).Within counter := by
  rw [noteSource_handler]
  split
  · exact w i
  · exact w i

theorem within_throwSource {counter : String → Nat} (w : ∀ i, (s.handler i).Within counter)
    (b : ∀ i, (s.handler i).Bounded counter) (i : ι) :
    ((s.throwSource specs m).handler i).Within counter := by
  rw [throwSource_handler]
  split
  · exact (w i).throw (b i) m
  · exact w i

theorem Within.publishInternal (within : s.Within) (handing : s.Handing specs)
    (w : s.Wellformed specs) (timely : s.timely specs m)
    (ge : s.topicRunningCounter m.topic ≤ s.nextRunningCounter m) :
    (s.publishInternal specs m).Within := by
  unfold State.timely at timely
  match verdict : s.verdict specs m with
  | .replayed =>
    rw [verdict] at timely
    intro i
    rw [publishInternal_replayed verdict, notifyAll_eq w.subscribers]
    simp only
    split
    · next subscribed =>
      rcases timely with le | late
      · exact (within i).receive (handing.bounded i) (.inr le)
      · unfold Handler.receive Handler.accepts
        rw [verdict_replayed.mp verdict, late i subscribed]
        exact within i
    · exact within i
  | .dropped =>
    rw [publishInternal_dropped verdict]
    intro i
    rw [noteSource_eq]
    exact within_noteSource within i
  | .marked =>
    rw [verdict] at timely
    have noted := handing.noteSource timely
    have thrown := noted.throwSource (marked m)
    have shared : (s.noteSource specs m).throwSource specs (marked m) =
        { s with handler := ((s.noteSource specs m).throwSource specs (marked m)).handler } :=
      thrown_eq s m (marked m)
    have counter : ((s.noteSource specs m).throwSource specs (marked m)).topicRunningCounter =
        s.topicRunningCounter := by rw [shared]
    have bounded : ∀ i, ((s.noteSource specs m).handler i).Bounded s.topicRunningCounter :=
      fun i => by
        have bound := noted.bounded i
        rwa [noteSource_eq] at bound
    intro i
    rw [publishInternal_marked verdict]
    have same : (((s.noteSource specs m).throwSource specs (marked m)).notifyAll specs
        (marked m)).topicRunningCounter = s.topicRunningCounter := by
      rw [(works_notifyAll _ _).shared]
      exact counter
    rw [same]
    refine within_notifyAll (by rw [shared]; exact w.subscribers)
      (within_throwSource (within_noteSource within) bounded) (fun j => ?_) (.inl rfl) i
    have bound := thrown.bounded j
    rwa [counter] at bound
  | .accepted =>
    rw [verdict] at timely
    have shared : s.noteSource specs m = { s with handler := (s.noteSource specs m).handler } :=
      noteSource_eq s m
    have counter : (s.publishInternal specs m).topicRunningCounter =
        Function.update s.topicRunningCounter m.topic (s.nextRunningCounter m) := by
      rw [(works_accept verdict).shared]
      rfl
    intro i
    rw [counter, publishInternal_accepted verdict]
    refine within_notifyAll (by rw [shared]; exact w.subscribers) (fun j => ?_)
      (handing.bounded_cached timely ge) (.inr ?_) i
    · refine Handler.Within.mono (within_noteSource within j) fun t => ?_
      rw [Function.update_apply]
      split
      · next same => exact same ▸ ge
      · exact le_rfl
    · show s.nextRunningCounter m ≤ _
      exact (Function.update_self m.topic (s.nextRunningCounter m) s.topicRunningCounter).ge

/-- The publisher's counter of a topic does not fall. -/
theorem counter_publishInternal (ge : s.topicRunningCounter m.topic ≤ s.nextRunningCounter m)
    (t : String) : s.topicRunningCounter t ≤ (s.publishInternal specs m).topicRunningCounter t := by
  by_cases verdict : s.verdict specs m = .accepted
  · have counter : (s.publishInternal specs m).topicRunningCounter =
        Function.update s.topicRunningCounter m.topic (s.nextRunningCounter m) := by
      rw [(works_accept verdict).shared]
      rfl
    rw [counter, Function.update_apply]
    split
    · next same => exact same ▸ ge
    · exact le_rfl
  · rw [(works_publish verdict).shared]

theorem mirror_publishInternal (s : State ι) (m : DMesgPb) (i : ι) :
    ((s.publishInternal specs m).handler i).mirror = (s.handler i).mirror := by
  by_cases verdict : s.verdict specs m = .accepted
  · exact ((works_accept verdict).context i).mirror
  · exact ((works_publish verdict).context i).mirror

-- ---------------------------------------------------------------------------
-- Numbers on their way to the publisher
-- ---------------------------------------------------------------------------

/-- The numbers of a handler's unprocessed writes on a topic. -/
def ownNumbers (s : State ι) (i : ι) (topic : String) : List Nat :=
  (s.ownWrites i topic).map Prod.fst

/-- Each writer's numbers follow one another from what the publisher has reached. -/
def Paced (s : State ι) : Prop := ∀ i t,
  Handler.Paced ((s.handler i).mirror.topicRunningCounter t) (s.topicRunningCounter t)
    (s.ownNumbers i t)

/-- A message that carries the topic's next number is one that the publisher counts: its source
is not in conflict, and it is neither marked by the client nor a replay. -/
def counted (specs : ι → HandlerSpec) (s : State ι) (m : DMesgPb) : Prop :=
  m.runningCounter = incrementByOne (s.topicRunningCounter m.topic) →
    s.sourceInConflict specs m = false ∧ m.conflict = false ∧ m.playback = false

instance (s : State ι) (m : DMesgPb) : Decidable (s.counted specs m) :=
  inferInstanceAs (Decidable (_ → _))

/-- The publisher takes up no message that is up to date only to refuse it. -/
def Counted (specs : ι → HandlerSpec) (s : State ι) (a : Action ι) : Prop :=
  Pipelined s a ∧ match a, s.queue with
    | .publish, .publish _ m _ _ :: _ => s.counted specs m
    | _, _ => True

instance (s : State ι) (a : Action ι) : Decidable (Counted specs s a) :=
  have : Decidable (match a, s.queue with
      | .publish, .publish _ m _ _ :: _ => s.counted specs m
      | _, _ => True) :=
    match a, s.queue with
    | .publish, .publish _ m _ _ :: _ => (inferInstance : Decidable (s.counted specs m))
    | .publish, .setHandlerTopicRunningCounter _ _ _ :: _ | .publish, [] | .subscribe _, _
    | .register _ _, _ | .write _ _ _ _, _ | .resolveConflict _ _, _
    | .resetConflictStateWithLastTopicMessage _, _ | .setTopicRunningCounter _ _ _, _
    | .run _, _ | .unsubscribe _, _ | .erase _, _ => isTrue trivial
  instDecidableAnd

theorem ownNumbers_dequeued {i : ι} {wait : Bool} {stamp : Stamp} {queue : List (PublisherTask ι)}
    (eq : s.queue = .publish i m wait stamp :: queue) (j : ι) (t : String) :
    s.ownNumbers j t = (if i = j ∧ m.topic = t then [m.runningCounter] else []) ++
      ({ s with queue } : State ι).ownNumbers j t := by
  unfold ownNumbers
  rw [Watchful.ownWrites_dequeued eq, List.map_append]
  congr 1
  split <;> rfl

namespace Paced

/-- The queue stays, no counter of a context grows, and none of the publisher's falls. -/
theorem transfer (p : s.Paced) (queue : s'.queue = s.queue)
    (mirror : ∀ i t, (s'.handler i).mirror.topicRunningCounter t ≤
      (s.handler i).mirror.topicRunningCounter t)
    (counter : ∀ t, s.topicRunningCounter t ≤ s'.topicRunningCounter t) : s'.Paced := fun i t => by
  have kept := ((p i t).mono (counter t)).anti (mirror i t)
  unfold ownNumbers ownWrites at kept ⊢
  rwa [queue]

/-- The first write of a handler is at most the next one of its topic. -/
theorem head (p : s.Paced) {i : ι} {wait : Bool} {stamp : Stamp} {queue : List (PublisherTask ι)}
    (eq : s.queue = .publish i m wait stamp :: queue) :
    m.runningCounter ≤ s.topicRunningCounter m.topic + 1 := by
  have paced := p i m.topic
  rw [ownNumbers_dequeued eq, if_pos ⟨rfl, rfl⟩] at paced
  exact paced.1

omit [DecidableEq ι] in
theorem next_unforced (unforced : m.force = false) :
    s.nextRunningCounter m = s.topicRunningCounter m.topic + 1 := by
  unfold nextRunningCounter
  rw [unforced]
  rfl

/-- So a message that is not accepted is not ahead. -/
theorem refused (p : s.Paced) {i : ι} {wait : Bool} {stamp : Stamp} {queue : List (PublisherTask ι)}
    (eq : s.queue = .publish i m wait stamp :: queue) (unforced : m.force = false)
    (counted : s.counted specs m) (refused : s.verdict specs m ≠ .accepted) :
    m.runningCounter ≤ s.topicRunningCounter m.topic := by
  have le := p.head eq
  by_contra ahead
  have reaches : m.runningCounter = incrementByOne (s.topicRunningCounter m.topic) := by
    unfold incrementByOne
    omega
  obtain ⟨quiet, unmarked, live⟩ := counted reaches
  refine refused (verdict_accepted.mpr ⟨live, .inl quiet, ?_, unmarked⟩)
  rw [next_unforced unforced]
  omega

theorem timely (p : s.Paced) {i : ι} {wait : Bool} {stamp : Stamp} {queue : List (PublisherTask ι)}
    (eq : s.queue = .publish i m wait stamp :: queue) (unforced : m.force = false)
    (counted : s.counted specs m) : s.timely specs m := by
  have refused := p.refused eq unforced counted
  unfold State.timely
  match verdict : s.verdict specs m with
  | .accepted =>
    show m.runningCounter ≤ s.nextRunningCounter m
    rw [next_unforced unforced]
    exact p.head eq
  | .dropped => exact refused (by rw [verdict]; nofun)
  | .marked => exact refused (by rw [verdict]; nofun)
  | .replayed => exact .inl (refused (by rw [verdict]; nofun))

/-- The publisher takes a write from its queue. -/
theorem taken (p : s.Paced) {i : ι} {wait : Bool} {stamp : Stamp} {queue : List (PublisherTask ι)}
    (eq : s.queue = .publish i m wait stamp :: queue) (unforced : m.force = false)
    (counted : s.counted specs m) :
    (({ s with queue } : State ι).publishInternal specs m).Paced := by
  intro j t
  have paced := p j t
  have next := next_unforced (s := s) unforced
  have own : ({ s with queue } : State ι).ownNumbers j t =
      (({ s with queue } : State ι).publishInternal specs m).ownNumbers j t := by
    unfold ownNumbers ownWrites
    rw [publishInternal_queue]
  have ge : s.topicRunningCounter t ≤
      (({ s with queue } : State ι).publishInternal specs m).topicRunningCounter t :=
    counter_publishInternal (s := { s with queue })
      (show s.topicRunningCounter m.topic ≤ s.nextRunningCounter m by omega) t
  rw [mirror_publishInternal]
  rw [ownNumbers_dequeued eq, own] at paced
  split at paced
  · next same =>
    obtain ⟨rfl, rfl⟩ := same
    refine paced.2.mono (Nat.max_le.mpr ⟨ge, ?_⟩)
    by_cases verdict : s.verdict specs m = .accepted
    · have counter : (({ s with queue } : State ι).publishInternal specs m).topicRunningCounter =
          Function.update s.topicRunningCounter m.topic (s.nextRunningCounter m) := by
        rw [(works_accept (s := { s with queue }) verdict).shared]
        rfl
      rw [counter, Function.update_self, next]
      exact p.head eq
    · exact (p.refused eq unforced counted verdict).trans ge
  · exact paced.mono ge

@[simp] theorem update_queue (s : State ι) (i : ι) (h : Handler) :
    (s.update i h).queue = s.queue := rfl

/-- A handler's context numbers a message and queues it. -/
theorem write (p : s.Paced) (i : ι) (m : DMesgPb) (block force : Bool) :
    (s.writeDMesgInternal specs i m block force).Paced := by
  unfold writeDMesgInternal
  simp only
  split
  · exact p
  · intro j t
    have paced := p j t
    unfold ownNumbers ownWrites at paced ⊢
    simp only [List.filterMap_append, List.map_append]
    show Handler.Paced (((s.update i _).handler j).mirror.topicRunningCounter t)
      (s.topicRunningCounter t) _
    rw [update_handler]
    by_cases same : j = i
    · subst same
      rw [if_pos rfl]
      by_cases here : (s.stamped specs j m force).topic = t
      · subst here
        simpa [ownWrite, stamped, incrementByOne] using paced.concat
      · simpa [ownWrite, here, Function.update_of_ne (Ne.symm here)] using paced
    · rw [if_neg same]
      simpa [ownWrite, Ne.symm same] using paced

/-- The context runs a task, which brings no number that the publisher has not reached. -/
theorem run (p : s.Paced) (within : s.Within) {i : ι} {task : HandlerTask}
    {inbox : List HandlerTask} (queued : (s.handler i).inbox = task :: inbox) :
    (s.update i ({ s.handler i with inbox }.run task)).Paced := by
  intro j t
  have paced := p j t
  show Handler.Paced (((s.update i _).handler j).mirror.topicRunningCounter t)
    (s.topicRunningCounter t) (s.ownNumbers j t)
  rw [update_handler]
  split
  · next same =>
    subst same
    exact (paced.raise (within j task (queued ▸ List.mem_cons_self) t)).anti
      (Handler.counter_run _ task)
  · exact paced

end Paced

-- ---------------------------------------------------------------------------
-- Every step
-- ---------------------------------------------------------------------------

namespace Within

theorem update (within : s.Within) {i : ι} {h : Handler} (new : h.Within s.topicRunningCounter) :
    (s.update i h).Within := fun j => by
  rw [update_handler]
  split
  · exact new
  · exact within j

theorem release (within : s.Within) (i : ι) (wait : Bool) : (s.release i wait).Within := by
  unfold State.release
  split
  · exact within.update (within i)
  · exact within

/-- The cache is replayed. -/
theorem playback (within : s.Within) (handing : s.Handing specs) (w : s.Wellformed specs)
    (order : List String) : (s.playbackLastTopicDMesgPbInternal specs order).Within := by
  unfold playbackLastTopicDMesgPbInternal
  induction order generalizing s with
  | nil => exact within
  | cons topic order ih =>
    rw [List.foldl_cons]
    split
    · exact ih within handing w
    · next m last =>
      have cached := w.cached topic m last
      refine ih (within.publishInternal handing w ?_ ?_) (handing.replay w last)
        (w.publishInternal cached.positive)
      · unfold State.timely
        rw [verdict_replayed.mpr rfl]
        exact .inl (by rw [cached.topic]; exact cached.runningCounter.le)
      · unfold nextRunningCounter incrementByOne
        simp only
        split
        · rw [cached.topic, cached.runningCounter]
        · exact Nat.le_succ _

theorem register (within : s.Within) (handing : s.Handing specs) (w : s.Wellformed specs) {i : ι}
    (subscribed : i ∈ s.subscribers) (new : i ∉ s.handlers) (order : List String) :
    (s.register specs i order).Within := by
  have listed : ({ s with handlers := s.handlers ++ [i] }.update i
      { s.handler i with state := some {}, registeredAt := s.accepted.length }).Within :=
    Within.update (s := { s with handlers := s.handlers ++ [i] }) within (within i)
  have played := listed.playback (handing.listed w subscribed new) (w.listed subscribed new) order
  refine played.update fun task mem t => ?_
  rcases List.mem_append.mp mem with mem | mem
  · exact played i task mem t
  · cases List.mem_singleton.mp mem
    exact Nat.zero_le _

theorem reset (within : s.Within) (handing : s.Handing specs) (w : s.Wellformed specs)
    (topic : String) : (s.resetConflictStateWithLastTopicMessageInternal specs topic).Within := by
  unfold resetConflictStateWithLastTopicMessageInternal
  split
  · exact within
  · next m last =>
    have cached := w.cached topic m last
    refine within.publishInternal handing w ?_ ?_
    · have accepted : s.verdict specs { m with force := true } = .accepted :=
        verdict_accepted.mpr ⟨cached.playback, .inr rfl, le_rfl, cached.conflict⟩
      unfold State.timely
      rw [accepted]
      exact le_rfl
    · show s.topicRunningCounter m.topic ≤ m.runningCounter
      rw [cached.topic, cached.runningCounter]

theorem step (within : s.Within) (handing : s.Handing specs) (serial : s.Serial specs)
    (written : s.Written) {a : Action ι} (ok : Timely specs s a)
    (h : s.step specs a = some s') : s'.Within := by
  have w := serial.toWellformed
  cases a <;> simp only [State.step] at h
  case subscribe i =>
    split at h
    · cases h
    · cases h
      exact within
  case register i order =>
    split at h
    · next guard =>
      cases h
      exact within.register handing w guard.1 guard.2.1 order
    · cases h
  case write i m block force =>
    split at h
    · cases h
      unfold writeDMesgInternal
      simp only
      split
      · exact within
      · exact within.update (within i)
    · cases h
  case publish =>
    split at h
    · cases h
    · next task queue eq =>
      cases h
      cases task with
      | publish i m wait stamp =>
        have timely : s.timely specs m := by
          have ok := ok.2
          rw [eq] at ok
          exact ok
        have unforced := serial.unforced i m wait stamp (eq ▸ List.mem_cons_self)
        have rest : ({ s with queue } : State ι).Handing specs :=
          handing.still (fun _ => .refl _) rfl rfl (fun _ mem => mem) fun _ mem _ => mem
        exact (Within.publishInternal (s := { s with queue }) within rest (w.dequeued eq) timely
          (by rw [Paced.next_unforced unforced]; exact Nat.le_succ _)).release i wait
      | setHandlerTopicRunningCounter i topic n =>
        exact absurd (eq ▸ List.mem_cons_self) (written i topic n)
  case resolveConflict i topic =>
    split at h
    · cases h
      exact within.update ((within i).resolve (handing.bounded i) topic none)
    · cases h
  case resetConflictStateWithLastTopicMessage topic =>
    cases h
    exact within.reset handing w topic
  case setTopicRunningCounter => exact ok.1.2.elim
  case run i =>
    split at h
    · cases h
    · next task inbox queued =>
      split at h
      · cases h
      · cases h
        refine within.update fun task' mem t => within i task' ?_ t
        rw [queued]
        cases task <;> exact List.mem_cons_of_mem _ mem
  case unsubscribe i =>
    split at h
    · cases h
      exact within
    · cases h
  case erase i =>
    split at h
    · cases h
      exact Within.update (s := { s with handlers := s.handlers.erase i }) within (within i)
    · cases h

end Within

namespace Paced

/-- A handler changes, its counters apart. -/
theorem update (p : s.Paced) {i : ι} {h : Handler} (mirror : h.mirror = (s.handler i).mirror) :
    (s.update i h).Paced := by
  refine p.transfer rfl (fun j t => ?_) fun _ => le_rfl
  rw [update_handler]
  split
  · next same => rw [same, mirror]
  · exact le_rfl

theorem release (p : s.Paced) (i : ι) (wait : Bool) : (s.release i wait).Paced := by
  unfold State.release
  split
  · exact p.update rfl
  · exact p

theorem register (p : s.Paced) (i : ι) (order : List String) :
    (s.register specs i order).Paced := by
  have listed : ({ s with handlers := s.handlers ++ [i] }.update i
      { s.handler i with state := some {}, registeredAt := s.accepted.length }).Paced :=
    Paced.update (s := { s with handlers := s.handlers ++ [i] }) p rfl
  have played : Works _ (playbackLastTopicDMesgPbInternal specs
      ({ s with handlers := s.handlers ++ [i] }.update i
        { s.handler i with state := some {}, registeredAt := s.accepted.length }) order) :=
    works_playback _ order
  refine Paced.update (listed.transfer (by rw [played.shared]) (fun j t => ?_) fun t => ?_) rfl
  · rw [(played.context j).mirror]
  · rw [played.shared]

theorem reset (p : s.Paced) (w : s.Wellformed specs) (topic : String) :
    (s.resetConflictStateWithLastTopicMessageInternal specs topic).Paced := by
  unfold resetConflictStateWithLastTopicMessageInternal
  split
  · exact p
  · next m last =>
    have cached := w.cached topic m last
    refine p.transfer (publishInternal_queue s _) (fun j t => ?_) (counter_publishInternal ?_)
    · rw [mirror_publishInternal]
    · show s.topicRunningCounter m.topic ≤ m.runningCounter
      rw [cached.topic, cached.runningCounter]

theorem step (p : s.Paced) (within : s.Within) (serial : s.Serial specs) (written : s.Written)
    {a : Action ι} (ok : Counted specs s a) (h : s.step specs a = some s') : s'.Paced := by
  have w := serial.toWellformed
  cases a <;> simp only [State.step] at h
  case subscribe i =>
    split at h
    · cases h
    · cases h
      exact p
  case register i order =>
    split at h
    · cases h
      exact p.register i order
    · cases h
  case write i m block force =>
    split at h
    · cases h
      exact p.write i m block force
    · cases h
  case publish =>
    split at h
    · cases h
    · next task queue eq =>
      cases h
      cases task with
      | publish i m wait stamp =>
        have counted : s.counted specs m := by
          have ok := ok.2
          rw [eq] at ok
          exact ok
        have unforced := serial.unforced i m wait stamp (eq ▸ List.mem_cons_self)
        exact (p.taken eq unforced counted).release i wait
      | setHandlerTopicRunningCounter i topic n =>
        exact absurd (eq ▸ List.mem_cons_self) (written i topic n)
  case resolveConflict i topic =>
    split at h
    · cases h
      exact p.update (Handler.silent_resolve _ _ _).mirror
    · cases h
  case resetConflictStateWithLastTopicMessage topic =>
    cases h
    exact p.reset w topic
  case setTopicRunningCounter => exact ok.1.2.elim
  case run i =>
    split at h
    · cases h
    · next task inbox queued =>
      split at h
      · cases h
      · cases h
        exact p.run within queued
  case unsubscribe i =>
    split at h
    · cases h
      exact p
    · cases h
  case erase i =>
    split at h
    · cases h
      exact Paced.update (s := { s with handlers := s.handlers.erase i }) p rfl
    · cases h

/-- A message that is taken up is timely. -/
theorem step_timely (p : s.Paced) (serial : s.Serial specs) {a : Action ι}
    (ok : Counted specs s a) : Timely specs s a := by
  refine ⟨ok.1, ?_⟩
  cases a <;> try exact trivial
  have counted := ok.2
  cases queue : s.queue with
  | nil => trivial
  | cons task rest =>
    rw [queue] at counted
    cases task with
    | publish i m wait stamp =>
      exact p.timely queue (serial.unforced i m wait stamp (queue ▸ List.mem_cons_self)) counted
    | setHandlerTopicRunningCounter => trivial

theorem reached (run : ReachesBy (State.step specs) (Counted specs) ({} : State ι) s) :
    s.Handing specs := by
  have all : s.Serial specs ∧ s.Written ∧ s.Handing specs ∧ s.Within ∧ s.Paced :=
    run.invariant (I := fun s => s.Serial specs ∧ s.Written ∧ s.Handing specs ∧ s.Within ∧ s.Paced)
      ⟨.new, nofun, .new, nofun, fun _ _ => le_rfl⟩
      fun ⟨serial, written, handing, within, paced⟩ ok h =>
        have timely := paced.step_timely serial ok
        ⟨serial.step ok.1.1 h, written.step ok.1 h, handing.step serial written timely h,
          within.step handing serial written timely h, paced.step within serial written ok h⟩
  exact all.2.2.1

end Paced

-- ---------------------------------------------------------------------------
-- Every run
-- ---------------------------------------------------------------------------

/-- No accepted message is missed: the publisher is never behind its counter of a
handler, and a subscriber was handed what it wants, once and in order. -/
structure Delivers (specs : ι → HandlerSpec) (s : State ι) : Prop where
  behind : ∀ i ∈ s.handlers, ∀ t, (s.handler i).counterOf t ≤ s.topicRunningCounter t
  handed : ∀ i ∈ s.subscribers, i ∈ s.handlers →
    (s.handler i).delivered.filter ordinary = (s.acceptedSince i).filter (wanted (specs i))

theorem delivery (run : ReachesBy (step specs) (Counted specs) ({} : State ι) s) :
    Delivers specs s := by
  have handing := Paced.reached run
  exact ⟨fun i _ => handing.bounded i, handing.handed⟩

/-- The second handler has two messages in the queue when the first one's is
accepted; the refused second message takes the publisher's counter ahead. -/
def overshooting : List (Action (Fin 2)) :=
  openPair ++ [Action.write 0 { topic := "t" } false false, .write 1 { topic := "t" } false false,
    .write 1 { topic := "t" } false false, .publish, .publish, .publish,
    .resolveConflict 0 "t", .write 0 { topic := "t" } false false, .publish]

/-- Two writes of the second handler are on their way with one of the first; all are taken up,
and the first handler is handed what was accepted of them. -/
def pipelined : List (Action (Fin 2)) :=
  openPair ++ [Action.write 1 { topic := "t" } false false, .write 1 { topic := "t" } false false,
    .write 0 { topic := "t" } false false, .publish, .publish, .publish]

theorem delivery_handed :
    ∃ s, ReachesBy (step pair) (Counted pair) ({} : State (Fin 2)) s ∧
      (s.handler 0).delivered.length = 2 ∧ Delivers pair s := by
  have ran : ((execBy (step pair) (Counted pair) {} pipelined).map fun s =>
      (s.handler 0).delivered.length) = some 2 := by decide
  obtain ⟨s, run, two⟩ := Option.map_eq_some_iff.mp ran
  exact ⟨s, .of_execBy run, two, delivery (.of_execBy run)⟩

theorem delivery_overshooting :
    ¬ ∀ s, ReachesBy (step pair) Pipelined ({} : State (Fin 2)) s → Delivers pair s := by
  intro all
  have ran : ((execBy (step pair) Pipelined ({} : State (Fin 2)) overshooting).map fun s =>
      decide (1 ∈ s.subscribers ∧ 1 ∈ s.handlers ∧
        ((s.handler 1).delivered.filter ordinary).length = 1 ∧
        ((s.acceptedSince 1).filter (wanted (pair 1))).length = 2)) = some true := by decide
  obtain ⟨s, run, h⟩ := Option.map_eq_some_iff.mp ran
  obtain ⟨subscribed, listed, one, two⟩ := of_decide_eq_true h
  have handed := (all s (.of_execBy run)).handed 1 subscribed listed
  rw [← handed, one] at two
  cases two

end State
end Dmn.DMesg
