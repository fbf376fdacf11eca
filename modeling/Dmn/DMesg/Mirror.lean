import Dmn.DMesg.Invariant

/-!
# Mirrors and observers

A handler's context keeps a copy of the publisher's record of its conflicts.
Every change of the record is queued as an event, so the copy with the queued
events applied is the record: each operation does to the one what its event
does to the other. The observer's stream is read off the same events.
-/

namespace Dmn.DMesg

open Dmn.Lib

-- ---------------------------------------------------------------------------
-- The stream of transitions
-- ---------------------------------------------------------------------------

/-- The events that enter or leave a conflict. -/
def transitions (events : List HandlerEvent) : List HandlerEvent :=
  events.filter fun e => e.type ≠ .kMessage

def typesOf (topic : String) (events : List HandlerEvent) : List HandlerEventType :=
  (events.filter fun e => e.topic = topic).map HandlerEvent.type

/-- Entered, resolved, entered, …. -/
def alternating (n : Nat) : List HandlerEventType :=
  (List.range n).map fun k => if k % 2 = 0 then .kConflictEntered else .kConflictResolved

theorem alternating_succ (n : Nat) : alternating (n + 1) =
    alternating n ++ [if n % 2 = 0 then .kConflictEntered else .kConflictResolved] := by
  simp [alternating, List.range_succ]

@[simp] theorem alternating_length (n : Nat) : (alternating n).length = n := by
  simp [alternating]

/-- A stream of transitions that ends in these conflicts and this generation. -/
structure Log (events : List HandlerEvent) (conflict : List String) (generation : UInt64) :
    Prop where
  numbered : events.map HandlerEvent.conflictGeneration =
    (List.range' 1 events.length).map UInt64.ofNat
  generation : generation = UInt64.ofNat events.length
  alternate : ∀ t, typesOf t events = alternating (typesOf t events).length
  inConflict : ∀ t, t ∈ conflict ↔ (typesOf t events).length % 2 = 1

theorem typesOf_append (topic : String) (events more : List HandlerEvent) :
    typesOf topic (events ++ more) = typesOf topic events ++ typesOf topic more := by
  simp [typesOf]

theorem typesOf_single (topic : String) (e : HandlerEvent) :
    typesOf topic [e] = if e.topic = topic then [e.type] else [] := by
  unfold typesOf
  split
  · next same => simp [same]
  · next other => simp [other]

variable {events : List HandlerEvent} {conflict conflict' : List String} {generation : UInt64}
  {e : HandlerEvent}

theorem Log.new : Log [] [] 0 :=
  ⟨rfl, rfl, fun _ => rfl, fun _ => ⟨nofun, nofun⟩⟩

/-- A transition of one topic, in the direction that the topic's turn asks for. -/
theorem Log.snoc (log : Log events conflict generation)
    (next : e.conflictGeneration = generation + 1)
    (turn : e.type = if e.topic ∈ conflict then .kConflictResolved else .kConflictEntered)
    (turned : e.topic ∈ conflict' ↔ e.topic ∉ conflict)
    (others : ∀ t, t ≠ e.topic → (t ∈ conflict' ↔ t ∈ conflict)) :
    Log (events ++ [e]) conflict' (generation + 1) := by
  have parity := log.inConflict e.topic
  have count : generation + 1 = UInt64.ofNat (events.length + 1) := by
    rw [log.generation, UInt64.ofNat_add]
    rfl
  refine ⟨?_, ?_, fun t => ?_, fun t => ?_⟩
  · rw [List.map_append, log.numbered, List.length_append, List.length_singleton,
      List.range'_1_concat, List.map_append, List.map_singleton, List.map_singleton, next, count,
      Nat.add_comm 1]
  · rw [count, List.length_append, List.length_singleton]
  · rw [typesOf_append, typesOf_single]
    split
    · next same =>
      subst same
      rw [List.length_append, List.length_singleton, alternating_succ, ← log.alternate, turn]
      congr 2
      by_cases busy : e.topic ∈ conflict
      · rw [if_pos busy, if_neg (by rw [parity.mp busy]; nofun)]
      · rw [if_neg busy, if_pos]
        have := mt parity.mpr busy
        omega
    · simpa using log.alternate t
  · rw [typesOf_append, typesOf_single, List.length_append]
    split
    · next same =>
      subst same
      rw [turned, parity, List.length_singleton]
      omega
    · next other =>
      rw [others t (Ne.symm other), log.inConflict]
      rfl

/-- What the observer has seen so far is an initial part of the stream. -/
theorem Log.observed {before after : List HandlerEvent}
    (log : Log (before ++ after) conflict generation) :
    before.map HandlerEvent.conflictGeneration =
        (List.range' 1 before.length).map UInt64.ofNat ∧
      ∀ t, typesOf t before = alternating (typesOf t before).length := by
  constructor
  · have numbered := log.numbered
    rw [List.map_append, List.length_append, ← List.range'_append_1, List.map_append] at numbered
    exact List.append_inj_left numbered (by simp)
  · intro t
    have alternate := congrArg (List.take (typesOf t before).length) (log.alternate t)
    rw [typesOf_append, List.take_left, List.length_append] at alternate
    rw [alternate, alternating, ← List.map_take, List.take_range]
    simp [alternating]

-- ---------------------------------------------------------------------------
-- One handler
-- ---------------------------------------------------------------------------

namespace Handler

variable {h h' : Handler} {spec : HandlerSpec} {m : DMesgPb} {state : HandlerState}

/-- What of a context the conflict events read and write. -/
structure SameView (h h' : Handler) : Prop where
  topicInConflict : h'.mirror.topicInConflict = h.mirror.topicInConflict
  conflictGeneration : h'.mirror.conflictGeneration = h.mirror.conflictGeneration
  observed : h'.observed = h.observed

theorem SameView.run (v : SameView h h') (task : HandlerTask) :
    SameView (h.run task) (h'.run task) := by
  cases task with
  | setAfterInitialPlayback => exact ⟨v.topicInConflict, v.conflictGeneration, v.observed⟩
  | event e notifyObserver =>
    refine ⟨?_, rfl, ?_⟩
    · simp only [Handler.run, runEvent, v.topicInConflict]
    · simp only [Handler.run, runEvent, v.observed]

theorem SameView.runAll (v : SameView h h') (inbox : List HandlerTask) :
    SameView (inbox.foldl Handler.run h) (inbox.foldl Handler.run h') := by
  induction inbox generalizing h h' with
  | nil => exact v
  | cons task inbox ih => exact ih (v.run task)

/-- The context once it has run what is queued for it. -/
def caughtUp (h : Handler) : Handler := h.inbox.foldl Handler.run h

theorem SameView.caughtUp (v : SameView h h') (inbox : h'.inbox = h.inbox) :
    SameView h.caughtUp h'.caughtUp := by
  unfold Handler.caughtUp
  rw [inbox]
  exact v.runAll h.inbox

theorem observed_run (h : Handler) (task : HandlerTask) :
    ∃ more, (h.run task).observed = h.observed ++ more := by
  cases task with
  | setAfterInitialPlayback => exact ⟨[], (List.append_nil _).symm⟩
  | event e notifyObserver =>
    cases notifyObserver
    · exact ⟨[], (List.append_nil _).symm⟩
    · exact ⟨[e], rfl⟩

theorem observed_runAll (h : Handler) (inbox : List HandlerTask) :
    ∃ more, (inbox.foldl Handler.run h).observed = h.observed ++ more := by
  induction inbox generalizing h with
  | nil => exact ⟨[], (List.append_nil _).symm⟩
  | cons task inbox ih =>
    obtain ⟨first, eq⟩ := observed_run h task
    obtain ⟨rest, eq'⟩ := ih (h.run task)
    exact ⟨first ++ rest, by rw [List.foldl_cons, eq', eq, List.append_assoc]⟩

/-- The caught-up context agrees with the publisher's record, and its observer's
stream leads there. -/
structure Agrees (h : Handler) (state : HandlerState) : Prop where
  topicInConflict : h.caughtUp.mirror.topicInConflict = state.topicInConflict
  conflictGeneration : h.caughtUp.mirror.conflictGeneration = state.conflictGeneration
  single : state.topicInConflict.Nodup
  log : Log (transitions h.caughtUp.observed) state.topicInConflict state.conflictGeneration

def Mirrored (h : Handler) : Prop := ∀ state, h.state = some state → h.Agrees state

theorem Agrees.congr {state' : HandlerState} (a : h.Agrees state)
    (v : SameView h.caughtUp h'.caughtUp)
    (conflict : state'.topicInConflict = state.topicInConflict)
    (generation : state'.conflictGeneration = state.conflictGeneration) : h'.Agrees state' where
  topicInConflict := by rw [v.topicInConflict, conflict, a.topicInConflict]
  conflictGeneration := by rw [v.conflictGeneration, generation, a.conflictGeneration]
  single := conflict ▸ a.single
  log := by rw [v.observed, conflict, generation]; exact a.log

/-- What an event makes of the conflicts. -/
def topicsAfter (e : HandlerEvent) (topics : List String) : List String :=
  match e.type with
  | .kMessage => topics
  | .kConflictEntered => insertTopic e.topic topics
  | .kConflictResolved => topics.erase e.topic

/-- The record changes and the event is queued. -/
theorem Agrees.push {state' : HandlerState} {notifyObserver : Bool} (a : h.Agrees state)
    (conflict : state'.topicInConflict = topicsAfter e state.topicInConflict)
    (generation : e.conflictGeneration = state'.conflictGeneration)
    (single : state'.topicInConflict.Nodup)
    (log : Log (transitions h.caughtUp.observed ++
        transitions (if notifyObserver then [e] else []))
      state'.topicInConflict state'.conflictGeneration) :
    Agrees { h with
      state := some state'
      inbox := h.inbox ++ [.event e notifyObserver] } state' := by
  have same : SameView h { h with
      state := some state'
      inbox := h.inbox ++ [HandlerTask.event e notifyObserver] } := ⟨rfl, rfl, rfl⟩
  have view : SameView (h.caughtUp.run (.event e notifyObserver)) (caughtUp { h with
      state := some state'
      inbox := h.inbox ++ [HandlerTask.event e notifyObserver] }) := by
    simp only [caughtUp, List.foldl_append, List.foldl_cons, List.foldl_nil]
    exact (same.runAll h.inbox).run _
  refine ⟨?_, ?_, single, ?_⟩
  · rw [conflict, ← a.topicInConflict]
    exact view.topicInConflict
  · rw [← generation]
    exact view.conflictGeneration
  · rw [view.observed]
    cases notifyObserver
    · simpa [transitions, Handler.run, runEvent] using log
    · simpa [transitions, Handler.run, runEvent] using log

theorem nodup_insertTopic {topics : List String} (single : topics.Nodup) (topic : String) :
    (insertTopic topic topics).Nodup := by
  unfold insertTopic
  split
  · exact single
  · next absent =>
    exact (List.perm_orderedInsert _ topic topics).nodup_iff.mpr
      (List.nodup_cons.mpr ⟨absent, single⟩)

theorem mem_insertTopic (topic : String) (topics : List String) (t : String) :
    t ∈ insertTopic topic topics ↔ t = topic ∨ t ∈ topics := by
  unfold insertTopic
  split
  · next present => exact ⟨.inr, by rintro (rfl | h); exacts [present, h]⟩
  · exact List.mem_orderedInsert _

theorem mirrored_setStateCounter (mirrored : h.Mirrored) (topic : String) (n : Nat) :
    (h.setStateCounter topic n).Mirrored := by
  intro state' eq
  obtain ⟨state, present, rfl⟩ := Option.map_eq_some_iff.mp eq
  exact (mirrored state present).congr (SameView.caughtUp ⟨rfl, rfl, rfl⟩ rfl) rfl rfl

theorem mirrored_throw (mirrored : h.Mirrored) (m : DMesgPb) :
    (h.throwHandlerConflict true m).Mirrored := by
  unfold throwHandlerConflict
  split
  · exact mirrored
  · next state present =>
    have a := mirrored state present
    intro state' eq
    simp only [enqueueHandlerEvent, if_true, Option.some.injEq] at eq ⊢
    subst eq
    by_cases busy : m.topic ∈ state.topicInConflict
    · refine a.push ?_ ?_ ?_ ?_
      · rfl
      · rfl
      · exact nodup_insertTopic a.single _
      · simpa [busy, insertTopic, transitions] using a.log
    · refine a.push ?_ ?_ ?_ ?_
      · rfl
      · rfl
      · exact nodup_insertTopic a.single _
      · simp only [busy, not_false_eq_true, decide_true, if_true]
        refine a.log.snoc ?_ ?_ ?_ fun t other => ?_
        · rfl
        · simp [busy]
        · simp [busy, mem_insertTopic]
        · simp only at other
          simp [mem_insertTopic, other]

theorem mirrored_resolveTopic (mirrored : h.Mirrored) (topic : String)
    (message : Option DMesgPb) : (h.resolveTopicConflict true topic message).Mirrored := by
  unfold resolveTopicConflict
  split
  · exact mirrored
  · next state present =>
    have a := mirrored state present
    by_cases busy : topic ∈ state.topicInConflict
    · intro state' eq
      simp only [busy, decide_true, Bool.true_or, if_true, enqueueHandlerEvent,
        Option.some.injEq] at eq ⊢
      subst eq
      refine a.push ?_ ?_ ?_ ?_
      · rfl
      · rfl
      · exact a.single.erase _
      · refine a.log.snoc ?_ ?_ ?_ fun t other => ?_
        · rfl
        · simp [busy]
        · simp [busy, a.single.mem_erase_iff]
        · exact List.mem_erase_of_ne other
    · have absent := List.erase_of_not_mem busy
      intro state' eq
      cases message with
      | none =>
        simp only [busy, decide_false, Option.isSome_none, Bool.or_self, Bool.false_eq_true,
          if_false, Option.some.injEq] at eq ⊢
        subst eq
        exact a.congr (SameView.caughtUp ⟨rfl, rfl, rfl⟩ rfl) absent (by simp)
      | some m =>
        simp only [busy, decide_false, Option.isSome_some, Bool.false_or, if_true,
          enqueueHandlerEvent, Option.some.injEq] at eq ⊢
        subst eq
        refine a.push ?_ ?_ ?_ ?_
        · rfl
        · rfl
        · exact a.single.erase _
        · simpa [absent, transitions] using a.log

theorem mirrored_resolveTopics (mirrored : h.Mirrored) (message : Option DMesgPb)
    (topics : List String) :
    (topics.foldl (fun h t => h.resolveTopicConflict true t message) h).Mirrored := by
  induction topics generalizing h with
  | nil => exact mirrored
  | cons t topics ih => exact ih (mirrored_resolveTopic mirrored t message)

theorem mirrored_resolve (mirrored : h.Mirrored) (topic : String) (message : Option DMesgPb) :
    (h.resolveHandlerConflict true topic message).Mirrored := by
  unfold resolveHandlerConflict
  split
  · exact mirrored
  · next state _ =>
    split
    · exact mirrored_resolveTopics mirrored message state.topicInConflict
    · exact mirrored_resolveTopic mirrored topic message

theorem mirrored_message (mirrored : h.Mirrored) (topic : String) (message : Option DMesgPb) :
    (h.enqueueHandlerEvent true .kMessage topic message true).Mirrored := by
  unfold enqueueHandlerEvent
  split
  · exact mirrored
  · next state present =>
    have a := mirrored state present
    intro state' eq
    simp only [if_true] at eq ⊢
    cases present.symm.trans eq
    obtain ⟨_⟩ := h
    cases present
    refine a.push ?_ ?_ a.single ?_
    · rfl
    · rfl
    · simpa [transitions] using a.log

theorem mirrored_notify (mirrored : h.Mirrored) (m : DMesgPb) :
    (h.notify spec true m).Mirrored := by
  unfold notify
  split
  · exact mirrored
  · split
    · split
      · exact mirrored_throw mirrored m
      · exact mirrored
    · split
      · have resolved := mirrored_resolve (mirrored_setStateCounter mirrored m.topic
          m.runningCounter) m.topic (some m)
        split
        · exact resolved
        · split
          · split
            · exact fun state eq => (mirrored_message resolved m.topic (some m) state eq).congr
                (SameView.caughtUp ⟨rfl, rfl, rfl⟩ rfl) rfl rfl
            · exact mirrored
          · exact mirrored
      · exact mirrored

theorem mirrored_receive (mirrored : h.Mirrored) (m : DMesgPb) :
    (h.receive spec true m).Mirrored := by
  unfold receive
  split
  · exact mirrored_notify mirrored m
  · exact mirrored

/-- The context runs a task: what is left to run leads to the same. -/
theorem mirrored_run (mirrored : h.Mirrored) {task : HandlerTask} {inbox : List HandlerTask}
    (queued : h.inbox = task :: inbox) : ({ h with inbox }.run task).Mirrored := by
  intro state eq
  have present : h.state = some state := by cases task <;> exact eq
  have left : ({ h with inbox }.run task).inbox = inbox := by cases task <;> rfl
  have same : SameView h { h with inbox } := ⟨rfl, rfl, rfl⟩
  refine (mirrored state present).congr ?_ rfl rfl
  unfold caughtUp
  rw [left, queued]
  exact (same.run task).runAll inbox

theorem mirrored_none (none : h.state = none) : h.Mirrored := by
  intro state eq
  rw [none] at eq
  cases eq

end Handler

-- ---------------------------------------------------------------------------
-- Runs
-- ---------------------------------------------------------------------------

namespace State

variable {ι : Type} [DecidableEq ι] {specs : ι → HandlerSpec} {s s' : State ι} {m : DMesgPb}

def Mirrored (s : State ι) : Prop := ∀ i, (s.handler i).Mirrored

/-- Work on a handler with a state is work on a listed one. -/
theorem Wellformed.byState (w : s.Wellformed specs) (i : ι) :
    s.listed i = true ∨ (s.handler i).state = none := by
  cases state : (s.handler i).state with
  | none => exact .inr rfl
  | some => exact .inl (decide_eq_true ((w.registered i).mp (by simp [state])))

namespace Mirrored

theorem update {i : ι} {h : Handler} (mirrored : s.Mirrored) (new : h.Mirrored) :
    (s.update i h).Mirrored := by
  intro j
  rw [update_handler]
  split
  · exact new
  · exact mirrored j

theorem noteSource (mirrored : s.Mirrored) (m : DMesgPb) : (s.noteSource specs m).Mirrored := by
  unfold State.noteSource
  split
  · exact mirrored
  · exact mirrored.update (Handler.mirrored_setStateCounter (mirrored _) _ _)

theorem throwSource (mirrored : s.Mirrored) (w : s.Wellformed specs) (m : DMesgPb) :
    (s.throwSource specs m).Mirrored := by
  unfold State.throwSource
  split
  · exact mirrored
  · next i _ =>
    refine mirrored.update ?_
    rcases w.byState i with listed | none
    · rw [listed]
      exact Handler.mirrored_throw (mirrored i) m
    · rw [(Handler.silent_throw _ m).idle none]
      exact mirrored i

theorem notifyAll (mirrored : s.Mirrored) (w : s.Wellformed specs) (m : DMesgPb) :
    (s.notifyAll specs m).Mirrored := by
  intro i
  rw [notifyAll_eq w.subscribers]
  simp only
  split
  · rcases w.byState i with listed | none
    · rw [listed]
      exact Handler.mirrored_receive (mirrored i) m
    · rw [(Handler.receive_context _ m).idle none]
      exact mirrored i
  · exact mirrored i

theorem publishInternal (mirrored : s.Mirrored) (w : s.Wellformed specs)
    (positive : 1 ≤ m.runningCounter) : (s.publishInternal specs m).Mirrored := by
  have noted : (s.noteSource specs m).Wellformed specs := w.works (works_noteSource s m)
  match verdict : s.verdict specs m with
  | .replayed => exact publishInternal_replayed verdict ▸ mirrored.notifyAll w m
  | .dropped => exact publishInternal_dropped verdict ▸ mirrored.noteSource m
  | .marked =>
    rw [publishInternal_marked verdict]
    exact ((mirrored.noteSource m).throwSource noted _).notifyAll
      (noted.works (works_throwSource _ _)) _
  | .accepted =>
    obtain ⟨playback, -, -, conflict⟩ := verdict_accepted.mp verdict
    rw [publishInternal_accepted verdict]
    refine Mirrored.notifyAll (s := (s.noteSource specs m).cache (s.renumbered m))
      (mirrored.noteSource m) (noted.cache (m := s.renumbered m) ?_ conflict playback) _
    unfold renumbered nextRunningCounter
    simp only
    split
    · exact positive
    · exact Nat.succ_pos _

theorem release (mirrored : s.Mirrored) (i : ι) (wait : Bool) : (s.release i wait).Mirrored := by
  unfold State.release
  split
  · exact mirrored.update fun state eq => (mirrored i state eq).congr
      (Handler.SameView.caughtUp ⟨rfl, rfl, rfl⟩ rfl) rfl rfl
  · exact mirrored

theorem runPublisher (mirrored : s.Mirrored) (w : s.Wellformed specs) {task : PublisherTask ι}
    (positive : ∀ i m wait stamp, task = .publish i m wait stamp → 1 ≤ m.runningCounter) :
    (s.runPublisher specs task).Mirrored := by
  cases task with
  | publish i m wait stamp =>
    exact (mirrored.publishInternal w (positive i m wait stamp rfl)).release i wait
  | setHandlerTopicRunningCounter i topic n =>
    exact (mirrored.update (Handler.mirrored_setStateCounter (mirrored i) topic n)).release i true

theorem playback (mirrored : s.Mirrored) (w : s.Wellformed specs) (order : List String) :
    (s.playbackLastTopicDMesgPbInternal specs order).Mirrored := by
  unfold playbackLastTopicDMesgPbInternal
  induction order generalizing s with
  | nil => exact mirrored
  | cons t order ih =>
    rw [List.foldl_cons]
    split
    · exact ih mirrored w
    · next m last =>
      have positive := (w.cached t m last).positive
      exact ih (mirrored.publishInternal w positive) (w.publishInternal positive)

theorem register (mirrored : s.Mirrored) (w : s.Wellformed specs) {i : ι}
    (subscribed : i ∈ s.subscribers) (new : i ∉ s.handlers) (order : List String) :
    (s.register specs i order).Mirrored := by
  have fresh := w.fresh i (.inr ⟨subscribed, new⟩)
  have started : ({ s with handlers := s.handlers ++ [i] }.update i
      { s.handler i with state := some {}, registeredAt := s.accepted.length }).Mirrored := by
    refine Mirrored.update mirrored fun state eq => ?_
    rw [fresh] at eq ⊢
    cases eq
    exact ⟨rfl, rfl, List.nodup_nil, .new⟩
  have played := started.playback (w.listed subscribed new) order
  refine played.update fun state eq => ?_
  refine (played i state eq).congr ?_ rfl rfl
  have same : ∀ h : Handler, Handler.SameView h.caughtUp
      (Handler.caughtUp { h with inbox := h.inbox ++ [.setAfterInitialPlayback] }) := by
    intro h
    unfold Handler.caughtUp
    rw [List.foldl_append]
    have view : Handler.SameView h { h with inbox := h.inbox ++ [.setAfterInitialPlayback] } :=
      ⟨rfl, rfl, rfl⟩
    have all := view.runAll h.inbox
    exact ⟨all.topicInConflict, all.conflictGeneration, all.observed⟩
  exact same _

theorem write (mirrored : s.Mirrored) (i : ι) (m : DMesgPb) (block force : Bool) :
    (s.writeDMesgInternal specs i m block force).Mirrored := by
  unfold writeDMesgInternal
  simp only
  split
  · exact mirrored
  · exact mirrored.update fun state eq => (mirrored i state eq).congr
      (Handler.SameView.caughtUp ⟨rfl, rfl, rfl⟩ rfl) rfl rfl

theorem step (mirrored : s.Mirrored) (w : s.Wellformed specs) {a : Action ι}
    (h : s.step specs a = some s') : s'.Mirrored := by
  cases a <;> simp only [State.step] at h
  case subscribe i =>
    split at h
    · cases h
    · cases h
      exact mirrored
  case register i order =>
    split at h
    · next guard =>
      cases h
      exact mirrored.register w guard.1 guard.2.1 order
    · cases h
  case write i m block force =>
    split at h
    · cases h
      exact mirrored.write i m block force
    · cases h
  case publish =>
    split at h
    · cases h
    · next task queue eq =>
      cases h
      refine Mirrored.runPublisher (s := { s with queue }) mirrored (w.dequeued eq)
        fun i m wait stamp head => ?_
      exact (w.queued i m wait stamp (by rw [eq, head]; exact List.mem_cons_self)).1
  case resolveConflict i topic =>
    split at h
    · next guard =>
      cases h
      rw [guard.1]
      exact mirrored.update (Handler.mirrored_resolve (mirrored i) topic none)
    · cases h
  case resetConflictStateWithLastTopicMessage topic =>
    cases h
    unfold resetConflictStateWithLastTopicMessageInternal
    split
    · exact mirrored
    · next m last => exact mirrored.publishInternal w (w.cached topic m last).positive
  case setTopicRunningCounter i topic n =>
    split at h
    · cases h
      exact mirrored.update fun state eq => (mirrored i state eq).congr
        (Handler.SameView.caughtUp ⟨rfl, rfl, rfl⟩ rfl) rfl rfl
    · cases h
  case run i =>
    split at h
    · cases h
    · next task inbox queued =>
      split at h
      · cases h
      · cases h
        exact mirrored.update (Handler.mirrored_run (mirrored i) queued)
  case unsubscribe i =>
    split at h
    · cases h
      exact mirrored
    · cases h
  case erase i =>
    split at h
    · cases h
      exact Mirrored.update mirrored (Handler.mirrored_none rfl)
    · cases h

theorem reached (run : Reaches (State.step specs) ({} : State ι) s) : s.Mirrored := by
  have both := run.invariant (I := fun s => s.Wellformed specs ∧ s.Mirrored)
    ⟨.new, fun i => Handler.mirrored_none rfl⟩ fun both _ h =>
      ⟨both.1.step h, both.2.step both.1 h⟩
  exact both.2

end Mirrored

/-- A registered handler's context, with what is queued for it applied, has the
publisher's conflicts and generation; the transitions its observer has seen
alternate on each topic, and are numbered 1, 2, 3, …. -/
theorem mirroring (run : Reaches (step specs) ({} : State ι) s) {i : ι} (listed : i ∈ s.handlers) :
    ∃ state, (s.handler i).state = some state ∧
      ((s.handler i).inbox.foldl Handler.run (s.handler i)).mirror.topicInConflict =
        state.topicInConflict ∧
      ((s.handler i).inbox.foldl Handler.run (s.handler i)).mirror.conflictGeneration =
        state.conflictGeneration ∧
      (∀ t, typesOf t (transitions (s.handler i).observed) =
        alternating (typesOf t (transitions (s.handler i).observed)).length) ∧
      (transitions (s.handler i).observed).map HandlerEvent.conflictGeneration =
        (List.range' 1 (transitions (s.handler i).observed).length).map UInt64.ofNat := by
  obtain ⟨state, present⟩ :=
    Option.isSome_iff_exists.mp (((Wellformed.reached run).registered i).mpr listed)
  have agrees := Mirrored.reached run i state present
  obtain ⟨more, eq⟩ := Handler.observed_runAll (s.handler i) (s.handler i).inbox
  have log : Log (transitions (s.handler i).observed ++ transitions more) state.topicInConflict
      state.conflictGeneration := by
    have log := agrees.log
    rwa [Handler.caughtUp, eq, transitions, List.filter_append] at log
  exact ⟨state, present, agrees.topicInConflict, agrees.conflictGeneration, log.observed.2,
    log.observed.1⟩

/-- Both write the first message of a topic, and the second one is out of date; the
conflict is entered, and resolved for the publisher. -/
def outOfDate : List (Action (Fin 2)) :=
  [.subscribe 0, .register 0 [], .run 0, .subscribe 1, .register 1 [], .run 1,
   .write 0 { topic := "t" } false false, .write 1 { topic := "t" } false false, .publish, .publish,
   .run 1, .run 1, .run 1, .resolveConflict 1 "t"]

theorem mirroring_outOfDate :
    ∃ s, Reaches (step pair) ({} : State (Fin 2)) s ∧ (s.handler 1).inbox.length = 1 ∧
      (transitions (s.handler 1).observed).length = 1 ∧
      ∃ state, (s.handler 1).state = some state ∧
        ((s.handler 1).inbox.foldl Handler.run (s.handler 1)).mirror.topicInConflict =
          state.topicInConflict ∧
        ((s.handler 1).inbox.foldl Handler.run (s.handler 1)).mirror.conflictGeneration =
          state.conflictGeneration ∧
        (∀ t, typesOf t (transitions (s.handler 1).observed) =
          alternating (typesOf t (transitions (s.handler 1).observed)).length) ∧
        (transitions (s.handler 1).observed).map HandlerEvent.conflictGeneration =
          (List.range' 1 (transitions (s.handler 1).observed).length).map UInt64.ofNat := by
  have ran : ((exec (step pair) ({} : State (Fin 2)) outOfDate).map fun s =>
      decide (1 ∈ s.handlers ∧ (s.handler 1).inbox.length = 1 ∧
        (transitions (s.handler 1).observed).length = 1)) = some true := by decide
  obtain ⟨s, run, h⟩ := Option.map_eq_some_iff.mp ran
  obtain ⟨listed, left, observed⟩ := of_decide_eq_true h
  exact ⟨s, .of_exec run, left, observed, mirroring (.of_exec run) listed⟩

end State
end Dmn.DMesg
