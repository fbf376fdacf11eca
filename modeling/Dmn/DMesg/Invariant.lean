import Dmn.DMesg.Publisher

/-!
# What a publication does

`publishInternal` has four verdicts on a message, read off the state before it;
each of them is one equation. `Wellformed` holds after every run: handlers are
registered once, and the cached message of a topic carries the topic's counter.
-/

namespace Dmn.DMesg

open Dmn.Lib

-- ---------------------------------------------------------------------------
-- The publisher's work on one handler leaves the handler's context alone
-- ---------------------------------------------------------------------------

namespace Handler

variable {h h' h'' : Handler} {listed : Bool} {spec : HandlerSpec} {m : DMesgPb}

/-- The publisher's work on a handler: no state comes or goes, and a handler
without one is passed over. -/
structure SameContext (h h' : Handler) : Prop where
  mirror : h'.mirror = h.mirror
  waiting : h'.waiting = h.waiting
  observed : h'.observed = h.observed
  seen : h'.seen = h.seen
  registeredAt : h'.registeredAt = h.registeredAt
  isSome : h'.state.isSome = h.state.isSome
  idle : h.state = none → h' = h

theorem SameContext.refl (h : Handler) : SameContext h h :=
  ⟨rfl, rfl, rfl, rfl, rfl, rfl, fun _ => rfl⟩

theorem SameContext.trans (a : SameContext h h') (b : SameContext h' h'') : SameContext h h'' where
  mirror := b.mirror.trans a.mirror
  waiting := b.waiting.trans a.waiting
  observed := b.observed.trans a.observed
  seen := b.seen.trans a.seen
  registeredAt := b.registeredAt.trans a.registeredAt
  isSome := b.isSome.trans a.isSome
  idle none := by
    have same := a.idle none
    rw [b.idle (same ▸ none), same]

/-- Work that delivers nothing. -/
structure Silent (h h' : Handler) : Prop extends SameContext h h' where
  delivered : h'.delivered = h.delivered

theorem Silent.refl (h : Handler) : Silent h h := ⟨.refl h, rfl⟩

theorem Silent.trans (a : Silent h h') (b : Silent h' h'') : Silent h h'' :=
  ⟨a.toSameContext.trans b.toSameContext, b.delivered.trans a.delivered⟩

theorem silent_enqueue (h : Handler) (type : HandlerEventType) (topic : String)
    (message : Option DMesgPb) (notifyObserver : Bool) :
    Silent h (h.enqueueHandlerEvent listed type topic message notifyObserver) := by
  unfold enqueueHandlerEvent
  split
  · exact .refl h
  · next present =>
    have idle : h.state = none → False := by simp [present]
    split
    · exact ⟨⟨rfl, rfl, rfl, rfl, rfl, rfl, fun none => (idle none).elim⟩, rfl⟩
    · exact .refl h

theorem silent_withState {state : HandlerState} (present : h.state = some state)
    (state' : HandlerState) : Silent h { h with state := some state' } :=
  ⟨⟨rfl, rfl, rfl, rfl, rfl, by simp [present], fun none => by simp [none] at present⟩, rfl⟩

theorem silent_throw (h : Handler) (m : DMesgPb) : Silent h (h.throwHandlerConflict listed m) := by
  unfold throwHandlerConflict
  split
  · exact .refl h
  · next present => exact (silent_withState present _).trans (silent_enqueue _ _ _ _ _)

theorem silent_resolveTopic (h : Handler) (topic : String) (message : Option DMesgPb) :
    Silent h (h.resolveTopicConflict listed topic message) := by
  unfold resolveTopicConflict
  split
  · exact .refl h
  · next present =>
    simp only
    split
    · exact (silent_withState present _).trans (silent_enqueue _ _ _ _ _)
    · exact silent_withState present _

theorem silent_resolveTopics (h : Handler) (message : Option DMesgPb) (topics : List String) :
    Silent h (topics.foldl (fun h t => h.resolveTopicConflict listed t message) h) := by
  induction topics generalizing h with
  | nil => exact .refl h
  | cons t topics ih => exact (silent_resolveTopic h t message).trans (ih _)

theorem silent_resolve (h : Handler) (topic : String) (message : Option DMesgPb) :
    Silent h (h.resolveHandlerConflict listed topic message) := by
  unfold resolveHandlerConflict
  split
  · exact .refl h
  · next state _ =>
    split
    · exact silent_resolveTopics h message state.topicInConflict
    · exact silent_resolveTopic h topic message

theorem silent_setStateCounter (h : Handler) (topic : String) (runningCounter : Nat) :
    Silent h (h.setStateCounter topic runningCounter) := by
  unfold setStateCounter
  refine ⟨⟨rfl, rfl, rfl, rfl, rfl, Option.isSome_map, fun none => ?_⟩, rfl⟩
  obtain ⟨state⟩ := h
  cases none
  rfl

theorem notify_context (h : Handler) (m : DMesgPb) :
    SameContext h (h.notify spec listed m) := by
  unfold notify
  split
  · exact .refl h
  · split
    · split
      · exact (silent_throw h m).toSameContext
      · exact .refl h
    · split
      · next present _ _ =>
        have silent : Silent h ((h.setStateCounter m.topic m.runningCounter).resolveHandlerConflict
            listed m.topic (some m)) :=
          (silent_setStateCounter h m.topic m.runningCounter).trans (silent_resolve _ _ _)
        split
        · exact silent.toSameContext
        · split
          · split
            · have more : Silent h (enqueueHandlerEvent _ listed .kMessage m.topic (some m) true) :=
                silent.trans (silent_enqueue _ _ _ _ _)
              exact { more with idle := fun none => by simp [none] at present }
            · exact .refl h
          · exact .refl h
      · exact .refl h

/-- A conflict is announced, and nothing is delivered. -/
theorem notify_conflict_silent (conflict : m.conflict = true) :
    Silent h (h.notify spec listed m) := by
  unfold notify
  split
  · exact .refl h
  · rw [if_pos conflict]
    split
    · exact silent_throw h m
    · exact .refl h

/-- The publisher passes a message on to one subscriber. -/
def receive (h : Handler) (spec : HandlerSpec) (listed : Bool) (m : DMesgPb) : Handler :=
  if h.accepts spec m then h.notify spec listed m else h

theorem receive_context (h : Handler) (m : DMesgPb) :
    SameContext h (h.receive spec listed m) := by
  unfold receive
  split
  · exact notify_context h m
  · exact .refl h

end Handler

-- ---------------------------------------------------------------------------
-- Verdicts
-- ---------------------------------------------------------------------------

namespace State

variable {ι : Type} [DecidableEq ι] {specs : ι → HandlerSpec} {s s' : State ι} {m : DMesgPb}

@[simp] theorem update_self (s : State ι) (i : ι) : s.update i (s.handler i) = s := by
  simp [update]

theorem update_handler (s : State ι) (i j : ι) (h : Handler) :
    (s.update i h).handler j = if j = i then h else s.handler j := Function.update_apply _ _ _ _

theorem foldl_receive {l : List ι} (single : l.Nodup) (s : State ι) (m : DMesgPb) :
    l.foldl (fun s i =>
      if (s.handler i).accepts (specs i) m then
        s.update i ((s.handler i).notify (specs i) (s.listed i) m)
      else s) s = { s with
        handler := fun i =>
          if i ∈ l then (s.handler i).receive (specs i) (s.listed i) m else s.handler i } := by
  induction l generalizing s with
  | nil => rfl
  | cons i l ih =>
    obtain ⟨absent, single⟩ := List.nodup_cons.mp single
    have first : (if (s.handler i).accepts (specs i) m then
        s.update i ((s.handler i).notify (specs i) (s.listed i) m) else s) =
        s.update i ((s.handler i).receive (specs i) (s.listed i) m) := by
      unfold Handler.receive
      split
      · rfl
      · exact (update_self s i).symm
    rw [List.foldl_cons, first, ih single]
    simp only [update, State.mk.injEq, true_and, and_true]
    refine funext fun j => ?_
    by_cases same : j = i
    · subst same
      simp [absent]
    · simp [same, listed]

theorem notifyAll_eq (single : s.subscribers.Nodup) (m : DMesgPb) :
    s.notifyAll specs m = { s with
      handler := fun i =>
        if i ∈ s.subscribers then (s.handler i).receive (specs i) (s.listed i) m
        else s.handler i } := foldl_receive single s m

inductive Verdict
  | replayed
  | dropped
  | marked
  | accepted
  deriving DecidableEq

/-- What becomes of a message, by the state before it. -/
def verdict (specs : ι → HandlerSpec) (s : State ι) (m : DMesgPb) : Verdict :=
  if m.playback then .replayed
  else if s.sourceInConflict specs m ∧ ¬ m.force then .dropped
  else if s.conflicting m then .marked
  else .accepted

theorem noteSource_handler (s : State ι) (m : DMesgPb) (i : ι) :
    (s.noteSource specs m).handler i = if s.source specs m = some i then
      (s.handler i).setStateCounter m.topic m.runningCounter else s.handler i := by
  unfold noteSource
  split
  · next none => simp [none]
  · next j found =>
    rw [update_handler, found]
    by_cases same : i = j
    · simp [same]
    · simp [same, Ne.symm same]

theorem noteSource_eq (s : State ι) (m : DMesgPb) :
    s.noteSource specs m = { s with handler := (s.noteSource specs m).handler } := by
  unfold noteSource
  split <;> rfl

theorem throwSource_eq (s : State ι) (m : DMesgPb) :
    s.throwSource specs m = { s with handler := (s.throwSource specs m).handler } := by
  unfold throwSource
  split <;> rfl

/-- The two together: the source is noted, and put in conflict. -/
theorem thrown_eq (s : State ι) (m m' : DMesgPb) :
    (s.noteSource specs m).throwSource specs m' =
      { s with handler := ((s.noteSource specs m).throwSource specs m').handler } := by
  rw [throwSource_eq, noteSource_eq]

theorem throwSource_handler (s : State ι) (m : DMesgPb) (i : ι) :
    (s.throwSource specs m).handler i = if s.source specs m = some i then
      (s.handler i).throwHandlerConflict (s.listed i) m else s.handler i := by
  unfold throwSource
  split
  · next none => simp [none]
  · next j found =>
    rw [update_handler, found]
    by_cases same : i = j
    · simp [same]
    · simp [same, Ne.symm same]

theorem source_noteSource (s : State ι) (m m' : DMesgPb) :
    (s.noteSource specs m).source specs m' = s.source specs m' := by
  rw [noteSource_eq]; rfl

theorem sourceInConflict_noteSource (s : State ι) (m : DMesgPb) :
    (s.noteSource specs m).sourceInConflict specs m = s.sourceInConflict specs m := by
  unfold sourceInConflict
  rw [source_noteSource]
  split
  · rfl
  · next i found =>
    rw [noteSource_handler, if_pos found]
    unfold Handler.setStateCounter
    cases (s.handler i).state <;> rfl

theorem nextRunningCounter_noteSource (s : State ι) (m : DMesgPb) :
    (s.noteSource specs m).nextRunningCounter m = s.nextRunningCounter m := by
  rw [noteSource_eq]; rfl

/-- The message that a marked or an accepted one is passed on as. -/
def marked (m : DMesgPb) : DMesgPb := { m with conflict := true }

def renumbered (s : State ι) (m : DMesgPb) : DMesgPb :=
  { m with runningCounter := s.nextRunningCounter m }

theorem publishInternal_eq (s : State ι) (m : DMesgPb) :
    s.publishInternal specs m = match s.verdict specs m with
      | .replayed => s.notifyAll specs m
      | .dropped => s.noteSource specs m
      | .marked => ((s.noteSource specs m).throwSource specs (marked m)).notifyAll specs (marked m)
      | .accepted =>
        ((s.noteSource specs m).cache (s.renumbered m)).notifyAll specs (s.renumbered m) := by
  unfold publishInternal verdict
  split
  · rfl
  · simp only [sourceInConflict_noteSource]
    split
    · rfl
    · have same : (s.noteSource specs m).conflicting m = s.conflicting m := by
        unfold conflicting
        rw [nextRunningCounter_noteSource]
      rw [same, nextRunningCounter_noteSource]
      split <;> rfl

theorem publishInternal_replayed (h : s.verdict specs m = .replayed) :
    s.publishInternal specs m = s.notifyAll specs m := by
  rw [publishInternal_eq, h]

theorem publishInternal_dropped (h : s.verdict specs m = .dropped) :
    s.publishInternal specs m = s.noteSource specs m := by
  rw [publishInternal_eq, h]

theorem publishInternal_marked (h : s.verdict specs m = .marked) :
    s.publishInternal specs m =
      ((s.noteSource specs m).throwSource specs (marked m)).notifyAll specs (marked m) := by
  rw [publishInternal_eq, h]

theorem publishInternal_accepted (h : s.verdict specs m = .accepted) :
    s.publishInternal specs m =
      ((s.noteSource specs m).cache (s.renumbered m)).notifyAll specs (s.renumbered m) := by
  rw [publishInternal_eq, h]

omit [DecidableEq ι] in
theorem verdict_replayed : s.verdict specs m = .replayed ↔ m.playback = true := by
  unfold verdict
  split
  · next playback => simp [playback]
  · next live =>
    refine ⟨?_, fun playback => absurd playback live⟩
    split
    · nofun
    · split <;> nofun

omit [DecidableEq ι] in
theorem verdict_accepted : s.verdict specs m = .accepted ↔
    m.playback = false ∧ (s.sourceInConflict specs m = false ∨ m.force = true) ∧
      s.nextRunningCounter m ≤ m.runningCounter ∧ m.conflict = false := by
  unfold verdict conflicting
  cases m.playback <;> cases s.sourceInConflict specs m <;> cases m.force <;> cases m.conflict <;>
    by_cases late : m.runningCounter < s.nextRunningCounter m <;> simp [late] <;> omega

-- ---------------------------------------------------------------------------
-- The publisher's work on all handlers
-- ---------------------------------------------------------------------------

/-- Nothing but the handlers changed, and each of them by the publisher's work. -/
structure Works (s s' : State ι) : Prop where
  shared : s' = { s with handler := s'.handler }
  context : ∀ i, (s.handler i).SameContext (s'.handler i)

omit [DecidableEq ι] in
theorem Works.refl (s : State ι) : Works s s := ⟨rfl, fun _ => .refl _⟩

omit [DecidableEq ι] in
theorem Works.trans {s'' : State ι} (a : Works s s') (b : Works s' s'') : Works s s'' where
  shared := by rw [b.shared, a.shared]
  context i := (a.context i).trans (b.context i)

theorem works_update {i : ι} {h : Handler} (context : (s.handler i).SameContext h) :
    Works s (s.update i h) where
  shared := rfl
  context j := by
    rw [update_handler]
    split
    · next same => exact same ▸ context
    · exact .refl _

theorem works_notifyAll (s : State ι) (m : DMesgPb) : Works s (s.notifyAll specs m) := by
  unfold notifyAll
  generalize s.subscribers = l
  induction l generalizing s with
  | nil => exact .refl s
  | cons i l ih =>
    refine Works.trans ?_ (ih _)
    show Works s (if _ then _ else _)
    split
    · exact works_update (Handler.notify_context _ _)
    · exact .refl s

theorem works_noteSource (s : State ι) (m : DMesgPb) : Works s (s.noteSource specs m) := by
  unfold noteSource
  split
  · exact .refl s
  · exact works_update (Handler.silent_setStateCounter _ _ _).toSameContext

theorem works_throwSource (s : State ι) (m : DMesgPb) : Works s (s.throwSource specs m) := by
  unfold throwSource
  split
  · exact .refl s
  · exact works_update (Handler.silent_throw _ _).toSameContext

/-- A message that is not accepted leaves everything but handlers alone. -/
theorem works_publish (h : s.verdict specs m ≠ .accepted) :
    Works s (s.publishInternal specs m) := by
  match verdict : s.verdict specs m with
  | .replayed => exact publishInternal_replayed verdict ▸ works_notifyAll s m
  | .dropped => exact publishInternal_dropped verdict ▸ works_noteSource s m
  | .marked =>
    rw [publishInternal_marked verdict]
    exact ((works_noteSource s m).trans (works_throwSource _ _)).trans (works_notifyAll _ _)
  | .accepted => exact absurd verdict h

/-- An accepted one is cached as it is passed on. -/
theorem works_accept (h : s.verdict specs m = .accepted) :
    Works (s.cache (s.renumbered m)) (s.publishInternal specs m) := by
  have noted : Works (s.cache (s.renumbered m)) ((s.noteSource specs m).cache (s.renumbered m)) :=
    ⟨by rw [noteSource_eq]; rfl, fun i => (works_noteSource s m).context i⟩
  rw [publishInternal_accepted h]
  exact noted.trans (works_notifyAll _ _)

-- ---------------------------------------------------------------------------
-- Every run
-- ---------------------------------------------------------------------------

/-- What the cache says of a topic. -/
structure Cached (m : DMesgPb) (topic : String) (runningCounter : Nat) : Prop where
  topic : m.topic = topic
  runningCounter : m.runningCounter = runningCounter
  positive : 1 ≤ m.runningCounter
  conflict : m.conflict = false
  playback : m.playback = false

structure Wellformed (specs : ι → HandlerSpec) (s : State ι) : Prop where
  subscribers : s.subscribers.Nodup
  handlers : s.handlers.Nodup
  opened : ∀ i, i ∈ s.subscribers ∨ i ∈ s.handlers → i ∈ s.opened
  registered : ∀ i, (s.handler i).state.isSome ↔ i ∈ s.handlers
  -- No context works for a handler before its registration.
  fresh : ∀ i, i ∉ s.opened ∨ i ∈ s.subscribers ∧ i ∉ s.handlers → s.handler i = {}
  topics : s.topics.Nodup
  mem_topics : ∀ t, t ∈ s.topics ↔ (s.topicLastDMesgPb t).isSome
  cached : ∀ t m, s.topicLastDMesgPb t = some m → Cached m t (s.topicRunningCounter t)
  uncached : ∀ t, s.topicLastDMesgPb t = none → s.topicRunningCounter t = 0
  queued : ∀ i m wait stamp, .publish i m wait stamp ∈ s.queue →
    1 ≤ m.runningCounter ∧ m.sourceWriteHandlerIdentifier = (specs i).name

namespace Wellformed

omit [DecidableEq ι] in
theorem new : Wellformed specs ({} : State ι) where
  subscribers := List.nodup_nil
  handlers := List.nodup_nil
  opened i h := by rcases h with h | h <;> cases h
  registered i := ⟨nofun, nofun⟩
  fresh i _ := rfl
  topics := List.nodup_nil
  mem_topics t := ⟨nofun, nofun⟩
  cached := nofun
  uncached t _ := rfl
  queued := nofun

omit [DecidableEq ι] in
theorem works (w : s.Wellformed specs) (h : Works s s') : s'.Wellformed specs := by
  have registered : ∀ i, (s'.handler i).state.isSome ↔ i ∈ s.handlers := fun i => by
    rw [(h.context i).isSome]; exact w.registered i
  have fresh : ∀ i, i ∉ s.opened ∨ i ∈ s.subscribers ∧ i ∉ s.handlers → s'.handler i = {} :=
    fun i hi => by
      have fresh := w.fresh i hi
      rw [(h.context i).idle (by rw [fresh]), fresh]
  rw [h.shared]
  exact ⟨w.subscribers, w.handlers, w.opened, registered, fresh, w.topics, w.mem_topics, w.cached,
    w.uncached, w.queued⟩

omit [DecidableEq ι] in
theorem cache (w : s.Wellformed specs) (positive : 1 ≤ m.runningCounter)
    (conflict : m.conflict = false) (playback : m.playback = false) :
    (s.cache m).Wellformed specs := by
  refine { w with topics := ?_, mem_topics := fun t => ?_, cached := fun t m' last => ?_,
                  uncached := fun t last => ?_ }
  · unfold State.cache
    simp only
    split
    · exact w.topics
    · next absent => exact List.nodup_append.mpr ⟨w.topics, List.nodup_singleton _,
        fun a ha b hb => by rw [List.mem_singleton.mp hb]; rintro rfl; exact absent ha⟩
  · have mem : t ∈ (s.cache m).topics ↔ t = m.topic ∨ t ∈ s.topics := by
      unfold State.cache
      simp only
      split
      · next present => exact ⟨.inr, by rintro (rfl | h); exacts [present, h]⟩
      · rw [List.mem_append, List.mem_singleton, or_comm]
    rw [mem, w.mem_topics]
    simp only [State.cache, Function.update_apply]
    split
    · next same => simp [same]
    · next other => simp [other]
  · simp only [State.cache, Function.update_apply] at last ⊢
    split at last
    · next same =>
      cases last
      rw [if_pos same]
      exact ⟨same.symm, rfl, positive, conflict, playback⟩
    · next other =>
      rw [if_neg other]
      exact w.cached t m' last
  · simp only [State.cache, Function.update_apply] at last ⊢
    split at last
    · cases last
    · next other =>
      rw [if_neg other]
      exact w.uncached t last

theorem publishInternal (w : s.Wellformed specs) (positive : 1 ≤ m.runningCounter) :
    (s.publishInternal specs m).Wellformed specs := by
  by_cases h : s.verdict specs m = .accepted
  · obtain ⟨playback, -, -, conflict⟩ := verdict_accepted.mp h
    refine (w.cache (m := s.renumbered m) ?_ conflict playback).works (works_accept h)
    unfold renumbered nextRunningCounter
    simp only
    split
    · exact positive
    · exact Nat.succ_pos _
  · exact w.works (works_publish h)

omit [DecidableEq ι] in
theorem not_fresh (w : s.Wellformed specs) (listed : i ∈ s.handlers) : s.handler i ≠ {} := by
  intro fresh
  have present := (w.registered i).mpr listed
  rw [fresh] at present
  cases present

theorem adjust (w : s.Wellformed specs) {h : Handler}
    (isSome : h.state.isSome = (s.handler i).state.isSome) (fresh : s.handler i = {} → h = {}) :
    (s.update i h).Wellformed specs where
  subscribers := w.subscribers
  handlers := w.handlers
  opened := w.opened
  registered j := by
    rw [update_handler]
    split
    · next same => rw [isSome, same]; exact w.registered i
    · exact w.registered j
  fresh j hj := by
    rw [update_handler]
    split
    · next same => exact fresh (w.fresh i (same ▸ hj))
    · exact w.fresh j hj
  topics := w.topics
  mem_topics := w.mem_topics
  cached := w.cached
  uncached := w.uncached
  queued := w.queued

omit [DecidableEq ι] in
theorem dequeued (w : s.Wellformed specs) {task : PublisherTask ι} {queue : List (PublisherTask ι)}
    (eq : s.queue = task :: queue) : ({ s with queue } : State ι).Wellformed specs :=
  { w with
    queued := fun i m wait stamp mem =>
      w.queued i m wait stamp (eq ▸ List.mem_cons_of_mem _ mem) }

theorem release (w : s.Wellformed specs) (i : ι) (wait : Bool) :
    (s.release i wait).Wellformed specs := by
  unfold State.release
  split
  · exact w.adjust rfl fun fresh => by rw [fresh]
  · exact w

omit [DecidableEq ι] in
theorem enqueue (w : s.Wellformed specs) {task : PublisherTask ι}
    (queued : ∀ i m wait stamp, task = .publish i m wait stamp →
      1 ≤ m.runningCounter ∧ m.sourceWriteHandlerIdentifier = (specs i).name) :
    ({ s with queue := s.queue ++ [task] } : State ι).Wellformed specs :=
  { w with
    queued := fun i m wait stamp mem => by
      rcases List.mem_append.mp mem with mem | mem
      · exact w.queued i m wait stamp mem
      · exact queued i m wait stamp (List.mem_singleton.mp mem).symm }

end Wellformed

theorem mem_of_ready (h : s.ready i = true) : i ∈ s.handlers := by
  simp only [ready, listed, Bool.and_eq_true, decide_eq_true_eq] at h
  exact h.1.1

theorem works_playback (s : State ι) (order : List String) :
    Works s (s.playbackLastTopicDMesgPbInternal specs order) := by
  unfold playbackLastTopicDMesgPbInternal
  induction order generalizing s with
  | nil => exact .refl s
  | cons t order ih =>
    refine Works.trans ?_ (ih _)
    beta_reduce
    split
    · exact .refl s
    · refine works_publish ?_
      rw [verdict_replayed.mpr rfl]
      nofun

namespace Wellformed

theorem listed (w : s.Wellformed specs) (subscribed : i ∈ s.subscribers) (new : i ∉ s.handlers) :
    ({ s with handlers := s.handlers ++ [i] }.update i
      { s.handler i with state := some {}, registeredAt := s.accepted.length }).Wellformed specs :=
  { w with
    handlers := List.nodup_append.mpr ⟨w.handlers, List.nodup_singleton _, fun a ha b hb => by
      rw [List.mem_singleton.mp hb]; rintro rfl; exact new ha⟩
    opened := fun j hj => by
      rcases hj with hj | hj
      · exact w.opened j (.inl hj)
      · rcases List.mem_append.mp hj with hj | hj
        · exact w.opened j (.inr hj)
        · exact List.mem_singleton.mp hj ▸ w.opened i (.inl subscribed)
    registered := fun j => by
      rw [update_handler]
      show _ ↔ j ∈ s.handlers ++ [i]
      rw [List.mem_append, List.mem_singleton]
      split
      · next same => simp [same]
      · next other => simp [other, w.registered j]
    fresh := fun j hj => by
      have other : j ≠ i := by
        rintro rfl
        rcases hj with hj | hj
        · exact hj (w.opened j (.inl subscribed))
        · exact hj.2 (List.mem_append_right _ (List.mem_singleton.mpr rfl))
      rw [update_handler, if_neg other]
      exact w.fresh j (hj.imp_right fun h =>
        ⟨h.1, fun mem => h.2 (List.mem_append_left _ mem)⟩) }

theorem register (w : s.Wellformed specs) (subscribed : i ∈ s.subscribers) (new : i ∉ s.handlers)
    (order : List String) : (s.register specs i order).Wellformed specs := by
  refine ((w.listed subscribed new).works (works_playback _ order)).adjust rfl fun fresh => ?_
  have played : Works _ (playbackLastTopicDMesgPbInternal specs
      ({ s with handlers := s.handlers ++ [i] }.update i
        { s.handler i with state := some {}, registeredAt := s.accepted.length }) order) :=
    works_playback _ order
  have present := (played.context i).isSome
  rw [fresh, update_handler, if_pos rfl] at present
  cases present

theorem write (w : s.Wellformed specs) (m : DMesgPb) (block force : Bool) (listed : i ∈ s.handlers) :
    (s.writeDMesgInternal specs i m block force).Wellformed specs := by
  unfold writeDMesgInternal
  simp only
  split
  · exact w
  · refine enqueue (s := s.update i _) ?_ fun j m' wait stamp eq => ?_
    · exact w.adjust rfl fun fresh => (w.not_fresh listed fresh).elim
    · cases eq
      exact ⟨Nat.succ_pos _, rfl⟩

theorem erase (w : s.Wellformed specs) (gone : i ∉ s.subscribers) :
    ({ s with handlers := s.handlers.erase i }.update i
      { s.handler i with state := none }).Wellformed specs :=
  { w with
    handlers := w.handlers.erase i
    opened := fun j hj => w.opened j (hj.imp_right List.mem_of_mem_erase)
    registered := fun j => by
      rw [update_handler]
      show _ ↔ j ∈ s.handlers.erase i
      rw [w.handlers.mem_erase_iff]
      split
      · next same => simp [same]
      · next other => simp [other, w.registered j]
    fresh := fun j hj => by
      rw [update_handler]
      split
      · next same =>
        rcases hj with hj | hj
        · rw [w.fresh i (.inl (same ▸ hj))]
        · exact absurd (same ▸ hj.1) gone
      · next other =>
        exact w.fresh j (hj.imp_right fun h => ⟨h.1, fun mem =>
          h.2 ((List.mem_erase_of_ne other).mpr mem)⟩) }

theorem reset (w : s.Wellformed specs) (topic : String) :
    (s.resetConflictStateWithLastTopicMessageInternal specs topic).Wellformed specs := by
  unfold resetConflictStateWithLastTopicMessageInternal
  split
  · exact w
  · next m last => exact w.publishInternal (w.cached topic m last).positive

theorem runPublisher (w : s.Wellformed specs) {task : PublisherTask ι}
    (positive : ∀ i m wait stamp, task = .publish i m wait stamp → 1 ≤ m.runningCounter) :
    (s.runPublisher specs task).Wellformed specs := by
  cases task with
  | publish i m wait stamp => exact (w.publishInternal (positive i m wait stamp rfl)).release i wait
  | setHandlerTopicRunningCounter i topic runningCounter =>
    exact (w.works (works_update
      (Handler.silent_setStateCounter _ _ _).toSameContext)).release i true

theorem run (w : s.Wellformed specs) {task : HandlerTask} {inbox : List HandlerTask}
    (queued : (s.handler i).inbox = task :: inbox) :
    (s.update i ({ s.handler i with inbox }.run task)).Wellformed specs := by
  refine w.adjust ?_ fun fresh => ?_
  · cases task <;> rfl
  · rw [fresh] at queued
    cases queued

theorem step (w : s.Wellformed specs) {a : Action ι} (h : s.step specs a = some s') :
    s'.Wellformed specs := by
  cases a <;> simp only [State.step] at h
  case subscribe i =>
    split at h
    · cases h
    · next new =>
      cases h
      have absent : i ∉ s.subscribers := fun mem => new (w.opened i (.inl mem))
      exact { w with
        subscribers := List.nodup_append.mpr ⟨w.subscribers, List.nodup_singleton _,
          fun a ha b hb => by rw [List.mem_singleton.mp hb]; rintro rfl; exact absent ha⟩
        opened := fun j hj => by
          rcases hj with hj | hj
          · rcases List.mem_append.mp hj with hj | hj
            · exact List.mem_append_left _ (w.opened j (.inl hj))
            · exact List.mem_append_right _ hj
          · exact List.mem_append_left _ (w.opened j (.inr hj))
        fresh := fun j hj => by
          by_cases known : j ∈ s.opened
          · refine w.fresh j (.inr ?_)
            rcases hj with hj | ⟨hj, unlisted⟩
            · exact absurd (List.mem_append_left _ known) hj
            · rcases List.mem_append.mp hj with hj | hj
              · exact ⟨hj, unlisted⟩
              · exact absurd (List.mem_singleton.mp hj ▸ known) new
          · exact w.fresh j (.inl known) }
  case register i order =>
    split at h
    · next guard =>
      cases h
      exact w.register guard.1 guard.2.1 order
    · cases h
  case write i m block force =>
    split at h
    · next ready =>
      cases h
      exact w.write m block force (mem_of_ready ready)
    · cases h
  case publish =>
    split at h
    · cases h
    · next task queue eq =>
      cases h
      refine (w.dequeued eq).runPublisher fun i m wait stamp head => ?_
      exact (w.queued i m wait stamp (by rw [eq, head]; exact List.mem_cons_self)).1
  case resolveConflict i topic =>
    split at h
    · cases h
      exact w.works (works_update (Handler.silent_resolve _ _ _).toSameContext)
    · cases h
  case resetConflictStateWithLastTopicMessage topic =>
    cases h
    exact w.reset topic
  case setTopicRunningCounter i topic runningCounter =>
    split at h
    · next ready =>
      cases h
      refine enqueue (s := s.update i _) ?_ nofun
      exact w.adjust rfl fun fresh => (w.not_fresh (mem_of_ready ready) fresh).elim
    · cases h
  case run i =>
    split at h
    · cases h
    · next task inbox queued =>
      split at h
      · cases h
      · cases h
        exact w.run queued
  case unsubscribe i =>
    split at h
    · next guard =>
      cases h
      exact { w with
        subscribers := w.subscribers.erase i
        opened := fun j hj => w.opened j (hj.imp_left List.mem_of_mem_erase)
        fresh := fun j hj => w.fresh j (hj.imp_right fun h => ⟨List.mem_of_mem_erase h.1, h.2⟩) }
    · cases h
  case erase i =>
    split at h
    · next guard =>
      cases h
      exact w.erase guard.2
    · cases h

theorem reached (run : Reaches (State.step specs) ({} : State ι) s) : s.Wellformed specs :=
  run.invariant .new fun w _ h => w.step h

end Wellformed

-- ---------------------------------------------------------------------------
-- The other steps
-- ---------------------------------------------------------------------------

theorem release_eq (s : State ι) (i : ι) (wait : Bool) :
    s.release i wait = { s with handler := (s.release i wait).handler } := by
  unfold release
  split <;> rfl

theorem delivered_release (s : State ι) (i : ι) (wait : Bool) (j : ι) :
    ((s.release i wait).handler j).delivered = (s.handler j).delivered := by
  unfold release
  split
  · rw [update_handler]
    split
    · next same => rw [same]
    · rfl
  · rfl

/-- The publisher runs no task, and none of its messages is replayed. -/
def Action.aside : Action ι → Bool
  | .publish | .resetConflictStateWithLastTopicMessage _ => false
  | _ => true

/-- Such a step leaves the topics alone, and may queue a task. -/
structure Aside (specs : ι → HandlerSpec) (s : State ι) (a : Action ι) (s' : State ι) : Prop where
  accepted : s'.accepted = s.accepted
  topicRunningCounter : s'.topicRunningCounter = s.topicRunningCounter
  topicLastDMesgPb : s'.topicLastDMesgPb = s.topicLastDMesgPb
  queue : s'.queue = s.queue ∨
    (∃ i m block force wait stamp, a = .write i m block force ∧
      s'.queue = s.queue ++ [.publish i (s.stamped specs i m force) wait stamp]) ∨
    ∃ i topic n, a = .setTopicRunningCounter i topic n ∧
      s'.queue = s.queue ++ [.setHandlerTopicRunningCounter i topic n]

omit [DecidableEq ι] in
theorem Aside.works {a : Action ι} (h : Works s s') : Aside specs s a s' := by
  rw [h.shared]
  exact ⟨rfl, rfl, rfl, .inl rfl⟩

theorem step_aside {a : Action ι} (aside : a.aside) (h : s.step specs a = some s') :
    Aside specs s a s' := by
  cases a <;> simp only [step] at h
  case publish => cases aside
  case resetConflictStateWithLastTopicMessage => cases aside
  case subscribe i =>
    split at h
    · cases h
    · cases h
      exact ⟨rfl, rfl, rfl, .inl rfl⟩
  case register i order =>
    split at h
    · cases h
      unfold register
      simp only [scheduleAfterInitialPlayback, update]
      rw [(works_playback _ order).shared]
      exact ⟨rfl, rfl, rfl, .inl rfl⟩
    · cases h
  case write i m block force =>
    split at h
    · cases h
      unfold writeDMesgInternal
      simp only
      split
      · exact ⟨rfl, rfl, rfl, .inl rfl⟩
      · exact ⟨rfl, rfl, rfl, .inr (.inl ⟨i, m, block, force, _, _, rfl, rfl⟩)⟩
    · cases h
  case resolveConflict i topic =>
    split at h
    · cases h
      exact ⟨rfl, rfl, rfl, .inl rfl⟩
    · cases h
  case setTopicRunningCounter i topic n =>
    split at h
    · cases h
      exact ⟨rfl, rfl, rfl, .inr (.inr ⟨i, topic, n, rfl, rfl⟩)⟩
    · cases h
  case run i =>
    split at h
    · cases h
    · split at h
      · cases h
      · cases h
        exact ⟨rfl, rfl, rfl, .inl rfl⟩
  case unsubscribe i =>
    split at h
    · cases h
      exact ⟨rfl, rfl, rfl, .inl rfl⟩
    · cases h
  case erase i =>
    split at h
    · cases h
      exact ⟨rfl, rfl, rfl, .inl rfl⟩
    · cases h

theorem publishInternal_queue (s : State ι) (m : DMesgPb) :
    (s.publishInternal specs m).queue = s.queue := by
  by_cases h : s.verdict specs m = .accepted
  · rw [(works_accept h).shared]
    rfl
  · rw [(works_publish h).shared]

theorem runPublisher_queue (s : State ι) (task : PublisherTask ι) :
    (s.runPublisher specs task).queue = s.queue := by
  cases task <;> simp only [runPublisher] <;> rw [release_eq]
  · exact publishInternal_queue s _
  · rfl

/-- The publisher takes tasks from the front. -/
theorem step_queue {a : Action ι} (aside : ¬ a.aside = true) (h : s.step specs a = some s') :
    ∃ lost, s.queue = lost ++ s'.queue := by
  cases a <;> simp only [Action.aside, not_true_eq_false] at aside <;> simp only [step] at h
  case publish =>
    split at h
    · cases h
    · next task queue eq =>
      cases h
      refine ⟨[task], ?_⟩
      rw [eq, runPublisher_queue]
      rfl
  case resetConflictStateWithLastTopicMessage topic =>
    cases h
    refine ⟨[], ?_⟩
    unfold resetConflictStateWithLastTopicMessageInternal
    split
    · rfl
    · exact (publishInternal_queue s _).symm

/-- A task of the queue was there before, or it was just written. -/
theorem mem_queue_step {a : Action ι} (h : s.step specs a = some s') {task : PublisherTask ι}
    (mem : task ∈ s'.queue) : task ∈ s.queue ∨
      (∃ i m block force wait stamp, a = .write i m block force ∧
        task = .publish i (s.stamped specs i m force) wait stamp) ∨
      ∃ i topic n, a = .setTopicRunningCounter i topic n ∧
        task = .setHandlerTopicRunningCounter i topic n := by
  by_cases aside : a.aside = true
  · rcases (step_aside aside h).queue with eq | ⟨i, m, block, force, wait, stamp, written, eq⟩ |
      ⟨i, topic, n, set, eq⟩ <;> rw [eq] at mem
    · exact .inl mem
    · rcases List.mem_append.mp mem with mem | mem
      · exact .inl mem
      · exact .inr (.inl ⟨i, m, block, force, wait, stamp, written, List.mem_singleton.mp mem⟩)
    · rcases List.mem_append.mp mem with mem | mem
      · exact .inl mem
      · exact .inr (.inr ⟨i, topic, n, set, List.mem_singleton.mp mem⟩)
  · obtain ⟨lost, eq⟩ := step_queue aside h
    exact .inl (eq ▸ List.mem_append_right _ mem)

/-- Two handlers that receive every topic. -/
def pair : Fin 2 → HandlerSpec
  | 0 => { name := "first" }
  | 1 => { name := "second" }

/-- Two handlers are opened. -/
def openPair : List (Action (Fin 2)) :=
  [.subscribe 0, .register 0 [], .run 0, .subscribe 1, .register 1 [], .run 1]

end State
end Dmn.DMesg
