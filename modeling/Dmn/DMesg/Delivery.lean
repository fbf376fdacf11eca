import Dmn.DMesg.Playback

/-!
# Delivery

A subscriber is handed a message when its number is greater than the publisher's
counter of the subscriber. Accepted messages get past it as long as that counter
does not exceed the publisher's counter of the topic; the one thing that can
drive it there is a message of the subscriber's own that is refused with a
number the publisher has not reached.
-/

namespace Dmn.DMesg

open Dmn.Lib

namespace Handler

variable {h h' : Handler} {spec : HandlerSpec} {m : DMesgPb} {listed : Bool}
  {counter counter' : String → Nat}

/-- The publisher's counter of the handler. -/
def counterOf (h : Handler) (topic : String) : Nat :=
  (h.state.bind fun state => state.topicRunningCounter topic).getD 0

def Bounded (h : Handler) (counter : String → Nat) : Prop := ∀ t, h.counterOf t ≤ counter t

theorem Bounded.mono (b : h.Bounded counter) (le : ∀ t, counter t ≤ counter' t) :
    h.Bounded counter' := fun t => (b t).trans (le t)

theorem counterOf_setStateCounter {t : String} {g : Nat} (bound : h.counterOf t ≤ g)
    {topic : String} {n : Nat} (le : topic = t → n ≤ g) :
    (h.setStateCounter topic n).counterOf t ≤ g := by
  unfold counterOf Handler.setStateCounter at *
  cases state : h.state with
  | none => simp
  | some state' =>
    rw [state] at bound
    simp only [Option.map_some, Option.bind_some, Function.update_apply] at bound ⊢
    split
    · next same => exact le same.symm
    · exact bound

theorem Bounded.setStateCounter (b : h.Bounded counter) {topic : String} {n : Nat}
    (le : n ≤ counter topic) : (h.setStateCounter topic n).Bounded counter :=
  fun t => counterOf_setStateCounter (b t) fun same => same ▸ le

theorem counterOf_enqueue (h : Handler) (type : HandlerEventType) (topic : String)
    (message : Option DMesgPb) (notifyObserver : Bool) :
    (h.enqueueHandlerEvent listed type topic message notifyObserver).counterOf = h.counterOf := by
  unfold enqueueHandlerEvent
  split
  · rfl
  · split <;> rfl

theorem counterOf_throw (h : Handler) (m : DMesgPb) :
    (h.throwHandlerConflict listed m).counterOf = h.counterOf := by
  unfold throwHandlerConflict
  split
  · rfl
  · next present =>
    simp only
    rw [counterOf_enqueue]
    unfold counterOf
    rw [present]
    rfl

theorem counterOf_resolveTopic (h : Handler) (topic : String) (message : Option DMesgPb) :
    (h.resolveTopicConflict listed topic message).counterOf = h.counterOf := by
  unfold resolveTopicConflict
  split
  · rfl
  · next state present =>
    have same : ∀ state' : HandlerState, state'.topicRunningCounter = state.topicRunningCounter →
        counterOf { h with state := some state' } = h.counterOf := fun state' eq => by
      unfold counterOf
      rw [present]
      simp [eq]
    simp only
    split
    · rw [counterOf_enqueue]
      exact same _ rfl
    · exact same _ rfl

theorem counterOf_resolveTopics (h : Handler) (message : Option DMesgPb) (topics : List String) :
    (topics.foldl (fun h t => h.resolveTopicConflict listed t message) h).counterOf =
      h.counterOf := by
  induction topics generalizing h with
  | nil => rfl
  | cons t topics ih => rw [List.foldl_cons, ih, counterOf_resolveTopic]

theorem counterOf_resolve (h : Handler) (topic : String) (message : Option DMesgPb) :
    (h.resolveHandlerConflict listed topic message).counterOf = h.counterOf := by
  unfold resolveHandlerConflict
  split
  · rfl
  · split
    · exact counterOf_resolveTopics h message _
    · exact counterOf_resolveTopic h topic message

theorem Bounded.receive (b : h.Bounded counter) (le : m.conflict = true ∨
    m.runningCounter ≤ counter m.topic) : (h.receive spec listed m).Bounded counter := by
  unfold Handler.receive
  split
  · unfold notify
    split
    · exact b
    · split
      · split
        · exact fun t => (congrFun (counterOf_throw h m) t).trans_le (b t)
        · exact b
      · next quiet =>
        have resolved : ((h.setStateCounter m.topic m.runningCounter).resolveHandlerConflict listed
            m.topic (some m)).Bounded counter := fun t => by
          rw [counterOf_resolve]
          exact b.setStateCounter (le.resolve_left quiet) t
        split
        · split
          · exact resolved
          · split
            · split
              · intro t
                show (enqueueHandlerEvent _ _ _ _ _ _).counterOf t ≤ _
                rw [counterOf_enqueue]
                exact resolved t
              · exact b
            · exact b
        · exact b
  · exact b

/-- Work that delivers nothing and raises no counter. -/
structure Still (h h' : Handler) : Prop where
  counterOf : ∀ t, h'.counterOf t ≤ h.counterOf t
  delivered : h'.delivered = h.delivered
  registeredAt : h'.registeredAt = h.registeredAt

theorem Still.refl (h : Handler) : Still h h := ⟨fun _ => le_rfl, rfl, rfl⟩

end Handler

namespace State

variable {ι : Type} [DecidableEq ι] {specs : ι → HandlerSpec} {s s' : State ι} {m : DMesgPb}

/-- Neither a replayed message nor a system message. -/
def ordinary (m : DMesgPb) : Bool := !m.playback && m.type ≠ .sys

/-- The messages of others that a handler subscribes to and its filter passes. -/
def wanted (spec : HandlerSpec) (m : DMesgPb) : Bool :=
  ordinary m && m.sourceWriteHandlerIdentifier ≠ spec.name && spec.subscribes m.topic &&
    spec.filterFn m

/-- The messages that were accepted since a handler was registered. -/
def acceptedSince (s : State ι) (i : ι) : List DMesgPb :=
  s.accepted.drop (s.handler i).registeredAt

/-- Every accepted message that a handler wants is handed to it once, in order. -/
structure Handing (specs : ι → HandlerSpec) (s : State ι) : Prop where
  bounded : ∀ i, (s.handler i).Bounded s.topicRunningCounter
  registeredAt : ∀ i ∈ s.handlers, (s.handler i).registeredAt ≤ s.accepted.length
  handed : ∀ i ∈ s.subscribers, i ∈ s.handlers →
    (s.handler i).delivered.filter ordinary = (s.acceptedSince i).filter (wanted (specs i))

/-- The number a message may carry when the publisher comes to it. -/
def timely (specs : ι → HandlerSpec) (s : State ι) (m : DMesgPb) : Prop :=
  match s.verdict specs m with
  | .accepted => m.runningCounter ≤ s.nextRunningCounter m
  | .dropped | .marked => m.runningCounter ≤ s.topicRunningCounter m.topic
  | .replayed => m.runningCounter ≤ s.topicRunningCounter m.topic ∨
    ∀ i ∈ s.subscribers, (s.handler i).mirror.afterInitialPlayback = true

omit [DecidableEq ι] in
/-- A handler whose name is not the message's is not its source. -/
theorem source_name {i : ι} (h : s.source specs m = some i) :
    (specs i).name = m.sourceWriteHandlerIdentifier := by
  have found := List.find?_some h
  simpa using found

namespace Handing

omit [DecidableEq ι] in
theorem still (handing : s.Handing specs) (still : ∀ i, (s.handler i).Still (s'.handler i))
    (counter : s'.topicRunningCounter = s.topicRunningCounter) (accepted : s'.accepted = s.accepted)
    (handlers : ∀ i ∈ s'.handlers, i ∈ s.handlers)
    (subscribers : ∀ i ∈ s'.subscribers, i ∈ s'.handlers → i ∈ s.subscribers) :
    s'.Handing specs where
  bounded i t := by
    rw [counter]
    exact ((still i).counterOf t).trans (handing.bounded i t)
  registeredAt i listed := by
    rw [(still i).registeredAt, accepted]
    exact handing.registeredAt i (handlers i listed)
  handed i subscribed listed := by
    unfold acceptedSince
    rw [(still i).delivered, (still i).registeredAt, accepted]
    exact handing.handed i (subscribers i subscribed listed) (handlers i listed)

/-- One handler changes. -/
theorem update (handing : s.Handing specs) {i : ι} {h : Handler} (still : (s.handler i).Still h) :
    (s.update i h).Handing specs := by
  refine handing.still (fun j => ?_) rfl rfl (fun _ mem => mem) fun _ mem _ => mem
  rw [update_handler]
  split
  · next same => exact same ▸ still
  · exact .refl _

/-- The source's counter follows a message that is not ahead of the publisher. -/
theorem noteSource (handing : s.Handing specs)
    (le : m.runningCounter ≤ s.topicRunningCounter m.topic) :
    (s.noteSource specs m).Handing specs := by
  have shared : s.noteSource specs m = { s with handler := (s.noteSource specs m).handler } :=
    noteSource_eq s m
  refine ⟨fun i => ?_, fun i listed => ?_, fun i subscribed listed => ?_⟩
  · have counter : (s.noteSource specs m).topicRunningCounter = s.topicRunningCounter := by
      rw [shared]
    rw [counter, noteSource_handler]
    split
    · exact (handing.bounded i).setStateCounter le
    · exact handing.bounded i
  · rw [shared] at listed
    have kept := handing.registeredAt i listed
    rw [noteSource_handler]
    rw [shared]
    split <;> exact kept
  · rw [shared] at subscribed listed
    have kept := handing.handed i subscribed listed
    unfold acceptedSince at kept ⊢
    rw [noteSource_handler]
    rw [shared]
    split <;> exact kept

theorem throwSource (handing : s.Handing specs) (m : DMesgPb) :
    (s.throwSource specs m).Handing specs := by
  unfold State.throwSource
  split
  · exact handing
  · next i _ =>
    have silent : (s.handler i).Silent ((s.handler i).throwHandlerConflict (s.listed i) m) :=
      Handler.silent_throw _ m
    exact handing.update ⟨fun t => (congrFun (Handler.counterOf_throw _ m) t).le, silent.delivered,
      silent.registeredAt⟩

/-- A marked or a replayed message: nothing ordinary is handed over. -/
theorem notifyAll (handing : s.Handing specs) (w : s.Wellformed specs)
    (le : m.conflict = true ∨ m.runningCounter ≤ s.topicRunningCounter m.topic)
    (apart : m.conflict = true ∨ m.playback = true) : (s.notifyAll specs m).Handing specs := by
  rw [notifyAll_eq w.subscribers]
  have context : ∀ i, (if i ∈ s.subscribers then (s.handler i).receive (specs i) (s.listed i) m
      else s.handler i).registeredAt = (s.handler i).registeredAt := fun i => by
    split
    · exact (Handler.receive_context _ _).registeredAt
    · rfl
  refine ⟨fun i => ?_, fun i listed => ?_, fun i subscribed listed => ?_⟩
  · simp only
    split
    · exact (handing.bounded i).receive le
    · exact handing.bounded i
  · simp only
    rw [context]
    exact handing.registeredAt i listed
  · have kept := handing.handed i subscribed listed
    unfold acceptedSince at kept ⊢
    simp only
    rw [context, ← kept, if_pos subscribed]
    obtain ⟨state, present⟩ := Option.isSome_iff_exists.mp ((w.registered i).mpr listed)
    cases conflict : m.conflict with
    | true =>
      unfold Handler.receive
      split
      · rw [(Handler.notify_conflict_silent conflict).delivered]
      · rfl
    | false =>
      have playback := apart.resolve_left (by rw [conflict]; rintro ⟨⟩)
      cases early : (s.handler i).mirror.afterInitialPlayback with
      | true =>
        unfold Handler.receive Handler.accepts
        rw [playback, early]
        rfl
      | false =>
        rw [Handler.receive_delivered present (.inr early) conflict, List.filter_append]
        split
        · simp [ordinary, playback]
        · simp

/-- Without a handler in its initial playback a replayed message reaches nobody. -/
theorem notifyAll_late (handing : s.Handing specs) (w : s.Wellformed specs)
    (playback : m.playback = true)
    (late : ∀ i ∈ s.subscribers, (s.handler i).mirror.afterInitialPlayback = true) :
    (s.notifyAll specs m).Handing specs := by
  rw [notifyAll_eq w.subscribers]
  refine handing.still (fun i => ?_) rfl rfl (fun _ mem => mem) fun _ mem _ => mem
  simp only
  split
  · next subscribed =>
    unfold Handler.receive Handler.accepts
    rw [playback, late i subscribed]
    exact .refl _
  · exact .refl _

theorem counterOf_present {h : Handler} {state : HandlerState} (present : h.state = some state)
    (t : String) : (state.topicRunningCounter t).getD 0 = h.counterOf t := by
  unfold Handler.counterOf
  rw [present]
  rfl

/-- An accepted message is handed to the subscribers that want it. -/
theorem handsOver_iff {spec : HandlerSpec} {counter : String → Option Nat}
    (unforced : m.force = false) (playback : m.playback = false)
    (ahead : m.sourceWriteHandlerIdentifier ≠ spec.name →
      (counter m.topic).getD 0 < m.runningCounter) :
    (Handler.handsOver spec counter m ∧ ordinary m = true) ↔ wanted spec m = true := by
  simp only [Handler.handsOver, wanted, ordinary, unforced, playback, Bool.not_false,
    Bool.true_and, Bool.and_eq_true, decide_eq_true_eq]
  constructor
  · rintro ⟨⟨subscribes, -, -, source, -, filter⟩, ordinary⟩
    exact ⟨⟨⟨ordinary, source.resolve_right ordinary⟩, subscribes⟩, filter⟩
  · rintro ⟨⟨⟨ordinary, source⟩, subscribes⟩, filter⟩
    exact ⟨⟨subscribes, ahead source, trivial, .inl source, .inl ordinary, filter⟩, ordinary⟩

/-- The records of an accepted message's source and of its topic are brought up to date. -/
theorem bounded_cached (handing : s.Handing specs) (le : m.runningCounter ≤ s.nextRunningCounter m)
    (ge : s.topicRunningCounter m.topic ≤ s.nextRunningCounter m) (i : ι) :
    (((s.noteSource specs m).cache (s.renumbered m)).handler i).Bounded
      (Function.update s.topicRunningCounter m.topic (s.nextRunningCounter m)) := by
  have grown : ∀ t, s.topicRunningCounter t ≤
      Function.update s.topicRunningCounter m.topic (s.nextRunningCounter m) t := fun t => by
    rw [Function.update_apply]
    split
    · next same => exact same ▸ ge
    · exact le_rfl
  show ((s.noteSource specs m).handler i).Bounded _
  rw [noteSource_handler]
  split
  · refine ((handing.bounded i).mono grown).setStateCounter ?_
    rw [Function.update_self]
    exact le
  · exact (handing.bounded i).mono grown

theorem accept (handing : s.Handing specs) (w : s.Wellformed specs)
    (accepted : s.verdict specs m = .accepted)
    (le : m.runningCounter ≤ s.nextRunningCounter m)
    (ge : s.topicRunningCounter m.topic ≤ s.nextRunningCounter m) :
    (s.publishInternal specs m).Handing specs := by
  obtain ⟨playback, -, -, conflict⟩ := verdict_accepted.mp accepted
  have shared : s.noteSource specs m = { s with handler := (s.noteSource specs m).handler } :=
    noteSource_eq s m
  have subscribers : ((s.noteSource specs m).cache (s.renumbered m)).subscribers =
      s.subscribers := by rw [shared]; rfl
  rw [publishInternal_accepted accepted, notifyAll_eq (subscribers ▸ w.subscribers)]
  set s₁ := (s.noteSource specs m).cache (s.renumbered m) with eq
  have handlers : s₁.handlers = s.handlers := by rw [eq, shared]; rfl
  have counter : s₁.topicRunningCounter =
      Function.update s.topicRunningCounter m.topic (s.nextRunningCounter m) := by
    rw [eq, shared]; rfl
  have record : s₁.accepted = if m.force then s.accepted else s.accepted ++ [s.renumbered m] := by
    rw [eq, shared]; rfl
  have noted : ∀ i, s₁.handler i = if s.source specs m = some i then
      (s.handler i).setStateCounter m.topic m.runningCounter else s.handler i :=
    noteSource_handler s m
  have silent : ∀ i, (s.handler i).Silent (s₁.handler i) := fun i => by
    rw [noted]
    split
    · exact Handler.silent_setStateCounter _ _ _
    · exact .refl _
  have bounded : ∀ i, (s₁.handler i).Bounded s₁.topicRunningCounter := fun i => by
    rw [counter]
    exact handing.bounded_cached le ge i
  have context : ∀ i, (if i ∈ s₁.subscribers then
      (s₁.handler i).receive (specs i) (s₁.listed i) (s.renumbered m)
      else s₁.handler i).registeredAt = (s.handler i).registeredAt := fun i => by
    split
    · rw [(Handler.receive_context _ _).registeredAt, (silent i).registeredAt]
    · exact (silent i).registeredAt
  refine ⟨fun i => ?_, fun i listed => ?_, fun i subscribed listed => ?_⟩
  · simp only
    split
    · refine (bounded i).receive (.inr ?_)
      rw [counter]
      exact (Function.update_self m.topic (s.nextRunningCounter m) s.topicRunningCounter).ge
    · exact bounded i
  · simp only at listed ⊢
    rw [context, record]
    have kept := handing.registeredAt i (handlers ▸ listed)
    split
    · exact kept
    · exact kept.trans (by simp)
  · simp only at subscribed listed
    rw [subscribers] at subscribed
    rw [handlers] at listed
    have kept := handing.handed i subscribed listed
    unfold acceptedSince at kept ⊢
    simp only
    rw [context, if_pos (subscribers ▸ subscribed), record]
    obtain ⟨state, present⟩ : ∃ state, (s₁.handler i).state = some state :=
      Option.isSome_iff_exists.mp (by
        rw [(silent i).isSome]
        exact (w.registered i).mpr listed)
    rw [Handler.receive_delivered (m := s.renumbered m) present (.inl playback) conflict, (silent i).delivered,
      List.filter_append, kept]
    by_cases force : m.force = true
    · rw [if_pos force, if_neg fun hands => by
        have unforced : m.force = false := hands.2.2.1
        rw [force] at unforced
        cases unforced]
      simp
    · have unforced : m.force = false := by simpa using force
      rw [if_neg force, List.drop_append_of_le_length (handing.registeredAt i listed),
        List.filter_append]
      congr 1
      have iff : Handler.handsOver (specs i) state.topicRunningCounter (s.renumbered m) ∧
          ordinary (s.renumbered m) = true ↔ wanted (specs i) (s.renumbered m) = true :=
        handsOver_iff unforced playback fun source => by
          have other : s.source specs m ≠ some i := fun h => source (source_name h).symm
          rw [counterOf_present present, noted, if_neg other]
          refine Nat.lt_of_le_of_lt (handing.bounded i m.topic) ?_
          show _ < s.nextRunningCounter m
          unfold nextRunningCounter
          rw [if_neg force]
          exact Nat.lt_succ_self _
      by_cases hands : Handler.handsOver (specs i) state.topicRunningCounter (s.renumbered m)
      · simp only [hands, true_and] at iff
        simp only [hands, if_true, List.filter_cons, List.filter_nil, iff]
      · simp only [hands, false_and, false_iff] at iff
        simp [hands, iff]

theorem publishInternal (handing : s.Handing specs) (w : s.Wellformed specs)
    (timely : s.timely specs m)
    (ge : s.topicRunningCounter m.topic ≤ s.nextRunningCounter m) :
    (s.publishInternal specs m).Handing specs := by
  have noted : (s.noteSource specs m).Wellformed specs := w.works (works_noteSource s m)
  unfold State.timely at timely
  match verdict : s.verdict specs m with
  | .replayed =>
    rw [verdict] at timely
    rw [publishInternal_replayed verdict]
    have playback := verdict_replayed.mp verdict
    rcases timely with le | late
    · exact handing.notifyAll w (.inr le) (.inr playback)
    · exact handing.notifyAll_late w playback late
  | .dropped =>
    rw [verdict] at timely
    rw [publishInternal_dropped verdict]
    exact handing.noteSource timely
  | .marked =>
    rw [verdict] at timely
    rw [publishInternal_marked verdict]
    exact ((handing.noteSource timely).throwSource _).notifyAll
      (noted.works (works_throwSource _ _)) (.inl rfl) (.inl rfl)
  | .accepted =>
    rw [verdict] at timely
    exact handing.accept w verdict timely ge

/-- The cached message of a topic is replayed. -/
theorem replay (handing : s.Handing specs) (w : s.Wellformed specs) {topic : String}
    (last : s.topicLastDMesgPb topic = some m) :
    (s.publishInternal specs { m with playback := true }).Handing specs := by
  have cached := w.cached topic m last
  refine handing.publishInternal w ?_ ?_
  · unfold State.timely
    rw [verdict_replayed.mpr rfl]
    exact .inl (by rw [cached.topic]; exact cached.runningCounter.le)
  · rw [cached.topic, ← cached.runningCounter]
    unfold nextRunningCounter incrementByOne
    simp only
    split
    · exact le_rfl
    · rw [cached.runningCounter]
      exact Nat.le_succ _

theorem playback (handing : s.Handing specs) (w : s.Wellformed specs) (order : List String) :
    (s.playbackLastTopicDMesgPbInternal specs order).Handing specs := by
  unfold playbackLastTopicDMesgPbInternal
  induction order generalizing s with
  | nil => exact handing
  | cons t order ih =>
    rw [List.foldl_cons]
    split
    · exact ih handing w
    · next m last =>
      exact ih (handing.replay w last) (w.publishInternal (w.cached t m last).positive)

/-- The handler is listed, and nothing was handed to it. -/
theorem listed (handing : s.Handing specs) (w : s.Wellformed specs) {i : ι}
    (subscribed : i ∈ s.subscribers) (new : i ∉ s.handlers) :
    ({ s with handlers := s.handlers ++ [i] }.update i
      { s.handler i with state := some {}, registeredAt := s.accepted.length }).Handing specs := by
  have fresh := w.fresh i (.inr ⟨subscribed, new⟩)
  have old : ∀ j, j ≠ i → j ∈ s.handlers ++ [i] → j ∈ s.handlers := fun j other mem =>
    (List.mem_append.mp mem).resolve_right fun mem => other (List.mem_singleton.mp mem)
  refine ⟨fun j => ?_, fun j listed => ?_, fun j subscribed' listed => ?_⟩
  · rw [update_handler]
    split
    · exact fun _ => Nat.zero_le _
    · exact handing.bounded j
  · rw [update_handler]
    split
    · exact le_rfl
    · next other => exact handing.registeredAt j (old j other listed)
  · unfold acceptedSince
    rw [update_handler]
    split
    · rw [fresh]
      show _ = (List.drop s.accepted.length s.accepted).filter _
      rw [List.drop_length]
      rfl
    · next other => exact handing.handed j subscribed' (old j other listed)

theorem register (handing : s.Handing specs) (w : s.Wellformed specs) {i : ι}
    (subscribed : i ∈ s.subscribers) (new : i ∉ s.handlers) (order : List String) :
    (s.register specs i order).Handing specs :=
  ((handing.listed w subscribed new).playback (w.listed subscribed new) order).update
    ⟨fun _ => le_rfl, rfl, rfl⟩

theorem reset (handing : s.Handing specs) (w : s.Wellformed specs) (topic : String) :
    (s.resetConflictStateWithLastTopicMessageInternal specs topic).Handing specs := by
  unfold resetConflictStateWithLastTopicMessageInternal
  split
  · exact handing
  · next m last =>
    have cached := w.cached topic m last
    refine handing.publishInternal w ?_ ?_
    · have accepted : s.verdict specs { m with force := true } = .accepted :=
        verdict_accepted.mpr ⟨cached.playback, .inr rfl, le_rfl, cached.conflict⟩
      unfold State.timely
      rw [accepted]
      exact le_rfl
    · show s.topicRunningCounter m.topic ≤ m.runningCounter
      rw [cached.topic, cached.runningCounter]

end Handing

/-- No forced write, and no counter set by a client. -/
def Pipelined (s : State ι) (a : Action ι) : Prop :=
  Unforced s a ∧ match a with
    | .setTopicRunningCounter _ _ _ => False
    | _ => True

/-- The publisher takes up a message that is not ahead of it. -/
def Timely (specs : ι → HandlerSpec) (s : State ι) (a : Action ι) : Prop :=
  Pipelined s a ∧ match a, s.queue with
    | .publish, .publish _ m _ _ :: _ => s.timely specs m
    | _, _ => True

instance (s : State ι) (a : Action ι) : Decidable (Pipelined s a) :=
  match a with
  | .setTopicRunningCounter _ _ _ => isFalse fun pipelined => pipelined.2
  | .write i m block force =>
    decidable_of_iff (Unforced s (.write i m block force))
      ⟨fun unforced => ⟨unforced, trivial⟩, And.left⟩
  | .subscribe _ | .register _ _ | .publish | .resolveConflict _ _ | .resetConflictStateWithLastTopicMessage _
  | .run _ | .unsubscribe _ | .erase _ => isTrue ⟨trivial, trivial⟩

instance (s : State ι) (m : DMesgPb) : Decidable (s.timely specs m) := by
  unfold timely
  split <;> infer_instance

instance (s : State ι) (a : Action ι) : Decidable (Timely specs s a) :=
  have : Decidable (match a, s.queue with
      | .publish, .publish _ m _ _ :: _ => s.timely specs m
      | _, _ => True) :=
    match a, s.queue with
    | .publish, .publish _ m _ _ :: _ => (inferInstance : Decidable (s.timely specs m))
    | .publish, .setHandlerTopicRunningCounter _ _ _ :: _ | .publish, [] | .subscribe _, _ | .register _ _, _
    | .write _ _ _ _, _ | .resolveConflict _ _, _ | .resetConflictStateWithLastTopicMessage _, _
    | .setTopicRunningCounter _ _ _, _ | .run _, _ | .unsubscribe _, _ | .erase _, _ => isTrue trivial
  instDecidableAnd

/-- The queue holds messages only. -/
def Written (s : State ι) : Prop :=
  ∀ i topic n, .setHandlerTopicRunningCounter i topic n ∉ s.queue

theorem Written.step (written : s.Written) {a : Action ι} (pipelined : Pipelined s a)
    (h : s.step specs a = some s') : s'.Written := by
  intro i topic n mem
  rcases mem_queue_step h mem with old | ⟨j, m', block, force, wait', stamp', rfl, eq⟩ |
    ⟨j, topic', n', rfl, eq⟩
  · exact written i topic n old
  · cases eq
  · exact pipelined.2

namespace Handing

theorem step (handing : s.Handing specs) (serial : s.Serial specs) (written : s.Written)
    {a : Action ι} (ok : Timely specs s a) (h : s.step specs a = some s') :
    s'.Handing specs := by
  have w := serial.toWellformed
  cases a <;> simp only [State.step] at h
  case subscribe i =>
    split at h
    · cases h
    · next new =>
      cases h
      refine handing.still (fun _ => .refl _) rfl rfl (fun _ mem => mem) fun j mem listed => ?_
      refine (List.mem_append.mp mem).resolve_right fun mem => new ?_
      exact List.mem_singleton.mp mem ▸ w.opened j (.inr listed)
  case register i order =>
    split at h
    · next guard =>
      cases h
      exact handing.register w guard.1 guard.2.1 order
    · cases h
  case write i m block force =>
    split at h
    · cases h
      unfold writeDMesgInternal
      simp only
      split
      · exact handing
      · refine handing.still (fun j => ?_) rfl rfl (fun _ mem => mem) fun _ mem _ => mem
        show (s.handler j).Still ((s.update i _).handler j)
        rw [update_handler]
        split
        · next same => exact same ▸ ⟨fun _ => le_rfl, rfl, rfl⟩
        · exact .refl _
    · cases h
  case publish =>
    split at h
    · cases h
    · next task queue eq =>
      cases h
      have rest : ({ s with queue } : State ι).Handing specs :=
        handing.still (fun _ => .refl _) rfl rfl (fun _ mem => mem) fun _ mem _ => mem
      cases task with
      | publish i m wait stamp =>
        have timely : s.timely specs m := by
          have ok := ok.2
          rw [eq] at ok
          exact ok
        have unforced := serial.unforced i m wait stamp (eq ▸ List.mem_cons_self)
        have published := rest.publishInternal (m := m) (w.dequeued eq) timely (by
          unfold nextRunningCounter
          rw [unforced]
          exact Nat.le_succ _)
        unfold runPublisher release
        simp only
        split
        · exact published.update ⟨fun _ => le_rfl, rfl, rfl⟩
        · exact published
      | setHandlerTopicRunningCounter i topic n =>
        exact absurd (eq ▸ List.mem_cons_self) (written i topic n)
  case resolveConflict i topic =>
    split at h
    · cases h
      have silent : (s.handler i).Silent
          ((s.handler i).resolveHandlerConflict (s.listed i) topic none) :=
        Handler.silent_resolve _ _ _
      exact handing.update ⟨fun t => (congrFun (Handler.counterOf_resolve _ _ _) t).le,
        silent.delivered, silent.registeredAt⟩
    · cases h
  case resetConflictStateWithLastTopicMessage topic =>
    cases h
    exact handing.reset w topic
  case setTopicRunningCounter => exact ok.1.2.elim
  case run i =>
    split at h
    · cases h
    · next task inbox queued =>
      split at h
      · cases h
      · cases h
        refine handing.update ?_
        cases task <;> exact ⟨fun _ => le_rfl, rfl, rfl⟩
  case unsubscribe i =>
    split at h
    · cases h
      exact handing.still (fun _ => .refl _) rfl rfl (fun _ mem => mem) fun _ mem _ =>
        List.mem_of_mem_erase mem
    · cases h
  case erase i =>
    split at h
    · cases h
      refine handing.still (fun j => ?_) rfl rfl (fun _ mem => List.mem_of_mem_erase mem)
        fun _ mem _ => mem
      rw [update_handler]
      split
      · next same => exact same ▸ ⟨fun _ => Nat.zero_le _, rfl, rfl⟩
      · exact .refl _
    · cases h

omit [DecidableEq ι] in
theorem new : Handing specs ({} : State ι) where
  bounded _ _ := le_rfl
  registeredAt := nofun
  handed := nofun

theorem reached (run : ReachesBy (State.step specs) (Timely specs) ({} : State ι) s) :
    s.Serial specs ∧ s.Written ∧ s.Handing specs :=
  run.invariant (I := fun s => s.Serial specs ∧ s.Written ∧ s.Handing specs)
    ⟨.new, nofun, new⟩ fun ⟨serial, written, handing⟩ ok h =>
      ⟨serial.step ok.1.1 h, written.step ok.1 h, handing.step serial written ok h⟩

end Handing

end State
end Dmn.DMesg
