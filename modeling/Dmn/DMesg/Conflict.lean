import Dmn.DMesg.Abreast

/-!
# Conflict detection

A write that is accepted was stamped by a context that had seen every message
accepted before it, provided that its context knew that its last conflict was
over. A write that was queued before the conflict was resolved does not know,
and the numbers of refused writes may have carried it past what it missed.
-/

namespace Dmn.DMesg

open Dmn.Lib

/-- A handler receives every message of the topic. -/
def HandlerSpec.follows (spec : HandlerSpec) (topic : String) : Prop :=
  spec.subscribes topic = true ∧ ∀ m : DMesgPb, m.topic = topic → spec.filterFn m = true

namespace State

variable {ι : Type} [DecidableEq ι] {specs : ι → HandlerSpec} {s s' : State ι} {m : DMesgPb} {i : ι}

/-- The number and the history of a handler's write on a topic. -/
def ownWrite (i : ι) (topic : String) : PublisherTask ι → Option (Nat × Stamp)
  | .publish j m _ stamp =>
    if j = i ∧ m.topic = topic then some (m.runningCounter, stamp) else none
  | .setHandlerTopicRunningCounter _ _ _ => none

def ownWrites (s : State ι) (i : ι) (topic : String) : List (Nat × Stamp) :=
  s.queue.filterMap (ownWrite i topic)

/-- The messages of others that were accepted since a handler was registered. -/
def others (specs : ι → HandlerSpec) (s : State ι) (i : ι) (topic : String) : List DMesgPb :=
  (s.acceptedSince i).filter fun x =>
    x.topic = topic ∧ x.sourceWriteHandlerIdentifier ≠ (specs i).name

/-- Plain messages, none of them forced, and no counter set or reset by a client. -/
def Simple (_ : State ι) : Action ι → Prop
  | .write _ m _ force => m.force = false ∧ force = false ∧ m.playback = false ∧
      m.conflict = false ∧ m.type ≠ .sys
  | .resetConflictStateWithLastTopicMessage _ | .setTopicRunningCounter _ _ _ => False
  | _ => True

instance (s : State ι) (a : Action ι) : Decidable (Simple s a) :=
  match a with
  | .write _ m _ force => (inferInstance : Decidable (m.force = false ∧ force = false ∧ m.playback = false ∧
      m.conflict = false ∧ m.type ≠ .sys))
  | .resetConflictStateWithLastTopicMessage _ | .setTopicRunningCounter _ _ _ => isFalse id
  | .subscribe _ | .register _ _ | .publish | .resolveConflict _ _ | .run _ | .unsubscribe _ | .erase _ =>
    isTrue trivial

/-- And handlers write to topics that they follow. -/
def Ordinary (specs : ι → HandlerSpec) (s : State ι) (a : Action ι) : Prop :=
  Simple s a ∧ ∀ i m block force, a = .write i m block force →
    (specs i).follows (s.stamped specs i m force).topic

/-- The publisher takes up a message that is not ahead of it; one that it accepts
was written after its handler had heard that its last conflict was over. -/
def Heard (specs : ι → HandlerSpec) (s : State ι) (a : Action ι) : Prop :=
  match a, s.queue with
  | .publish, .publish i m _ stamp :: _ => s.timely specs m ∧
      (s.verdict specs m = .accepted → i ∈ s.handlers → i ∈ s.subscribers →
        stamp.resolved = (s.handler i).resolutions m.topic)
  | _, _ => True

instance (s : State ι) (a : Action ι) : Decidable (Heard specs s a) :=
  have : Decidable (match a, s.queue with
      | .publish, .publish i m _ stamp :: _ => s.timely specs m ∧
          (s.verdict specs m = .accepted → i ∈ s.handlers → i ∈ s.subscribers →
            stamp.resolved = (s.handler i).resolutions m.topic)
      | _, _ => True) :=
    match a, s.queue with
    | .publish, .publish i m _ stamp :: _ => (inferInstance : Decidable (s.timely specs m ∧
        (s.verdict specs m = .accepted → i ∈ s.handlers → i ∈ s.subscribers →
          stamp.resolved = (s.handler i).resolutions m.topic)))
    | .publish, .setHandlerTopicRunningCounter _ _ _ :: _ | .publish, [] | .subscribe _, _ | .register _ _, _
    | .write _ _ _ _, _ | .resolveConflict _ _, _ | .resetConflictStateWithLastTopicMessage _, _
    | .setTopicRunningCounter _ _ _, _ | .run _, _ | .unsubscribe _, _ | .erase _, _ => isTrue trivial
  this

def Informed (specs : ι → HandlerSpec) (s : State ι) (a : Action ι) : Prop :=
  Ordinary specs s a ∧ Heard specs s a

omit [DecidableEq ι] in
theorem Informed.timely {a : Action ι} (ok : Informed specs s a) : Timely specs s a := by
  obtain ⟨⟨simple, -⟩, ok⟩ := ok
  refine ⟨⟨?_, ?_⟩, ?_⟩
  · cases a <;> first | exact trivial | exact ⟨simple.1, simple.2.1⟩
  · cases a <;> first | exact trivial | exact simple
  · cases a <;> try exact trivial
    unfold Heard at ok
    cases queue : s.queue with
    | nil => trivial
    | cons task rest =>
      rw [queue] at ok
      cases task with
      | publish => exact ok.1
      | setHandlerTopicRunningCounter => trivial

omit [DecidableEq ι] in
/-- With unique names the source of a listed writer's message is the writer. -/
theorem source_unique (unique : ∀ i j, (specs i).name = (specs j).name → i = j)
    (listed : i ∈ s.handlers) (name : m.sourceWriteHandlerIdentifier = (specs i).name) :
    s.source specs m = some i := by
  have found : (s.source specs m).isSome := by
    unfold source
    rw [List.find?_isSome]
    exact ⟨i, listed, by simp [name]⟩
  obtain ⟨j, found⟩ := Option.isSome_iff_exists.mp found
  rw [found, unique j i ((source_name found).trans name)]

omit [DecidableEq ι] in
theorem verdict_dropped (h : s.verdict specs m = .dropped) : s.sourceInConflict specs m = true := by
  unfold verdict at h
  split at h
  · cases h
  · split at h
    · next busy => exact busy.1
    · split at h <;> cases h

omit [DecidableEq ι] in
theorem sourceInConflict_iff (found : s.source specs m = some i) :
    s.sourceInConflict specs m = true ↔ (s.handler i).inConflict m.topic := by
  unfold sourceInConflict Handler.inConflict
  rw [found]
  simp only
  cases (s.handler i).state with
  | none => simp
  | some state => simp

omit [DecidableEq ι] in
theorem timely_refused (timely : s.timely specs m)
    (refused : s.verdict specs m = .dropped ∨ s.verdict specs m = .marked) :
    m.runningCounter ≤ s.topicRunningCounter m.topic := by
  unfold State.timely at timely
  rcases refused with h | h
  · rwa [h] at timely
  · rwa [h] at timely

omit [DecidableEq ι] in
/-- A message that is accepted has the next number, and its source is not in conflict. -/
theorem timely_accepted (timely : s.timely specs m) (accepted : s.verdict specs m = .accepted)
    (unforced : m.force = false) (found : s.source specs m = some i) :
    m.runningCounter = s.topicRunningCounter m.topic + 1 ∧ ¬ (s.handler i).inConflict m.topic := by
  obtain ⟨-, quiet, ge, -⟩ := verdict_accepted.mp accepted
  have number : s.nextRunningCounter m = s.topicRunningCounter m.topic + 1 := by
    unfold nextRunningCounter
    rw [unforced]
    rfl
  constructor
  · unfold State.timely at timely
    rw [accepted] at timely
    exact (Nat.le_antisymm timely ge).trans number
  · rw [← sourceInConflict_iff found]
    rcases quiet with quiet | force
    · exact fun busy => Bool.false_ne_true (quiet.symm.trans busy)
    · exact fun _ => Bool.false_ne_true (unforced.symm.trans force)

/-- A message that is refused delivers nothing. -/
theorem effect_refused (handing : s.Handing specs) (wf : s.Wellformed specs)
    (timely : s.timely specs m)
    (refused : s.verdict specs m = .dropped ∨ s.verdict specs m = .marked) :
    ∀ j ∈ s.handlers, ∀ t, (s.handler j).Effect t
      (Handler.Quiet t (s.topicRunningCounter t)) ((s.publishInternal specs m).handler j) := by
  intro j listed t
  have le := timely_refused timely refused
  have noted : (s.handler j).Effect t (Handler.Quiet t (s.topicRunningCounter t))
      ((s.noteSource specs m).handler j) := by
    rw [noteSource_handler]
    split
    · exact Handler.effect_setStateCounter _ _ _
    · exact .refl _
  rcases refused with dropped | turned
  · rw [publishInternal_dropped dropped]
    exact noted
  · have handing' := (handing.noteSource le).throwSource (marked m)
    have shared : (s.noteSource specs m).throwSource specs (marked m) =
        { s with handler := ((s.noteSource specs m).throwSource specs (marked m)).handler } :=
      thrown_eq s m (marked m)
    have thrown : ((s.noteSource specs m).handler j).Effect t
        (Handler.Quiet t (s.topicRunningCounter t))
        (((s.noteSource specs m).throwSource specs (marked m)).handler j) := by
      rw [throwSource_handler]
      split
      · have noted : (s.noteSource specs m).listed j = true := by
          rw [noteSource_eq]
          exact decide_eq_true listed
        rw [noted]
        refine Handler.effect_throw _ _ fun _ _ => ⟨?_, ?_⟩
        · simp [HandlerTask.messageOn]
        · simp [HandlerTask.counterOn]
      · exact .refl _
    have bound := handing'.bounded j t
    rw [publishInternal_marked turned, notifyAll_eq (by rw [shared]; exact wf.subscribers)]
    refine (noted.trans thrown).trans ?_
    have counter : ((s.noteSource specs m).throwSource specs (marked m)).topicRunningCounter =
        s.topicRunningCounter := by rw [shared]
    have here : ((s.noteSource specs m).throwSource specs (marked m)).listed j = true := by
      rw [shared]
      exact decide_eq_true listed
    simp only
    split
    · rw [here]
      exact Handler.effect_receive (counter ▸ bound) (.inl rfl)
    · exact .refl _

/-- And its source is in conflict after it. -/
theorem inConflict_refused (wf : s.Wellformed specs) (found : s.source specs m = some i)
    (listed : i ∈ s.handlers) (type : m.type ≠ .sys) (unforced : m.force = false)
    (refused : s.verdict specs m = .dropped ∨ s.verdict specs m = .marked) :
    ((s.publishInternal specs m).handler i).inConflict m.topic := by
  rcases refused with dropped | turned
  · rw [publishInternal_dropped dropped, noteSource_handler, if_pos found]
    rw [Handler.inConflict_setStateCounter]
    exact (sourceInConflict_iff found).mp (verdict_dropped dropped)
  · have shared : (s.noteSource specs m).throwSource specs (marked m) =
        { s with handler := ((s.noteSource specs m).throwSource specs (marked m)).handler } :=
      thrown_eq s m (marked m)
    have found' : (s.noteSource specs m).source specs (marked m) = some i := by
      rw [source_noteSource]
      exact found
    have noted : (s.noteSource specs m).listed i = true := by
      rw [noteSource_eq]
      exact decide_eq_true listed
    have here : ((s.noteSource specs m).throwSource specs (marked m)).listed i = true := by
      rw [shared]
      exact decide_eq_true listed
    have works : Works s (s.noteSource specs m) := works_noteSource s m
    obtain ⟨state, present⟩ := Option.isSome_iff_exists.mp
      ((works.context i).isSome.trans ((wf.registered i).mpr listed))
    have thrown : (((s.noteSource specs m).throwSource specs (marked m)).handler i).inConflict
        m.topic := by
      rw [throwSource_handler, if_pos found', noted]
      exact Handler.inConflict_throw present (marked m)
    rw [publishInternal_marked turned, notifyAll_eq (by rw [shared]; exact wf.subscribers)]
    simp only
    split
    · have own : ∀ h : Handler, h.receive (specs i) true (marked m) = h := fun h =>
        h.receive_own (source_name found).symm type unforced
      rw [here, own]
      exact thrown
    · exact thrown

omit [DecidableEq ι] in
/-- The others' messages once one more is accepted. -/
theorem others_accepted (topic : String) (accepted : s'.accepted = s.accepted ++ [m])
    (registeredAt : (s'.handler i).registeredAt = (s.handler i).registeredAt)
    (le : (s.handler i).registeredAt ≤ s.accepted.length) :
    s'.others specs i topic = s.others specs i topic ++
      if m.topic = topic ∧ m.sourceWriteHandlerIdentifier ≠ (specs i).name then [m] else [] := by
  unfold others acceptedSince
  rw [accepted, registeredAt, List.drop_append_of_le_length le, List.filter_append]
  simp [List.filter_cons]

/-- What the queue holds, and how the handlers keep up. -/
structure Watchful (specs : ι → HandlerSpec) (s : State ι) : Prop where
  queued : ∀ j m wait stamp, .publish j m wait stamp ∈ s.queue →
    m.playback = false ∧ m.conflict = false ∧ m.type ≠ .sys ∧ (specs j).follows m.topic ∧
      j ∈ s.opened ∧ (j ∈ s.handlers ∨ j ∉ s.subscribers)
  abreast : ∀ j ∈ s.subscribers, j ∈ s.handlers → ∀ t, (specs j).follows t →
    (s.handler j).Abreast t (s.topicRunningCounter t) (s.ownWrites j t) (s.others specs j t)

namespace Watchful

theorem new : Watchful specs ({} : State ι) := ⟨nofun, nofun⟩

/-- The queue and what was accepted stay; the handlers keep up. -/
theorem transfer (w : s.Watchful specs) (queue : s'.queue = s.queue)
    (counter : s'.topicRunningCounter = s.topicRunningCounter) (accepted : s'.accepted = s.accepted)
    (opened : ∀ j ∈ s.opened, j ∈ s'.opened ∧
      (j ∈ s.handlers ∨ j ∉ s.subscribers → j ∈ s'.handlers ∨ j ∉ s'.subscribers))
    (old : ∀ j ∈ s'.subscribers, j ∈ s'.handlers → j ∈ s.subscribers ∧ j ∈ s.handlers ∧
      (s'.handler j).registeredAt = (s.handler j).registeredAt)
    (keeps : ∀ j ∈ s'.handlers, j ∈ s.handlers → ∀ t g own others,
      g = s.topicRunningCounter t → (s.handler j).Abreast t g own others →
        (s'.handler j).Abreast t g own others) : s'.Watchful specs where
  queued j m wait stamp mem := by
    obtain ⟨live, unmarked, type, follows, known, listed⟩ := w.queued j m wait stamp (queue ▸ mem)
    exact ⟨live, unmarked, type, follows, (opened j known).1, (opened j known).2 listed⟩
  abreast j subscribed listed t follows := by
    obtain ⟨subscribed', listed', registeredAt⟩ := old j subscribed listed
    have kept := keeps j listed listed' t _ _ _ rfl (w.abreast j subscribed' listed' t follows)
    unfold ownWrites others acceptedSince at kept ⊢
    rwa [queue, counter, accepted, registeredAt]

/-- The publisher's work on the handlers delivers nothing. -/
theorem effects (w : s.Watchful specs) (works : Works s s')
    (effect : ∀ j ∈ s.handlers, ∀ t, (s.handler j).Effect t
      (Handler.Quiet t (s.topicRunningCounter t)) (s'.handler j)) : s'.Watchful specs := by
  have shared := works.shared
  refine w.transfer (by rw [shared]) (by rw [shared]) (by rw [shared]) (fun j known => ?_)
    (fun j subscribed listed => ?_) fun j _ listed t g own others eq a => ?_
  · rw [shared]
    exact ⟨known, id⟩
  · rw [shared] at subscribed listed
    exact ⟨subscribed, listed, (works.context j).registeredAt⟩
  · subst eq
    exact a.effect (effect j listed t)

/-- One handler changes, its record and its registration stay. -/
theorem adjust (w : s.Watchful specs) {h : Handler}
    (registeredAt : h.registeredAt = (s.handler i).registeredAt)
    (keeps : i ∈ s.handlers → ∀ t own others,
      (s.handler i).Abreast t (s.topicRunningCounter t) own others →
        h.Abreast t (s.topicRunningCounter t) own others) : (s.update i h).Watchful specs := by
  refine w.transfer rfl rfl rfl (fun j known => ⟨known, id⟩) (fun j subscribed listed => ?_)
    fun j _ listed t g own others eq a => ?_
  · refine ⟨subscribed, listed, ?_⟩
    rw [update_handler]
    split
    · next same => rw [same, registeredAt]
    · rfl
  · subst eq
    rw [update_handler]
    split
    · next same =>
      subst same
      exact keeps listed t own others a
    · exact a

theorem playback (w : s.Watchful specs) (wf : s.Wellformed specs) (handing : s.Handing specs)
    (order : List String) : (s.playbackLastTopicDMesgPbInternal specs order).Watchful specs := by
  unfold playbackLastTopicDMesgPbInternal
  induction order generalizing s with
  | nil => exact w
  | cons topic order ih =>
    rw [List.foldl_cons]
    split
    · exact ih w wf handing
    · next m last =>
      have cached := wf.cached topic m last
      have replayed : s.verdict specs { m with playback := true } = .replayed :=
        verdict_replayed.mpr rfl
      have published : (s.publishInternal specs { m with playback := true }).Watchful specs := by
        refine w.effects (works_publish (by rw [replayed]; nofun)) fun j listed t => ?_
        rw [publishInternal_replayed replayed, notifyAll_eq wf.subscribers]
        simp only
        split
        · rw [State.listed, decide_eq_true listed]
          refine Handler.effect_receive (handing.bounded j t) (.inr ?_)
          by_cases same : m.topic = t
          · exact .inr ⟨by rw [← same, cached.topic]; exact cached.runningCounter.le, rfl⟩
          · exact .inl same
        · exact .refl _
      exact ih published (wf.publishInternal cached.positive) (handing.replay wf last)

/-- The registration of a handler. -/
theorem register (w : s.Watchful specs) (wf : s.Wellformed specs) (handing : s.Handing specs)
    (subscribed : i ∈ s.subscribers) (new : i ∉ s.handlers) (order : List String) :
    (s.register specs i order).Watchful specs := by
  have fresh := wf.fresh i (.inr ⟨subscribed, new⟩)
  have started : ({ s with handlers := s.handlers ++ [i] }.update i
      { s.handler i with state := some {}, registeredAt := s.accepted.length }).Watchful specs := by
    have old : ∀ j, j ≠ i → j ∈ s.handlers ++ [i] → j ∈ s.handlers := fun j other mem =>
      (List.mem_append.mp mem).resolve_right fun mem => other (List.mem_singleton.mp mem)
    refine ⟨fun j m wait stamp mem => ?_, fun j subscribed' listed t follows => ?_⟩
    · obtain ⟨live, unmarked, type, follows, known, listed⟩ := w.queued j m wait stamp mem
      exact ⟨live, unmarked, type, follows, known, listed.imp_left (List.mem_append_left _)⟩
    · rw [update_handler]
      split
      · next same =>
        subst same
        have own : s.ownWrites j t = [] := by
          refine List.filterMap_eq_nil_iff.mpr fun task mem => ?_
          cases task with
          | setHandlerTopicRunningCounter => rfl
          | publish k m wait stamp =>
            have listed := (w.queued k m wait stamp mem).2.2.2.2.2
            unfold ownWrite
            refine if_neg fun same => ?_
            rcases listed with listed | gone
            · exact new (same.1 ▸ listed)
            · exact gone (same.1 ▸ subscribed)
        have none : others specs ({ s with handlers := s.handlers ++ [j] }.update j
            { s.handler j with state := some {}, registeredAt := s.accepted.length }) j t = [] := by
          unfold others acceptedSince
          rw [update_handler, if_pos rfl]
          simp [update]
        rw [none]
        show Handler.Abreast t _ (s.ownWrites j t) [] _
        rw [own]
        exact .new (by rw [fresh]) (by rw [fresh])
      · next other =>
        have kept := w.abreast j subscribed' (old j other listed) t follows
        unfold others acceptedSince at kept ⊢
        rw [update_handler, if_neg other]
        exact kept
  refine (started.playback (wf.listed subscribed new) (handing.listed wf subscribed new)
    order).adjust rfl fun listed t own others a => a.effect ?_
  refine ⟨⟨rfl, rfl, rfl, rfl, rfl, rfl, fun none => ?_⟩, [.setAfterInitialPlayback], rfl,
    fun task mem => ?_, .inr (.inr ⟨rfl, .rfl⟩)⟩
  · have played : (playbackLastTopicDMesgPbInternal specs _ order).Wellformed specs :=
      (wf.listed subscribed new).works (works_playback _ order)
    have present := (played.registered i).mpr listed
    rw [none] at present
    cases present
  · cases List.mem_singleton.mp mem
    exact ⟨rfl, Nat.zero_le _⟩

/-- A handler's context changes as it queues a message. -/
theorem enqueue (w : s.Watchful specs) {h : Handler} {wait : Bool} {stamp : Stamp}
    (registeredAt : h.registeredAt = (s.handler i).registeredAt)
    (queued : m.playback = false ∧ m.conflict = false ∧ m.type ≠ .sys ∧
      (specs i).follows m.topic ∧ i ∈ s.opened ∧ (i ∈ s.handlers ∨ i ∉ s.subscribers))
    (keeps : ∀ t own others, (s.handler i).Abreast t (s.topicRunningCounter t) own others →
      h.Abreast t (s.topicRunningCounter t)
        (own ++ if m.topic = t then [(m.runningCounter, stamp)] else []) others) :
    ({ s.update i h with queue := s.queue ++ [.publish i m wait stamp] } :
      State ι).Watchful specs := by
  refine ⟨fun j m' wait' stamp' mem => ?_, fun j subscribed listed t follows => ?_⟩
  · rcases List.mem_append.mp mem with mem | mem
    · exact w.queued j m' wait' stamp' mem
    · cases List.mem_singleton.mp mem
      exact queued
  · have a := w.abreast j subscribed listed t follows
    unfold others acceptedSince ownWrites at a ⊢
    show Handler.Abreast t (s.topicRunningCounter t) (List.filterMap _ (s.queue ++ [_]))
      (List.filter _ (List.drop ((s.update i h).handler j).registeredAt s.accepted))
      ((s.update i h).handler j)
    rw [List.filterMap_append, update_handler]
    by_cases other : j = i
    · subst other
      rw [if_pos rfl, registeredAt]
      have kept := keeps t _ _ a
      by_cases same : m.topic = t
      · simpa [ownWrite, same] using kept
      · simpa [ownWrite, same] using kept
    · rw [if_neg other]
      simpa [ownWrite, Ne.symm other] using a

/-- A handler writes on a topic that it follows. -/
theorem write (w : s.Watchful specs) (wf : s.Wellformed specs) (listed : i ∈ s.handlers)
    {block force : Bool} (ok : Ordinary specs s (.write i m block force)) :
    (s.writeDMesgInternal specs i m block force).Watchful specs := by
  obtain ⟨⟨-, -, live, unmarked, type⟩, follows⟩ := ok
  unfold writeDMesgInternal
  simp only
  split
  · exact w
  · refine w.enqueue rfl ⟨live, unmarked, type, follows i m block _ rfl, wf.opened i (.inr listed),
      .inl listed⟩ fun t own others a => ?_
    split
    · next same =>
      subst same
      refine a.stamp ?_ rfl rfl rfl rfl
      exact Function.update_self _ _ _
    · next other =>
      rw [List.append_nil]
      refine a.congr ?_ rfl rfl rfl rfl
      exact Function.update_of_ne (Ne.symm other) _ _

/-- The publisher takes a write from its queue. -/
theorem ownWrites_dequeued {wait : Bool} {stamp : Stamp} {queue : List (PublisherTask ι)}
    (eq : s.queue = .publish i m wait stamp :: queue) (j : ι) (topic : String) :
    s.ownWrites j topic = (if i = j ∧ m.topic = topic then [(m.runningCounter, stamp)] else []) ++
      ({ s with queue } : State ι).ownWrites j topic := by
  unfold ownWrites
  rw [eq, List.filterMap_cons]
  unfold ownWrite
  split
  · next none => split at none <;> simp_all
  · next some => split at some <;> simp_all

/-- A write is taken from the queue, and its handler is in conflict. -/
theorem taken (w : s.Watchful specs) {wait : Bool} {stamp : Stamp}
    {queue : List (PublisherTask ι)} (eq : s.queue = .publish i m wait stamp :: queue)
    (works : Works { s with queue } s') (effect : ∀ j ∈ s.handlers, ∀ t, (s.handler j).Effect t
      (Handler.Quiet t (s.topicRunningCounter t)) (s'.handler j))
    (busy : i ∈ s.handlers → (s'.handler i).inConflict m.topic)
    (le : m.runningCounter ≤ s.topicRunningCounter m.topic) : s'.Watchful specs := by
  have shared := works.shared
  refine ⟨fun j m' wait' stamp' mem => ?_, fun j subscribed listed t follows => ?_⟩
  · rw [shared] at mem ⊢
    exact w.queued j m' wait' stamp' (eq ▸ List.mem_cons_of_mem _ mem)
  · rw [shared] at subscribed listed
    have a := (w.abreast j subscribed listed t follows).effect (effect j listed t)
    rw [ownWrites_dequeued eq] at a
    have own : s'.ownWrites j t = ({ s with queue } : State ι).ownWrites j t := by
      unfold ownWrites
      rw [shared]
    have kept : s'.others specs j t = s.others specs j t := by
      unfold others acceptedSince
      rw [(works.context j).registeredAt, shared]
    have counter : s'.topicRunningCounter = s.topicRunningCounter := by rw [shared]
    rw [own, kept, counter]
    split at a
    · next same =>
      obtain ⟨rfl, rfl⟩ := same
      exact a.refuse le (busy listed)
    · exact a

/-- The publisher refuses a message. -/
theorem refuse (w : s.Watchful specs) (wf : s.Wellformed specs) (handing : s.Handing specs)
    (unique : ∀ i j, (specs i).name = (specs j).name → i = j) {wait : Bool} {stamp : Stamp}
    {queue : List (PublisherTask ι)} (eq : s.queue = .publish i m wait stamp :: queue)
    (unforced : m.force = false) (timely : s.timely specs m)
    (refused : s.verdict specs m = .dropped ∨ s.verdict specs m = .marked) :
    (({ s with queue } : State ι).publishInternal specs m).Watchful specs := by
  obtain ⟨-, -, type, -, -⟩ := w.queued i m wait stamp (eq ▸ List.mem_cons_self)
  have name := (wf.queued i m wait stamp (eq ▸ List.mem_cons_self)).2
  have wf₀ : ({ s with queue } : State ι).Wellformed specs := wf.dequeued eq
  have handing₀ : ({ s with queue } : State ι).Handing specs :=
    handing.still (fun _ => .refl _) rfl rfl (fun _ mem => mem) fun _ mem _ => mem
  have others : ({ s with queue } : State ι).verdict specs m ≠ .accepted := by
    show s.verdict specs m ≠ .accepted
    rcases refused with h | h <;> rw [h] <;> nofun
  refine w.taken eq (works_publish others) (effect_refused handing₀ wf₀ timely refused)
    (fun listed => ?_) (timely_refused timely refused)
  exact inConflict_refused wf₀ (source_unique unique listed name) listed type unforced refused

theorem accept (w : s.Watchful specs) (wf : s.Wellformed specs) (handing : s.Handing specs)
    (unique : ∀ i j, (specs i).name = (specs j).name → i = j) {wait : Bool} {stamp : Stamp}
    {queue : List (PublisherTask ι)} (eq : s.queue = .publish i m wait stamp :: queue)
    (unforced : m.force = false) (timely : s.timely specs m)
    (accepted : s.verdict specs m = .accepted)
    (informed : i ∈ s.handlers → i ∈ s.subscribers →
      stamp.resolved = (s.handler i).resolutions m.topic) :
    (({ s with queue } : State ι).publishInternal specs m).Watchful specs := by
  obtain ⟨live, unmarked, type, -, -⟩ := w.queued i m wait stamp (eq ▸ List.mem_cons_self)
  have name := (wf.queued i m wait stamp (eq ▸ List.mem_cons_self)).2
  set s₀ : State ι := { s with queue } with start
  have wf₀ : s₀.Wellformed specs := wf.dequeued eq
  have accepted₀ : s₀.verdict specs m = .accepted := accepted
  have number : s₀.nextRunningCounter m = s.topicRunningCounter m.topic + 1 := by
    unfold nextRunningCounter
    rw [unforced]
    rfl
  have shared : s₀.noteSource specs m = { s₀ with handler := (s₀.noteSource specs m).handler } :=
    noteSource_eq s₀ m
  set s₁ := (s₀.noteSource specs m).cache (s₀.renumbered m) with eq₁
  have subscribers : s₁.subscribers = s.subscribers := by rw [eq₁, shared]; rfl
  have handlers : s₁.handlers = s.handlers := by rw [eq₁, shared]; rfl
  have opened : s₁.opened = s.opened := by rw [eq₁, shared]; rfl
  have rest : s₁.queue = queue := by rw [eq₁, shared]; rfl
  have counter : s₁.topicRunningCounter = Function.update s.topicRunningCounter m.topic
      (s.topicRunningCounter m.topic + 1) := by
    rw [eq₁, shared, ← number]; rfl
  have record : s₁.accepted = s.accepted ++ [s₀.renumbered m] := by
    rw [eq₁, shared]
    show (if (s₀.renumbered m).force then _ else _) = _
    rw [if_neg (by show ¬ m.force = true; rw [unforced]; nofun)]
  have noted : ∀ j, s₁.handler j = if s.source specs m = some j then
      (s.handler j).setStateCounter m.topic m.runningCounter else s.handler j :=
    noteSource_handler s₀ m
  have own : ∀ j, s.source specs m = some j → j = i := fun j found =>
    unique j i ((source_name found).trans name)
  obtain ⟨s₂, eq₂⟩ : ∃ s₂, s₂ = s₀.publishInternal specs m := ⟨_, rfl⟩
  rw [← eq₂]
  rw [publishInternal_accepted accepted₀, notifyAll_eq (subscribers ▸ wf.subscribers)] at eq₂
  have at₂ : ∀ j, j ∈ s.handlers → j ∈ s.subscribers →
      s₂.handler j = (s₁.handler j).receive (specs j) true (s₀.renumbered m) := fun j listed mem => by
    have here : s₁.listed j = true := decide_eq_true (handlers ▸ listed)
    rw [eq₂]
    simp only
    rw [if_pos (subscribers ▸ mem), here]
  have counter₂ : s₂.topicRunningCounter = s₁.topicRunningCounter := by rw [eq₂]
  have queue₂ : s₂.queue = queue := by rw [eq₂]; exact rest
  have accepted₂ : s₂.accepted = s.accepted ++ [s₀.renumbered m] := by rw [eq₂]; exact record
  have handlers₂ : s₂.handlers = s.handlers := by rw [eq₂]; exact handlers
  have subscribers₂ : s₂.subscribers = s.subscribers := by rw [eq₂]; exact subscribers
  have opened₂ : s₂.opened = s.opened := by rw [eq₂]; exact opened
  refine ⟨fun j m' wait' stamp' mem => ?_, fun j subscribed listed t follows => ?_⟩
  · rw [queue₂] at mem
    rw [opened₂, handlers₂, subscribers₂]
    exact w.queued j m' wait' stamp' (eq ▸ List.mem_cons_of_mem _ mem)
  · rw [handlers₂] at listed
    rw [subscribers₂] at subscribed
    have a := w.abreast j subscribed listed t follows
    rw [ownWrites_dequeued eq] at a
    have writes : s₂.ownWrites j t = s₀.ownWrites j t := by
      unfold ownWrites
      rw [queue₂]
    have registeredAt : (s₂.handler j).registeredAt = (s.handler j).registeredAt := by
      rw [at₂ j listed subscribed, (Handler.receive_context _ _).registeredAt, noted]
      split <;> rfl
    rw [writes, others_accepted t accepted₂ registeredAt (handing.registeredAt j listed), counter₂,
      counter, at₂ j listed subscribed]
    by_cases writer : j = i
    · subst writer
      have found := source_unique unique listed name
      have back : ∀ h : Handler, h.receive (specs j) true (s₀.renumbered m) = h := fun h =>
        h.receive_own name type unforced
      have silent : ¬ ((s₀.renumbered m).topic = t ∧
          (s₀.renumbered m).sourceWriteHandlerIdentifier ≠ (specs j).name) := fun h => h.2 name
      rw [noted, if_pos found, back, if_neg silent, List.append_nil]
      have a := a.effect (Handler.effect_setStateCounter _ m.topic m.runningCounter)
      by_cases same : m.topic = t
      · subst same
        rw [if_pos ⟨rfl, rfl⟩] at a
        rw [Function.update_self]
        obtain ⟨next, free⟩ := timely_accepted timely accepted unforced found
        refine (a.accept next ?_ (informed listed subscribed)).2
        rwa [Handler.inConflict_setStateCounter]
      · rw [if_neg fun h => same h.2] at a
        rw [Function.update_of_ne (Ne.symm same)]
        exact a
    · have foreign : s.source specs m ≠ some j := fun found => writer (own j found)
      have other : m.sourceWriteHandlerIdentifier ≠ (specs j).name := fun same =>
        writer (unique j i (same.symm.trans name))
      rw [noted, if_neg foreign]
      rw [if_neg fun h => writer h.1.symm, List.nil_append] at a
      have bound := handing.bounded j t
      by_cases same : m.topic = t
      · subst same
        rw [if_pos ⟨rfl, other⟩, Function.update_self]
        have new : (s₀.renumbered m).runningCounter = s.topicRunningCounter m.topic + 1 := number
        obtain ⟨state, present⟩ := Option.isSome_iff_exists.mp ((wf.registered j).mpr listed)
        have counted : ((s.handler j).setStateCounter m.topic
            (s₀.renumbered m).runningCounter).counterOf m.topic ≤
              s.topicRunningCounter m.topic + 1 :=
          Handler.counterOf_setStateCounter (bound.trans (Nat.le_succ _)) fun _ => new.le
        have raised := Handler.effect_raised (t := m.topic) (P := fun task =>
          Handler.Quiet m.topic (s.topicRunningCounter m.topic + 1) task ∧
            task.carries (s₀.renumbered m)) (s.handler j) (s₀.renumbered m)
          fun topic generation notifyObserver =>
            ⟨Handler.quiet_resolved counted topic generation _ notifyObserver,
              by simp [HandlerTask.carries]⟩
        obtain ⟨state', present'⟩ := Option.isSome_iff_exists.mp
          (raised.isSome.trans ((wf.registered j).mpr listed))
        rw [Handler.receive_other (m := s₀.renumbered m) present other type unforced unmarked live follows.1
          (follows.2 _ rfl) (by rw [new]; exact Nat.lt_succ_of_le bound)]
        exact a.deliver raised
          (Handler.effect_handedOver (t := m.topic) (P := fun _ => True) present' _
            fun _ => trivial).toSameContext
          (Handler.inConflict_enqueue _ _ _ _ _) (Handler.inbox_enqueue present' _ _ _ _) rfl rfl
          rfl live ((congrFun (Handler.counterOf_raised _ _) _).trans_le counted) new
      · rw [if_neg fun h => same h.1, List.append_nil, Function.update_of_ne (Ne.symm same)]
        exact a.effect (Handler.effect_receive bound (.inr (.inl same)))

theorem step (w : s.Watchful specs) (serial : s.Serial specs) (written : s.Written)
    (handing : s.Handing specs) (unique : ∀ i j, (specs i).name = (specs j).name → i = j)
    {a : Action ι} (ok : Informed specs s a) (h : s.step specs a = some s') :
    s'.Watchful specs := by
  have wf := serial.toWellformed
  cases a <;> simp only [State.step] at h
  case subscribe i =>
    split at h
    · cases h
    · next new =>
      cases h
      have known : ∀ j ∈ s.opened, j ≠ i := fun j mem same => new (same ▸ mem)
      have old : ∀ j ∈ s.opened, j ∈ s.subscribers ++ [i] → j ∈ s.subscribers := fun j mem mem' =>
        (List.mem_append.mp mem').resolve_right fun last => known j mem (List.mem_singleton.mp last)
      refine w.transfer rfl rfl rfl (fun j mem => ⟨List.mem_append_left _ mem, ?_⟩)
        (fun j mem listed => ⟨old j (wf.opened j (.inr listed)) mem, listed, rfl⟩)
        fun _ _ _ _ _ _ _ _ a => a
      exact Or.imp_right fun gone mem' => gone (old j mem mem')
  case register i order =>
    split at h
    · next guard =>
      cases h
      exact w.register wf handing guard.1 guard.2.1 order
    · cases h
  case write i m block force =>
    split at h
    · next ready =>
      cases h
      exact w.write wf (mem_of_ready ready) ok.1
    · cases h
  case publish =>
    split at h
    · cases h
    · next task queue eq =>
      cases h
      cases task with
      | setHandlerTopicRunningCounter i topic n =>
        exact absurd (eq ▸ List.mem_cons_self) (written i topic n)
      | publish i m wait stamp =>
        have known := ok.2
        unfold Heard at known
        rw [eq] at known
        have unforced := serial.unforced i m wait stamp (eq ▸ List.mem_cons_self)
        have published : (({ s with queue } : State ι).publishInternal specs m).Watchful specs := by
          cases verdict : s.verdict specs m with
          | replayed =>
            have live := (w.queued i m wait stamp (eq ▸ List.mem_cons_self)).1
            exact (Bool.false_ne_true (live.symm.trans (verdict_replayed.mp verdict))).elim
          | dropped => exact w.refuse wf handing unique eq unforced known.1 (.inl verdict)
          | marked => exact w.refuse wf handing unique eq unforced known.1 (.inr verdict)
          | accepted => exact w.accept wf handing unique eq unforced known.1 verdict (known.2 verdict)
        unfold runPublisher release
        simp only
        split
        · exact published.adjust rfl fun _ _ _ _ a => a.congr rfl rfl rfl rfl rfl
        · exact published
  case resolveConflict i topic =>
    split at h
    · next guard =>
      cases h
      refine w.adjust ?_ fun listed t own others a => a.effect ?_
      · exact (Handler.silent_resolve _ _ _).registeredAt
      · rw [guard.1]
        exact Handler.effect_resolve _ _ _ fun topic generation =>
          Handler.quiet_resolved (handing.bounded i t) topic generation none
    · cases h
  case resetConflictStateWithLastTopicMessage => exact ok.1.1.elim
  case setTopicRunningCounter => exact ok.1.1.elim
  case run i =>
    split at h
    · cases h
    · next task inbox queued =>
      split at h
      · cases h
      · cases h
        refine w.adjust ?_ fun _ t own others a => a.run queued
        cases task <;> rfl
  case unsubscribe i =>
    split at h
    · cases h
      refine w.transfer rfl rfl rfl (fun j mem => ⟨mem, ?_⟩)
        (fun j mem listed => ⟨List.mem_of_mem_erase mem, listed, rfl⟩) fun _ _ _ _ _ _ _ _ a => a
      exact Or.imp_right fun gone mem' => gone (List.mem_of_mem_erase mem')
    · cases h
  case erase i =>
    split at h
    · next guard =>
      cases h
      have other : ∀ j ∈ s.subscribers, j ≠ i := fun j mem same => guard.2 (same ▸ mem)
      refine w.transfer rfl rfl rfl (fun j mem => ⟨mem, ?_⟩) (fun j mem listed => ?_)
        fun j listed _ t g own others _ a => ?_
      · rintro (listed | gone)
        · by_cases same : j = i
          · exact .inr fun mem => other j mem same
          · exact .inl ((List.mem_erase_of_ne same).mpr listed)
        · exact .inr gone
      · refine ⟨mem, List.mem_of_mem_erase listed, ?_⟩
        rw [update_handler, if_neg (other j mem)]
      · have apart : j ≠ i := fun same => wf.handlers.not_mem_erase (same ▸ listed)
        rw [update_handler, if_neg apart]
        exact a
    · cases h

theorem reached (unique : ∀ i j, (specs i).name = (specs j).name → i = j)
    (run : ReachesBy (State.step specs) (Informed specs) ({} : State ι) s) : s.Watchful specs := by
  have all : (s.Serial specs ∧ s.Written ∧ s.Handing specs) ∧ s.Watchful specs := by
    refine run.invariant (I := fun s => (s.Serial specs ∧ s.Written ∧ s.Handing specs) ∧
      s.Watchful specs) ⟨⟨.new, nofun, .new⟩, .new⟩ ?_
    rintro s a s' ⟨⟨serial, written, handing⟩, w⟩ ok h
    have timely := ok.timely
    exact ⟨⟨serial.step timely.1.1 h, written.step timely.1 h, handing.step serial written timely h⟩,
      w.step serial written handing unique ok h⟩
  exact all.2

end Watchful

/-- No lost update: what the publisher is about to accept was written by a context
that had been handed every message of others accepted on the topic. -/
def Detects (specs : ι → HandlerSpec) (s : State ι) : Prop :=
  ∀ i m wait stamp queue, s.queue = .publish i m wait stamp :: queue →
    i ∈ s.handlers → i ∈ s.subscribers → s.verdict specs m = .accepted →
      ∀ x ∈ s.acceptedSince i, x.topic = m.topic →
        x.sourceWriteHandlerIdentifier ≠ (specs i).name → x ∈ stamp.seen

theorem detection (unique : ∀ i j, (specs i).name = (specs j).name → i = j)
    (run : ReachesBy (step specs) (Informed specs) ({} : State ι) s)
    (ok : Informed specs s .publish) : Detects specs s := by
  intro i m wait stamp queue eq listed subscribed accepted x since topic other
  have w := Watchful.reached unique run
  obtain ⟨serial, -, -⟩ := Handing.reached (run.mono fun _ _ ok => ok.timely)
  have head : PublisherTask.publish i m wait stamp ∈ s.queue := eq ▸ List.mem_cons_self
  have follows := (w.queued i m wait stamp head).2.2.2.1
  have unforced := serial.unforced i m wait stamp head
  have found := source_unique unique listed (serial.queued i m wait stamp head).2
  have heard := ok.2
  unfold Heard at heard
  rw [eq] at heard
  have a := w.abreast i subscribed listed m.topic follows
  rw [Watchful.ownWrites_dequeued eq, if_pos ⟨rfl, rfl⟩] at a
  obtain ⟨number, free⟩ := timely_accepted heard.1 accepted unforced found
  refine (a.accept number free (heard.2 accepted listed subscribed)).1 x ?_
  exact List.mem_filter.mpr ⟨since, decide_eq_true ⟨topic, other⟩⟩

theorem pair_follows (i : Fin 2) (topic : String) : (pair i).follows topic := by
  match i with
  | 0 => exact ⟨by simp [HandlerSpec.subscribes, pair], fun _ _ => rfl⟩
  | 1 => exact ⟨by simp [HandlerSpec.subscribes, pair], fun _ _ => rfl⟩

/-- The second handler runs the events of the first one's message, and answers it. -/
def answering : List (Action (Fin 2)) :=
  openPair ++ [Action.write 0 { topic := "t" } false false, .publish, .run 1, .run 1,
    .write 1 { topic := "t" } false false]

/-- The second handler has two messages in the queue when the first one's is
accepted; its conflict is resolved between its two messages. -/
def pipelining : List (Action (Fin 2)) :=
  openPair ++ [Action.write 0 { topic := "t" } false false, .write 1 { topic := "t" } false false,
    .write 1 { topic := "t" } false false, .publish, .publish, .resolveConflict 1 "t"]

/-- What the publisher is about to accept, and what its writer had seen. -/
def nextSeen (s : State (Fin 2)) : Option Nat :=
  match s.queue with
  | .publish 1 m _ stamp :: _ =>
    if s.verdict pair m = .accepted ∧ 1 ∈ s.handlers ∧ 1 ∈ s.subscribers ∧
        ((s.acceptedSince 1).filter fun x =>
          x.topic = m.topic ∧ x.sourceWriteHandlerIdentifier ≠ (pair 1).name).length = 1 then
      some stamp.seen.length
    else none
  | _ => none

theorem detection_seen :
    ∃ s, ReachesBy (step pair) (Informed pair) ({} : State (Fin 2)) s ∧
      nextSeen s = some 2 ∧ Detects pair s := by
  have ran : ((execBy (step pair) (fun s a => Simple s a ∧ Heard pair s a) {} answering).map
      fun s => decide (nextSeen s = some 2 ∧ Heard pair s .publish)) = some true := by decide
  obtain ⟨s, run, h⟩ := Option.map_eq_some_iff.mp ran
  obtain ⟨two, heard⟩ := of_decide_eq_true h
  have informed : ReachesBy (step pair) (Informed pair) ({} : State (Fin 2)) s :=
    (ReachesBy.of_execBy run).mono fun _ _ ok =>
      ⟨⟨ok.1, fun _ _ _ _ _ => pair_follows _ _⟩, ok.2⟩
  refine ⟨s, informed, two, detection ?_ informed ⟨⟨trivial, fun _ _ _ _ _ => pair_follows _ _⟩, heard⟩⟩
  decide

theorem detection_pipelined :
    ¬ ∀ s, ReachesBy (step pair) (Ordinary pair) ({} : State (Fin 2)) s → Detects pair s := by
  intro all
  have ran : ((execBy (step pair) Simple ({} : State (Fin 2)) pipelining).map fun s =>
      decide (nextSeen s = some 0)) = some true := by decide
  obtain ⟨s, run, h⟩ := Option.map_eq_some_iff.mp ran
  have missed := of_decide_eq_true h
  have detects := all s ((ReachesBy.of_execBy run).mono fun _ _ ok =>
    ⟨ok, fun _ _ _ _ _ => pair_follows _ _⟩)
  unfold nextSeen at missed
  split at missed
  · next m wait stamp queue eq =>
    split at missed
    · next accepts =>
      obtain ⟨accepted, listed, subscribed, one⟩ := accepts
      obtain ⟨x, only⟩ := List.length_eq_one_iff.mp one
      have mem : x ∈ List.filter _ (s.acceptedSince 1) := only ▸ List.mem_cons_self
      obtain ⟨since, kind⟩ := List.mem_filter.mp mem
      obtain ⟨topic, other⟩ := of_decide_eq_true kind
      have seen := detects 1 m wait stamp queue eq listed subscribed accepted x since topic other
      have none : stamp.seen = [] := List.length_eq_zero_iff.mp (Option.some.inj missed)
      rw [none] at seen
      cases seen
    · cases missed
  · cases missed

end State
end Dmn.DMesg
