import Dmn.DMesg.Invariant

/-!
# Serialization

Without forced writes the accepted messages of a topic are numbered 1, 2, 3, ….
A message that is not accepted changes neither counter nor cache, and is not
delivered, unless it carries the playback flag: such a message passes by the
conflict detection, but reaches neither counter nor cache.
-/

namespace Dmn.DMesg

open Dmn.Lib

namespace State

variable {ι : Type} [DecidableEq ι] {specs : ι → HandlerSpec} {s s' : State ι} {m : DMesgPb}

/-- The messages of a topic. -/
def ofTopic (topic : String) (ms : List DMesgPb) : List DMesgPb :=
  ms.filter fun m => m.topic = topic

/-- No forced write. -/
def Unforced (_ : State ι) : Action ι → Prop
  | .write _ m _ force => m.force = false ∧ force = false
  | _ => True

instance (s : State ι) (a : Action ι) : Decidable (Unforced s a) := by
  unfold Unforced
  split <;> infer_instance

/-- The accepted messages are numbered, and the queue holds no forced write. -/
structure Serial (specs : ι → HandlerSpec) (s : State ι) : Prop extends Wellformed specs s where
  numbered : ∀ t, (ofTopic t s.accepted).map DMesgPb.runningCounter =
    List.range' 1 (s.topicRunningCounter t)
  unforced : ∀ i m wait stamp, .publish i m wait stamp ∈ s.queue → m.force = false

namespace Serial

omit [DecidableEq ι] in
theorem works (serial : s.Serial specs) (h : Works s s') : s'.Serial specs where
  toWellformed := serial.toWellformed.works h
  numbered := by rw [h.shared]; exact serial.numbered
  unforced := by rw [h.shared]; exact serial.unforced

omit [DecidableEq ι] in
/-- An ordinary message gets the next number; a forced copy keeps the last. -/
theorem cache (serial : s.Serial specs) (wellformed : (s.cache (s.renumbered m)).Wellformed specs)
    (last : m.force = true → m.runningCounter = s.topicRunningCounter m.topic) :
    (s.cache (s.renumbered m)).Serial specs where
  toWellformed := wellformed
  unforced := serial.unforced
  numbered t := by
    have numbered := serial.numbered t
    simp only [State.cache, renumbered, nextRunningCounter, Function.update_apply]
    by_cases force : m.force = true
    · simp only [force, if_true]
      split
      · next same => rwa [last force, ← same]
      · exact numbered
    · simp only [force, Bool.false_eq_true, if_false, ofTopic, List.filter_append, List.map_append]
      split
      · next same =>
        subst same
        simp only [ofTopic] at numbered
        rw [incrementByOne, List.range'_1_concat, ← numbered]
        simp [numbered, Nat.add_comm]
      · next other =>
        simp only [ofTopic] at numbered
        simp [numbered, Ne.symm other]

theorem publishInternal (serial : s.Serial specs) (positive : 1 ≤ m.runningCounter)
    (last : m.force = true → m.runningCounter = s.topicRunningCounter m.topic) :
    (s.publishInternal specs m).Serial specs := by
  by_cases h : s.verdict specs m = .accepted
  · obtain ⟨playback, -, -, conflict⟩ := verdict_accepted.mp h
    refine (serial.cache (serial.toWellformed.cache (m := s.renumbered m) ?_ conflict playback)
      last).works (works_accept h)
    unfold renumbered nextRunningCounter
    simp only
    split
    · exact positive
    · exact Nat.succ_pos _
  · exact serial.works (works_publish h)

theorem step (serial : s.Serial specs) {a : Action ι} (plain : Unforced s a)
    (h : s.step specs a = some s') : s'.Serial specs := by
  have unforced : ∀ i m wait stamp, .publish i m wait stamp ∈ s'.queue → m.force = false := by
    intro i m wait stamp mem
    rcases mem_queue_step h mem with old | ⟨j, m', block, force, wait', stamp', rfl, eq⟩ |
      ⟨j, topic, n, set, eq⟩
    · exact serial.unforced i m wait stamp old
    · cases eq
      simp [stamped, plain.1, plain.2]
    · cases eq
  refine ⟨serial.toWellformed.step h, ?_, unforced⟩
  by_cases aside : a.aside = true
  · have same := step_aside aside h
    rw [same.accepted, same.topicRunningCounter]
    exact serial.numbered
  · cases a <;> simp only [Action.aside, not_true_eq_false] at aside <;> simp only [State.step] at h
    case publish =>
      split at h
      · cases h
      · next task queue eq =>
        cases h
        have rest : ({ s with queue } : State ι).Serial specs :=
          { serial with
            queued := fun i m wait stamp mem =>
              serial.queued i m wait stamp (eq ▸ List.mem_cons_of_mem _ mem)
            unforced := fun i m wait stamp mem =>
              serial.unforced i m wait stamp (eq ▸ List.mem_cons_of_mem _ mem) }
        cases task with
        | publish i m wait stamp =>
          have head : PublisherTask.publish i m wait stamp ∈ s.queue := eq ▸ List.mem_cons_self
          have unforced := serial.unforced i m wait stamp head
          have published := rest.publishInternal (m := m) (serial.queued i m wait stamp head).1
            fun force => by rw [unforced] at force; cases force
          simp only [runPublisher]
          rw [release_eq]
          exact published.numbered
        | setHandlerTopicRunningCounter i topic runningCounter => exact rest.numbered
    case resetConflictStateWithLastTopicMessage topic =>
      cases h
      unfold resetConflictStateWithLastTopicMessageInternal
      split
      · exact serial.numbered
      · next m last =>
        have cached := serial.cached topic m last
        refine (serial.publishInternal (m := { m with force := true }) cached.positive
          fun _ => ?_).numbered
        show m.runningCounter = s.topicRunningCounter m.topic
        rw [cached.runningCounter, cached.topic]

omit [DecidableEq ι] in
theorem new : Serial specs ({} : State ι) where
  toWellformed := .new
  numbered _ := rfl
  unforced := nofun

theorem reached (run : ReachesBy (State.step specs) Unforced ({} : State ι) s) : s.Serial specs :=
  run.invariant new fun serial plain h => serial.step plain h

end Serial

-- ---------------------------------------------------------------------------
-- A refused message
-- ---------------------------------------------------------------------------

/-- The message is out of date, marked already, or its source is in conflict. -/
def refused (specs : ι → HandlerSpec) (s : State ι) (m : DMesgPb) : Prop :=
  m.runningCounter < incrementByOne (s.topicRunningCounter m.topic) ∨ m.conflict = true ∨
    s.sourceInConflict specs m = true

/-- Neither the counters nor the cache change. -/
structure Unchanged (s s' : State ι) : Prop where
  topicRunningCounter : s'.topicRunningCounter = s.topicRunningCounter
  topicLastDMesgPb : s'.topicLastDMesgPb = s.topicLastDMesgPb

/-- No handler is handed a message. -/
def Undelivered (s s' : State ι) : Prop :=
  ∀ i, (s'.handler i).delivered = (s.handler i).delivered

theorem delivered_noteSource (s : State ι) (m : DMesgPb) (i : ι) :
    ((s.noteSource specs m).handler i).delivered = (s.handler i).delivered := by
  rw [noteSource_handler]
  split <;> rfl

theorem delivered_marked (single : s.subscribers.Nodup) (conflict : m.conflict = true) (i : ι) :
    ((s.notifyAll specs m).handler i).delivered = (s.handler i).delivered := by
  rw [notifyAll_eq single]
  simp only
  split
  · unfold Handler.receive
    split
    · exact (Handler.notify_conflict_silent conflict).delivered
    · rfl
  · rfl

theorem delivered_throwSource (s : State ι) (m : DMesgPb) (i : ι) :
    ((s.throwSource specs m).handler i).delivered = (s.handler i).delivered := by
  rw [throwSource_handler]
  split
  · exact (Handler.silent_throw _ _).delivered
  · rfl

omit [DecidableEq ι] in
theorem refused_not_accepted (force : m.force = false) (h : s.refused specs m) :
    s.verdict specs m ≠ .accepted := by
  rw [Ne, verdict_accepted, force]
  rintro ⟨-, quiet, current, unmarked⟩
  rcases h with late | marked | busy
  · simp only [nextRunningCounter, force, Bool.false_eq_true, if_false] at current
    omega
  · rw [unmarked] at marked
    cases marked
  · rcases quiet with quiet | quiet
    · rw [quiet] at busy
      cases busy
    · cases quiet

theorem publishInternal_unchanged (refuses : s.verdict specs m ≠ .accepted) :
    Unchanged s (s.publishInternal specs m) := by
  have shared := (works_publish refuses).shared
  exact ⟨by rw [shared], by rw [shared]⟩

theorem publishInternal_undelivered (single : s.subscribers.Nodup) (playback : m.playback = false)
    (refuses : s.verdict specs m ≠ .accepted) : Undelivered s (s.publishInternal specs m) := by
  intro i
  match verdict : s.verdict specs m with
  | .replayed =>
    rw [verdict_replayed.mp verdict] at playback
    cases playback
  | .dropped =>
    rw [publishInternal_dropped verdict]
    exact delivered_noteSource s m i
  | .marked =>
    rw [publishInternal_marked verdict, delivered_marked ?_ rfl, delivered_throwSource,
      delivered_noteSource]
    rw [throwSource_eq, noteSource_eq]
    exact single
  | .accepted => exact absurd verdict refuses

/-- What the publisher does next leads from `s` to `s'`, and takes up `m`, which it refuses. -/
def Refuses (specs : ι → HandlerSpec) (s : State ι) (m : DMesgPb) (s' : State ι) : Prop :=
  (∃ i wait stamp queue, s.queue = .publish i m wait stamp :: queue) ∧ s.refused specs m ∧
    s.step specs .publish = some s'

theorem Refuses.unchanged (serial : s.Serial specs) (h : Refuses specs s m s') :
    Unchanged s s' := by
  obtain ⟨⟨i, wait, stamp, queue, eq⟩, refused, h⟩ := h
  simp only [State.step, eq, Option.some.injEq] at h
  have head : PublisherTask.publish i m wait stamp ∈ s.queue := eq ▸ List.mem_cons_self
  have unchanged := publishInternal_unchanged (s := { s with queue })
    (refused_not_accepted (serial.unforced i m wait stamp head) refused)
  subst h
  simp only [runPublisher]
  constructor
  · rw [release_eq]
    exact unchanged.topicRunningCounter
  · rw [release_eq]
    exact unchanged.topicLastDMesgPb

theorem Refuses.undelivered (serial : s.Serial specs) (playback : m.playback = false)
    (h : Refuses specs s m s') : Undelivered s s' := by
  obtain ⟨⟨i, wait, stamp, queue, eq⟩, refused, h⟩ := h
  simp only [State.step, eq, Option.some.injEq] at h
  have head : PublisherTask.publish i m wait stamp ∈ s.queue := eq ▸ List.mem_cons_self
  have undelivered := publishInternal_undelivered (s := { s with queue }) serial.subscribers
    playback (refused_not_accepted (serial.unforced i m wait stamp head) refused)
  subst h
  intro j
  simp only [runPublisher]
  rw [delivered_release]
  exact undelivered j

/-- The publisher's numbers, its cache, and what it makes of a refused message. -/
structure Serialized (specs : ι → HandlerSpec) (s : State ι) : Prop where
  numbered : ∀ t, (ofTopic t s.accepted).map DMesgPb.runningCounter =
    List.range' 1 (s.topicRunningCounter t)
  cached : ∀ t, s.topicRunningCounter t =
    ((s.topicLastDMesgPb t).map DMesgPb.runningCounter).getD 0
  unchanged : ∀ m s', Refuses specs s m s' → Unchanged s s'
  undelivered : ∀ m s', Refuses specs s m s' → m.playback = false → Undelivered s s'

theorem serialization (run : ReachesBy (step specs) Unforced ({} : State ι) s) :
    Serialized specs s := by
  have serial := Serial.reached run
  refine ⟨serial.numbered, fun t => ?_, fun m s' h => h.unchanged serial,
    fun m s' h playback => h.undelivered serial playback⟩
  cases last : s.topicLastDMesgPb t with
  | none => exact serial.uncached t last
  | some m => exact (serial.cached t m last).runningCounter.symm

/-- Two writers, and a reader that passes on only what the second one writes. -/
def playing : Fin 3 → HandlerSpec
  | 0 => { name := "writer" }
  | 1 => { name := "player" }
  | 2 => { name := "reader", filterFn := fun m => m.body = "old" }

/-- The second writer has not heard of the first message when it writes one of the
same number, with the playback flag; the reader is being registered. -/
def replay : List (Action (Fin 3)) :=
  [.subscribe 0, .register 0 [], .run 0, .subscribe 1, .register 1 [], .run 1,
   .write 0 { topic := "t", body := "new" } false false, .publish,
   .write 1 { topic := "t", body := "old", playback := true } false false,
   .subscribe 2, .register 2 ["t"]]

/-- The first writer's message is taken, and the second one's, of the same number, is next. -/
def raced : List (Action (Fin 3)) :=
  [.subscribe 0, .register 0 [], .run 0, .subscribe 1, .register 1 [], .run 1,
   .write 0 { topic := "t", body := "new" } false false, .publish,
   .write 1 { topic := "t", body := "old" } false false]

/-- The next task publishes a message without the playback flag, and it is refused. -/
def outrun (s : State (Fin 3)) : Bool :=
  match s.queue with
  | .publish _ m _ _ :: _ =>
    decide (m.playback = false ∧ m.runningCounter < incrementByOne (s.topicRunningCounter m.topic) ∧
      (s.step playing .publish).isSome = true)
  | _ => false

theorem serialization_numbered :
    ∃ s m s', ReachesBy (step playing) Unforced ({} : State (Fin 3)) s ∧
      Refuses playing s m s' ∧ Unchanged s s' ∧ Undelivered s s' ∧ Serialized playing s := by
  have ran : (execBy (step playing) Unforced {} raced).map outrun = some true := by decide
  obtain ⟨s, run, h⟩ := Option.map_eq_some_iff.mp ran
  have serialized := serialization (.of_execBy run)
  unfold outrun at h
  split at h
  · next i m wait stamp queue eq =>
    obtain ⟨unplayed, late, published⟩ := of_decide_eq_true h
    obtain ⟨s', taken⟩ := Option.isSome_iff_exists.mp published
    have refuses : Refuses playing s m s' := ⟨⟨i, wait, stamp, queue, eq⟩, .inl late, taken⟩
    exact ⟨s, m, s', .of_execBy run, refuses, serialized.unchanged m s' refuses,
      serialized.undelivered m s' refuses unplayed, serialized⟩
  · cases h

/-- The next task publishes a message that is behind, and handler 2 has it for the first time. -/
def overdue (s : State (Fin 3)) : Bool :=
  match s.queue with
  | .publish _ m _ _ :: _ =>
    decide (m.runningCounter < incrementByOne (s.topicRunningCounter m.topic) ∧
      (s.handler 2).delivered.length = 0 ∧
      ((s.step playing .publish).map fun s => (s.handler 2).delivered.length) = some 1)
  | _ => false

/-- Of a message with the playback flag the last part fails. -/
theorem serialization_replay :
    ¬ ∀ s, ReachesBy (step playing) Unforced ({} : State (Fin 3)) s → Serialized playing s ∧
      ∀ m s', Refuses playing s m s' → Unchanged s s' ∧ Undelivered s s' := by
  intro all
  have ran : (execBy (step playing) Unforced {} replay).map overdue = some true := by decide
  obtain ⟨s, run, h⟩ := Option.map_eq_some_iff.mp ran
  unfold overdue at h
  split at h
  · next i m wait stamp queue eq =>
    obtain ⟨late, none, published⟩ := of_decide_eq_true h
    obtain ⟨s', step, one⟩ := Option.map_eq_some_iff.mp published
    have same := ((all s (.of_execBy run)).2 m s'
      ⟨⟨i, wait, stamp, queue, eq⟩, .inl late, step⟩).2 2
    rw [same, none] at one
    cases one
  · cases h

end State
end Dmn.DMesg
