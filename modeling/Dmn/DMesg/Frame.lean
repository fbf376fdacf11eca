import Dmn.DMesg.Abreast

/-!
# Resolving one topic

A message that a handler takes resolves its conflict on the topic of the message. The request to
resolve everything is spelled with the empty topic, which is a topic as well: a message on it
resolves every topic of the handlers that take it.
-/

namespace Dmn.DMesg

open Dmn.Lib

/-- The event, observed or not, that ends a conflict on a topic. -/
def HandlerTask.conflictResolved (t : String) : HandlerTask → Bool
  | .event e _ => e.type = .kConflictResolved && e.topic = t
  | .setAfterInitialPlayback => false

namespace Handler

variable {h h' : Handler} {spec : HandlerSpec} {m : DMesgPb} {t : String} {listed : Bool}

def topicInConflict (h : Handler) : List String := (h.state.map (·.topicInConflict)).getD []

/-- What was queued for the handler's context on the way from one state to another. -/
def emitted (h h' : Handler) : List HandlerTask := h'.inbox.drop h.inbox.length

/-- Conflicts on other topics stay, and no event says otherwise. -/
def KeepsOthers (t : String) (h h' : Handler) : Prop :=
  ∀ topic ≠ t, topic ∈ h.topicInConflict →
    topic ∈ h'.topicInConflict ∧ ∀ task ∈ h.emitted h', task.conflictResolved topic = false

/-- The branches of `notify` that resolve: a forced message, or a new one that is taken. -/
def ResolvedBy (spec : HandlerSpec) (h : Handler) (m : DMesgPb) : Prop :=
  ∃ state, h.state = some state ∧ m.conflict = false ∧ (m.force = true ∨
    (state.topicRunningCounter m.topic).getD 0 < m.runningCounter ∧
    (m.sourceWriteHandlerIdentifier ≠ spec.name ∨ m.type = .sys) ∧
    (m.type ≠ .sys ∨ spec.includeDMesgPbSys) ∧ spec.subscribes m.topic ∧ spec.filterFn m)

-- ---------------------------------------------------------------------------
-- What one resolution does
-- ---------------------------------------------------------------------------

/-- The new events end conflicts on topics of a list only. -/
def EmitsFor (topics : List String) (h h' : Handler) : Prop :=
  ∃ new, h'.inbox = h.inbox ++ new ∧ ∀ task ∈ new, ∀ t ∉ topics, task.conflictResolved t = false

theorem EmitsFor.refl (topics : List String) (h : Handler) : EmitsFor topics h h :=
  ⟨[], (List.append_nil _).symm, fun _ mem => absurd mem List.not_mem_nil⟩

theorem EmitsFor.trans {topics : List String} {h'' : Handler} (a : EmitsFor topics h h')
    (b : EmitsFor topics h' h'') : EmitsFor topics h h'' := by
  obtain ⟨new, eq, kind⟩ := a
  obtain ⟨new', eq', kind'⟩ := b
  exact ⟨new ++ new', by rw [eq', eq, List.append_assoc], fun task mem =>
    (List.mem_append.mp mem).elim (kind task) (kind' task)⟩

theorem EmitsFor.mono {topics topics' : List String} (a : EmitsFor topics h h')
    (le : topics ⊆ topics') : EmitsFor topics' h h' := by
  obtain ⟨new, eq, kind⟩ := a
  exact ⟨new, eq, fun task mem t out => kind task mem t fun mem => out (le mem)⟩

theorem EmitsFor.emitted {topics : List String} (a : EmitsFor topics h h') {task : HandlerTask}
    (mem : task ∈ h.emitted h') (out : t ∉ topics) : task.conflictResolved t = false := by
  obtain ⟨new, eq, kind⟩ := a
  rw [Handler.emitted, eq, List.drop_left] at mem
  exact kind task mem t out

theorem emitsFor_enqueue (h : Handler) (type : HandlerEventType) (topic : String)
    (message : Option DMesgPb) (notifyObserver : Bool) {topics : List String}
    (named : type ≠ .kConflictResolved ∨ topic ∈ topics) :
    EmitsFor topics h (h.enqueueHandlerEvent listed type topic message notifyObserver) := by
  unfold enqueueHandlerEvent
  split
  · exact .refl _ h
  · split
    · refine ⟨_, rfl, fun task mem t out => ?_⟩
      cases List.mem_singleton.mp mem
      have apart : type = .kConflictResolved → topic ≠ t := fun is same =>
        named.elim (fun other => other is) fun mem => out (same ▸ mem)
      simpa [HandlerTask.conflictResolved] using apart
    · exact .refl _ h

@[simp] theorem topicInConflict_enqueue (h : Handler) (type : HandlerEventType) (topic : String)
    (message : Option DMesgPb) (notifyObserver : Bool) :
    (h.enqueueHandlerEvent listed type topic message notifyObserver).topicInConflict =
      h.topicInConflict := by
  unfold enqueueHandlerEvent topicInConflict
  split
  · rfl
  · split <;> rfl

@[simp] theorem topicInConflict_setStateCounter (h : Handler) (topic : String) (n : Nat) :
    (h.setStateCounter topic n).topicInConflict = h.topicInConflict := by
  unfold setStateCounter topicInConflict
  cases h.state <;> rfl

theorem topicInConflict_throw {state : HandlerState} (present : h.state = some state)
    (m : DMesgPb) : (h.throwHandlerConflict listed m).topicInConflict =
      insertTopic m.topic h.topicInConflict := by
  unfold throwHandlerConflict
  rw [present]
  simp only
  rw [topicInConflict_enqueue]
  simp [topicInConflict, present]

theorem emitsFor_throw (h : Handler) (m : DMesgPb) :
    EmitsFor [] h (h.throwHandlerConflict listed m) := by
  unfold throwHandlerConflict
  split
  · exact .refl _ h
  · exact emitsFor_enqueue _ _ _ _ _ (.inl nofun)

theorem topicInConflict_resolveTopic (h : Handler) (topic : String) (message : Option DMesgPb) :
    (h.resolveTopicConflict listed topic message).topicInConflict =
      h.topicInConflict.erase topic := by
  unfold resolveTopicConflict
  split
  · next none => simp [topicInConflict, none]
  · next present =>
    simp only
    split
    · rw [topicInConflict_enqueue]
      simp [topicInConflict, present]
    · simp [topicInConflict, present]

theorem emitsFor_resolveTopic (h : Handler) (topic : String) (message : Option DMesgPb) :
    EmitsFor [topic] h (h.resolveTopicConflict listed topic message) := by
  unfold resolveTopicConflict
  split
  · exact .refl _ h
  · simp only
    split
    · exact emitsFor_enqueue _ _ _ _ _ (.inr List.mem_cons_self)
    · exact .refl _ h

theorem topicInConflict_resolveTopics (message : Option DMesgPb) (topics : List String)
    (h : Handler) :
    (topics.foldl (fun h t => h.resolveTopicConflict listed t message) h).topicInConflict =
      h.topicInConflict.diff topics := by
  induction topics generalizing h with
  | nil => rfl
  | cons topic topics ih =>
    rw [List.foldl_cons, ih, topicInConflict_resolveTopic, List.diff_cons]

theorem diff_self (topics : List String) : topics.diff topics = [] := by
  induction topics with
  | nil => rfl
  | cons topic topics ih => rw [List.diff_cons, List.erase_cons_head, ih]

/-- The loop of the empty topic leaves nothing. -/
theorem topicInConflict_resolve_all (h : Handler) (message : Option DMesgPb) :
    (h.resolveHandlerConflict listed "" message).topicInConflict = [] := by
  unfold resolveHandlerConflict
  split
  · next none => simp [topicInConflict, none]
  · next present =>
    rw [if_pos rfl, topicInConflict_resolveTopics]
    simp [topicInConflict, present, diff_self]

theorem resolve_one (present : h.state.isSome) {topic : String} (named : topic ≠ "")
    (message : Option DMesgPb) : h.resolveHandlerConflict listed topic message =
      h.resolveTopicConflict listed topic message := by
  unfold resolveHandlerConflict
  split
  · next none => simp [none] at present
  · rw [if_neg named]

-- ---------------------------------------------------------------------------
-- What a delivered message does
-- ---------------------------------------------------------------------------

/-- A message that does not resolve leaves the record, or enters a conflict. -/
theorem notify_unresolved (unresolved : ¬ h.ResolvedBy spec m) :
    h.notify spec listed m = h ∨ h.notify spec listed m = h.throwHandlerConflict listed m := by
  unfold notify
  split
  · exact .inl rfl
  · next state present =>
    have branch : m.conflict = false → ¬ (m.force = true ∨ _) := fun unmarked taken =>
      unresolved ⟨state, present, unmarked, taken⟩
    split
    · split
      · exact .inr rfl
      · exact .inl rfl
    · next unmarked =>
      have branch := branch (by simpa using unmarked)
      grind

/-- A message that resolves does it on its topic, and may be handed over after that. -/
theorem notify_resolved (resolved : h.ResolvedBy spec m) : ∃ h',
    h' = (h.setStateCounter m.topic m.runningCounter).resolveHandlerConflict listed m.topic
      (some m) ∧
    (h.notify spec listed m).topicInConflict = h'.topicInConflict ∧
    EmitsFor [] h' (h.notify spec listed m) := by
  obtain ⟨state, present, unmarked, taken⟩ := resolved
  refine ⟨_, rfl, ?_⟩
  unfold notify
  rw [present]
  by_cases force : m.force = true
  · simp [unmarked, force, EmitsFor.refl]
  · obtain ⟨new, source, sys, subscribes, filter⟩ := taken.resolve_left force
    simp only [unmarked, Bool.false_eq_true, if_false, force, or_false, if_pos new, if_pos source,
      if_pos (And.intro sys (And.intro subscribes filter))]
    exact ⟨topicInConflict_enqueue _ _ _ _ _, emitsFor_enqueue _ _ _ _ _ (.inl nofun)⟩

theorem ResolvedBy.isSome (resolved : h.ResolvedBy spec m) : h.state.isSome := by
  obtain ⟨state, present, -⟩ := resolved
  rw [present]
  rfl

theorem mem_insertTopic_of_mem {topic : String} {topics : List String} (mem : t ∈ topics) :
    t ∈ insertTopic topic topics :=
  (mem_insertTopic _ _ _).mpr (.inr mem)

theorem keepsOthers_iff (spec : HandlerSpec) (listed : Bool) (h : Handler) (m : DMesgPb) :
    KeepsOthers m.topic h (h.notify spec listed m) ↔
      ¬ (m.topic = "" ∧ h.ResolvedBy spec m ∧ ∃ topic ≠ "", topic ∈ h.topicInConflict) := by
  constructor
  · rintro keeps ⟨empty, resolved, topic, named, mem⟩
    obtain ⟨h', eq, same, -⟩ := @notify_resolved h spec m listed resolved
    have kept := (keeps topic (by rw [empty]; exact named) mem).1
    rw [same, eq, empty, topicInConflict_resolve_all] at kept
    cases kept
  · intro apart topic other mem
    by_cases resolved : h.ResolvedBy spec m
    · obtain ⟨h', eq, same, emits⟩ := @notify_resolved h spec m listed resolved
      have named : m.topic ≠ "" := fun empty =>
        apart ⟨empty, resolved, topic, empty ▸ other, mem⟩
      have present : (h.setStateCounter m.topic m.runningCounter).state.isSome := by
        simpa [setStateCounter] using resolved.isSome
      rw [resolve_one present named] at eq
      have one : EmitsFor [m.topic] h (h.notify spec listed m) := by
        have first : EmitsFor [m.topic] h h' := by
          rw [eq]
          exact emitsFor_resolveTopic (h.setStateCounter m.topic m.runningCounter) _ _
        exact first.trans (emits.mono (List.nil_subset _))
      refine ⟨?_, fun task emitted => one.emitted emitted (by simpa using other)⟩
      rw [same, eq, topicInConflict_resolveTopic, topicInConflict_setStateCounter]
      exact (List.mem_erase_of_ne other).mpr mem
    · rcases @notify_unresolved h spec m listed resolved with eq | eq
      · rw [eq]
        exact ⟨mem, fun task emitted => (EmitsFor.refl [] h).emitted emitted List.not_mem_nil⟩
      · rw [eq]
        refine ⟨?_, fun task emitted => (emitsFor_throw h m).emitted emitted List.not_mem_nil⟩
        cases present : h.state with
        | none => simp [topicInConflict, present] at mem
        | some state =>
          rw [topicInConflict_throw present]
          exact mem_insertTopic_of_mem mem

end Handler

namespace State

variable {ι : Type} [DecidableEq ι]

/-- In any state, the ones between two notifications of a publication included, a message resolves
other topics of a handler exactly if it is on the empty topic and resolves at all. -/
theorem notify_keepsOthers (specs : ι → HandlerSpec) (s : State ι) (i : ι) (m : DMesgPb) :
    ((s.handler i).KeepsOthers m.topic ((s.handler i).notify (specs i) (s.listed i) m)) ↔
      ¬ (m.topic = "" ∧ (s.handler i).ResolvedBy (specs i) m ∧
        ∃ topic ≠ "", topic ∈ (s.handler i).topicInConflict) :=
  Handler.keepsOthers_iff (specs i) (s.listed i) (s.handler i) m

/-- The second handler's write on a topic is refused; then the first one writes on no topic. -/
def refusing : List (Action (Fin 2)) :=
  openPair ++ [Action.write 0 { topic := "t" } false false, .write 1 { topic := "t" } false false,
    .publish, .publish, .write 0 { topic := "" } false false]

/-- The message of that write. -/
def topicless : DMesgPb :=
  { topic := "", runningCounter := 1, sourceIdentifier := "first",
    sourceWriteHandlerIdentifier := "first" }

/-- The message that the publisher takes next. -/
def nextMessage {ι : Type} (s : State ι) : Option DMesgPb :=
  match s.queue with
  | .publish _ m _ _ :: _ => some m
  | _ => none

theorem notify_resolvesAll :
    ¬ ∀ s, Reaches (step pair) ({} : State (Fin 2)) s → ∀ m, s.nextMessage = some m →
      ∀ i ∈ s.handlers,
        (s.handler i).KeepsOthers m.topic ((s.handler i).notify (pair i) (s.listed i) m) := by
  intro keeps
  have reached : ∃ s : State (Fin 2), Reaches (step pair) {} s ∧ s.nextMessage = some topicless ∧
      1 ∈ s.handlers ∧ "t" ∈ (s.handler 1).topicInConflict ∧
      "t" ∉ ((s.handler 1).notify (pair 1) (s.listed 1) topicless).topicInConflict :=
    ReachesBy.exists_of_any refusing (by decide)
  obtain ⟨s, run, next, listed, busy, free⟩ := reached
  exact free (keeps s run topicless next 1 listed "t" (by decide) busy).1

end State
end Dmn.DMesg
