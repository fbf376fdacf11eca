import Dmn.DMesg.Delivery
import Dmn.DMesg.Mirror
import Mathlib.Data.List.Induction

/-!
# Keeping abreast of a topic

The publisher takes a number for proof that a writer has seen what came before.
A writer's own refused messages raise its number too, so the proof is good only
from one resolution of its conflicts to the next: for one handler and one topic
the invariant relates the numbers on their way to the publisher, the events on
their way to the handler, and what the handler's context has seen.
-/

namespace Dmn.DMesg

open Dmn.Lib

-- ---------------------------------------------------------------------------
-- Events on their way
-- ---------------------------------------------------------------------------

namespace HandlerTask

/-- A conflict on the topic is over. -/
def resolves (t : String) : HandlerTask → Bool
  | .event e notifyObserver => notifyObserver && e.type = .kConflictResolved && e.topic = t
  | .setAfterInitialPlayback => false

/-- The message of the topic that a task delivers, replays apart. -/
def messageOn (t : String) : HandlerTask → Option DMesgPb
  | .event e _ =>
    if e.type = .kMessage ∧ e.topic = t then e.message.filter fun m => m.playback = false else none
  | .setAfterInitialPlayback => none

/-- The counter that the handler's context may take over. -/
def counterOn (t : String) : HandlerTask → Nat
  | .event e _ => if e.type ≠ .kConflictEntered ∧ e.topic = t then e.handlerRunningCounter else 0
  | .setAfterInitialPlayback => 0

def carries (m : DMesgPb) : HandlerTask → Bool
  | .event e _ => e.type ≠ .kConflictEntered ∧ e.message = some m
  | .setAfterInitialPlayback => false

end HandlerTask

/-- A task does not take over a number that a later message still brings. -/
def Ordered (t : String) (inbox : List HandlerTask) : Prop :=
  inbox.Pairwise fun a b => ∀ m, b.messageOn t = some m →
    a.counterOn t < m.runningCounter ∨ a.carries m = true

def newestStep (t : String) (ms : List DMesgPb) (task : HandlerTask) : List DMesgPb :=
  if task.resolves t then [] else ms ++ (task.messageOn t).toList

/-- The messages behind the last resolution. -/
def newest (t : String) (inbox : List HandlerTask) : List DMesgPb :=
  inbox.foldl (newestStep t) []

section
variable {t : String} {inbox new : List HandlerTask} {task : HandlerTask} {m : DMesgPb}

theorem newest_mono {ms ms' : List DMesgPb} (sub : ms ⊆ ms') (inbox : List HandlerTask) :
    inbox.foldl (newestStep t) ms ⊆ inbox.foldl (newestStep t) ms' := by
  induction inbox generalizing ms ms' with
  | nil => exact sub
  | cons task inbox ih =>
    refine ih ?_
    unfold newestStep
    split
    · exact List.Subset.refl _
    · exact List.append_subset.mpr
        ⟨fun _ mem => List.mem_append_left _ (sub mem), List.subset_append_right _ _⟩

theorem newest_tail (task : HandlerTask) (inbox : List HandlerTask) :
    newest t inbox ⊆ newest t (task :: inbox) := newest_mono (List.nil_subset _) inbox

/-- Tasks that deliver nothing add nothing. -/
theorem newest_plain (plain : ∀ task ∈ new, task.messageOn t = none) :
    newest t (inbox ++ new) ⊆ newest t inbox := by
  unfold newest
  rw [List.foldl_append]
  generalize inbox.foldl (newestStep t) [] = ms
  induction new generalizing ms with
  | nil => exact List.Subset.refl _
  | cons task new ih =>
    have rest := ih (fun u mem => plain u (List.mem_cons_of_mem _ mem)) (newestStep t ms task)
    refine fun _ mem => (?_ : newestStep t ms task ⊆ ms) (rest mem)
    unfold newestStep
    split
    · exact List.nil_subset _
    · rw [plain task List.mem_cons_self]
      simp

/-- Behind a resolution there is nothing left of what was there. -/
theorem newest_resolved (plain : ∀ task ∈ new, task.messageOn t = none)
    (resolved : 0 < new.countP (·.resolves t)) : newest t (inbox ++ new) = [] := by
  obtain ⟨task, mem, resolves⟩ := List.countP_pos_iff.mp resolved
  obtain ⟨before, after, rfl⟩ := List.append_of_mem mem
  have rest : newest t ((inbox ++ before ++ [task]) ++ after) ⊆ newest t (inbox ++ before ++ [task]) :=
    newest_plain fun u mem => plain u (List.mem_append_right _ (List.mem_cons_of_mem _ mem))
  have none : newest t (inbox ++ before ++ [task]) = [] := by
    unfold newest
    rw [List.foldl_append]
    simp [newestStep, resolves]
  rw [none] at rest
  have eq : inbox ++ (before ++ task :: after) = (inbox ++ before ++ [task]) ++ after := by simp
  rw [eq]
  exact List.subset_nil.mp rest

theorem newest_concat (quiet : task.resolves t = false) :
    newest t (inbox ++ [task]) = newest t inbox ++ (task.messageOn t).toList := by
  unfold newest
  rw [List.foldl_append]
  simp [newestStep, quiet]

theorem mem_of_newest (mem : m ∈ newest t inbox) :
    ∃ task ∈ inbox, task.messageOn t = some m := by
  induction inbox using List.reverseRecOn with
  | nil => cases mem
  | append_singleton inbox task ih =>
    unfold newest at mem ih
    rw [List.foldl_append] at mem
    simp only [List.foldl_cons, List.foldl_nil, newestStep] at mem
    split at mem
    · cases mem
    · rcases List.mem_append.mp mem with mem | mem
      · obtain ⟨u, mem, eq⟩ := ih mem
        exact ⟨u, List.mem_append_left _ mem, eq⟩
      · exact ⟨task, List.mem_append_right _ List.mem_cons_self, by simpa using mem⟩

/-- Without a resolution on its way every message counts. -/
theorem newest_of_mem (none : inbox.countP (·.resolves t) = 0) (mem : task ∈ inbox)
    (eq : task.messageOn t = some m) : m ∈ newest t inbox := by
  induction inbox using List.reverseRecOn with
  | nil => cases mem
  | append_singleton inbox u ih =>
    rw [List.countP_append, Nat.add_eq_zero_iff] at none
    have quiet : u.resolves t = false := by
      have := List.countP_eq_zero.mp none.2 u List.mem_cons_self
      simpa using this
    rw [newest_concat quiet]
    rcases List.mem_append.mp mem with mem | mem
    · exact List.mem_append_left _ (ih none.1 mem)
    · rw [List.mem_singleton.mp mem] at eq
      exact List.mem_append_right _ (by simp [eq])

end

-- ---------------------------------------------------------------------------
-- The publisher's work on one handler, seen from one topic
-- ---------------------------------------------------------------------------

namespace Handler

variable {h h' h'' : Handler} {t : String} {P : HandlerTask → Prop} {m : DMesgPb}
  {spec : HandlerSpec}

def inConflict (h : Handler) (t : String) : Prop :=
  ∃ state, h.state = some state ∧ t ∈ state.topicInConflict

/-- How many conflicts of the handler on a topic were resolved. -/
def resolutions (h : Handler) (t : String) : Nat :=
  resolvedTopic t h.observed + h.inbox.countP (·.resolves t)

/-- Tasks of a kind are queued. The topic is in conflict after it, or a conflict
was resolved, or nothing changed. -/
def Queues (t : String) (P : HandlerTask → Prop) (h h' : Handler) (new : List HandlerTask) : Prop :=
  h'.inbox = h.inbox ++ new ∧ (∀ task ∈ new, P task) ∧
    (h'.inConflict t ∨ 0 < new.countP (·.resolves t) ∨
      new.countP (·.resolves t) = 0 ∧ (h'.inConflict t ↔ h.inConflict t))

theorem Queues.nothing (inbox : h'.inbox = h.inbox) (same : h'.inConflict t ↔ h.inConflict t) :
    Queues t P h h' [] := by
  refine ⟨by rw [inbox, List.append_nil], fun task mem => ?_, .inr (.inr ⟨rfl, same⟩)⟩
  cases mem

structure Effect (t : String) (P : HandlerTask → Prop) (h h' : Handler) : Prop
    extends SameContext h h' where
  queues : ∃ new, Queues t P h h' new

theorem Effect.refl (h : Handler) : Effect t P h h :=
  ⟨.refl h, [], .nothing rfl .rfl⟩

theorem Effect.trans (a : Effect t P h h') (b : Effect t P h' h'') : Effect t P h h'' := by
  obtain ⟨new, eq, kind, turn⟩ := a.queues
  obtain ⟨new', eq', kind', turn'⟩ := b.queues
  refine ⟨a.toSameContext.trans b.toSameContext, new ++ new', ?_, fun task mem => ?_, ?_⟩
  · rw [eq', eq, List.append_assoc]
  · exact (List.mem_append.mp mem).elim (kind task) (kind' task)
  · rw [List.countP_append]
    rcases turn' with busy | resolved | ⟨quiet, same⟩
    · exact .inl busy
    · exact .inr (.inl (Nat.add_pos_right _ resolved))
    · rcases turn with busy | resolved | ⟨quiet', same'⟩
      · exact .inl (same.mpr busy)
      · exact .inr (.inl (Nat.add_pos_left resolved _))
      · exact .inr (.inr ⟨by rw [quiet', quiet], same.trans same'⟩)

theorem Effect.mono {Q : HandlerTask → Prop} (a : Effect t P h h') (le : ∀ task, P task → Q task) :
    Effect t Q h h' := by
  obtain ⟨new, eq, kind, turn⟩ := a.queues
  exact ⟨a.toSameContext, new, eq, fun task mem => le task (kind task mem), turn⟩

/-- Nothing is queued. -/
theorem Effect.still (context : SameContext h h') (inbox : h'.inbox = h.inbox)
    (same : h'.inConflict t ↔ h.inConflict t) : Effect t P h h' :=
  ⟨context, [], .nothing inbox same⟩

theorem inConflict_setStateCounter (h : Handler) (topic : String) (n : Nat) :
    (h.setStateCounter topic n).inConflict t ↔ h.inConflict t := by
  unfold inConflict setStateCounter
  cases h.state with
  | none => simp
  | some state => simp

theorem effect_setStateCounter (h : Handler) (topic : String) (n : Nat) :
    Effect t P h (h.setStateCounter topic n) :=
  .still (silent_setStateCounter h topic n).toSameContext rfl (inConflict_setStateCounter h topic n)

theorem inConflict_enqueue {listed : Bool} (h : Handler) (type : HandlerEventType) (topic : String)
    (message : Option DMesgPb) (notifyObserver : Bool) :
    (h.enqueueHandlerEvent listed type topic message notifyObserver).inConflict t ↔
      h.inConflict t := by
  unfold inConflict enqueueHandlerEvent
  split
  · exact .rfl
  · split <;> exact .rfl

/-- The event that is queued for a listed handler. -/
theorem inbox_enqueue {state : HandlerState} (present : h.state = some state)
    (type : HandlerEventType) (topic : String) (message : Option DMesgPb) (notifyObserver : Bool) :
    (h.enqueueHandlerEvent true type topic message notifyObserver).inbox = h.inbox ++ [.event
      ⟨type, topic, h.counterOf topic, state.conflictGeneration, message⟩ notifyObserver] := by
  unfold enqueueHandlerEvent counterOf
  rw [present]
  rfl

/-- The event that is queued with a change of the record. -/
theorem inbox_replace {state state' : HandlerState} (present : h.state = some state)
    (same : state'.topicRunningCounter = state.topicRunningCounter) (type : HandlerEventType)
    (topic : String) (message : Option DMesgPb) (notifyObserver : Bool) :
    (enqueueHandlerEvent { h with state := some state' } true type topic message
      notifyObserver).inbox = h.inbox ++ [.event
        ⟨type, topic, h.counterOf topic, state'.conflictGeneration, message⟩ notifyObserver] := by
  unfold enqueueHandlerEvent counterOf
  rw [present]
  simp [same]

theorem effect_throw (h : Handler) (m : DMesgPb)
    (kind : ∀ generation notifyObserver, P (.event
      ⟨.kConflictEntered, m.topic, h.counterOf m.topic, generation, some m⟩ notifyObserver)) :
    Effect t P h (h.throwHandlerConflict true m) := by
  refine ⟨(silent_throw h m).toSameContext, ?_⟩
  unfold throwHandlerConflict
  split
  · exact ⟨[], .nothing rfl .rfl⟩
  · next state present =>
    refine ⟨_, inbox_replace present ?_ _ _ _ _, ?_, ?_⟩
    · rfl
    · intro task mem
      cases List.mem_singleton.mp mem
      exact kind _ _
    · rw [inConflict_enqueue]
      by_cases same : t = m.topic
      · exact .inl ⟨_, rfl, (mem_insertTopic _ _ _).mpr (.inl same)⟩
      · refine .inr (.inr ⟨?_, ?_⟩)
        · simp [HandlerTask.resolves]
        · unfold inConflict
          rw [present]
          simp [mem_insertTopic, same]

theorem effect_resolveTopic (h : Handler) (topic : String) (message : Option DMesgPb)
    (kind : ∀ generation notifyObserver, P (.event
      ⟨.kConflictResolved, topic, h.counterOf topic, generation, message⟩ notifyObserver)) :
    Effect t P h (h.resolveTopicConflict true topic message) := by
  refine ⟨(silent_resolveTopic h topic message).toSameContext, ?_⟩
  unfold resolveTopicConflict
  split
  · exact ⟨[], .nothing rfl .rfl⟩
  · next state present =>
    have others : t ≠ topic → ∀ state' : HandlerState,
        state'.topicInConflict = state.topicInConflict.erase topic →
        (inConflict { h with state := some state' } t ↔ h.inConflict t) := fun other state' eq => by
      unfold inConflict
      rw [present]
      simp [eq, List.mem_erase_of_ne other]
    simp only
    split
    · refine ⟨_, inbox_replace present ?_ _ _ _ _, ?_, ?_⟩
      · rfl
      · intro task mem
        cases List.mem_singleton.mp mem
        exact kind _ _
      · rw [inConflict_enqueue]
        by_cases same : t = topic
        · subst same
          by_cases busy : t ∈ state.topicInConflict
          · exact .inr (.inl (by simp [HandlerTask.resolves, busy]))
          · refine .inr (.inr ⟨by simp [HandlerTask.resolves, busy], ?_⟩)
            unfold inConflict
            rw [present]
            simp [List.erase_of_not_mem busy]
        · exact .inr (.inr ⟨by simp [HandlerTask.resolves, Ne.symm same], others same _ rfl⟩)
    · next idle =>
      have quiet : topic ∉ state.topicInConflict := fun busy => idle (by simp [busy])
      refine ⟨[], .nothing rfl ?_⟩
      unfold inConflict
      rw [present]
      simp [List.erase_of_not_mem quiet]

theorem effect_resolve (h : Handler) (topic : String) (message : Option DMesgPb)
    (kind : ∀ topic generation notifyObserver, P (.event
      ⟨.kConflictResolved, topic, h.counterOf topic, generation, message⟩ notifyObserver)) :
    Effect t P h (h.resolveHandlerConflict true topic message) := by
  have all : ∀ (topics : List String) (h' : Handler), h'.counterOf = h.counterOf → Effect t P h'
      (topics.foldl (fun h t => h.resolveTopicConflict true t message) h') := by
    intro topics
    induction topics with
    | nil => exact fun h' _ => .refl h'
    | cons topic topics ih =>
      intro h' eq
      refine (effect_resolveTopic h' topic message ?_).trans (ih _ ?_)
      · rw [eq]
        exact kind topic
      · rw [counterOf_resolveTopic, eq]
  unfold resolveHandlerConflict
  split
  · exact .refl h
  · split
    · exact all _ h rfl
    · exact effect_resolveTopic h topic message (kind topic)

/-- A task delivers nothing on the topic, and brings a counter up to a bound. -/
def Quiet (t : String) (g : Nat) (task : HandlerTask) : Prop :=
  task.messageOn t = none ∧ task.counterOn t ≤ g

variable {g : Nat}

theorem quiet_resolved (bound : h.counterOf t ≤ g) (topic : String) (generation : UInt64)
    (message : Option DMesgPb) (notifyObserver : Bool) : Quiet t g (.event
      ⟨.kConflictResolved, topic, h.counterOf topic, generation, message⟩ notifyObserver) := by
  refine ⟨by simp [HandlerTask.messageOn], ?_⟩
  unfold HandlerTask.counterOn
  simp only
  split
  · next same => exact same.2 ▸ bound
  · exact Nat.zero_le g

/-- The record follows a message, and its conflicts are over. -/
def raised (h : Handler) (m : DMesgPb) : Handler :=
  (h.setStateCounter m.topic m.runningCounter).resolveHandlerConflict true m.topic (some m)

def handedOver (h : Handler) (m : DMesgPb) : Handler :=
  let h := h.enqueueHandlerEvent true .kMessage m.topic (some m) true
  { h with delivered := h.delivered ++ [m] }

theorem notify_cases (h : Handler) (m : DMesgPb) :
    h.notify spec true m = h ∨
      m.conflict = true ∧ h.notify spec true m = h.throwHandlerConflict true m ∨
      m.conflict = false ∧ h.state.isSome ∧
        (h.notify spec true m = h.raised m ∨ h.notify spec true m = (h.raised m).handedOver m) := by
  unfold notify
  split
  · exact .inl rfl
  · next present =>
    split
    · next marked =>
      split
      · exact .inr (.inl ⟨marked, rfl⟩)
      · exact .inl rfl
    · next unmarked =>
      have turn : m.conflict = false ∧ h.state.isSome := by simpa [present] using unmarked
      split
      · split
        · exact .inr (.inr ⟨turn.1, turn.2, .inl rfl⟩)
        · split
          · split
            · exact .inr (.inr ⟨turn.1, turn.2, .inr rfl⟩)
            · exact .inl rfl
          · exact .inl rfl
      · exact .inl rfl

/-- The events of a resolution bring the counters of the record, and the message. -/
theorem effect_raised (h : Handler) (m : DMesgPb) (kind : ∀ topic generation notifyObserver,
    P (.event ⟨.kConflictResolved, topic, (h.setStateCounter m.topic m.runningCounter).counterOf
      topic, generation, some m⟩ notifyObserver)) : Effect t P h (h.raised m) :=
  (effect_setStateCounter h m.topic m.runningCounter).trans (effect_resolve _ _ _ kind)

theorem effect_handedOver {state : HandlerState} (present : h.state = some state) (m : DMesgPb)
    (kind : ∀ generation, P (.event
      ⟨.kMessage, m.topic, h.counterOf m.topic, generation, some m⟩ true)) :
    Effect t P h (h.handedOver m) := by
  have context : SameContext h (h.enqueueHandlerEvent true .kMessage m.topic (some m) true) :=
    (silent_enqueue h _ _ _ _).toSameContext
  refine ⟨{ context with idle := fun none => by simp [none] at present }, _,
    inbox_enqueue present _ _ _ _, fun task mem => ?_, .inr (.inr ⟨?_, ?_⟩)⟩
  · cases List.mem_singleton.mp mem
    exact kind _
  · simp [HandlerTask.resolves]
  · exact inConflict_enqueue h .kMessage m.topic (some m) true

theorem counterOf_raised (h : Handler) (m : DMesgPb) :
    (h.raised m).counterOf = (h.setStateCounter m.topic m.runningCounter).counterOf :=
  counterOf_resolve _ _ _

/-- A message that is marked, of another topic, or replayed. -/
theorem effect_receive (bound : h.counterOf t ≤ g)
    (apart : m.conflict = true ∨ m.topic ≠ t ∨ m.runningCounter ≤ g ∧ m.playback = true) :
    Effect t (Quiet t g) h (h.receive spec true m) := by
  unfold receive
  split
  · rcases @notify_cases spec h m with same | ⟨-, eq⟩ | ⟨unmarked, present, turn⟩
    · rw [same]
      exact .refl h
    · rw [eq]
      refine effect_throw h m fun _ _ => ⟨?_, ?_⟩
      · simp [HandlerTask.messageOn]
      · simp [HandlerTask.counterOn]
    · have apart := apart.resolve_left (by simp [unmarked])
      have counted : (h.setStateCounter m.topic m.runningCounter).counterOf t ≤ g :=
        counterOf_setStateCounter bound fun same => (apart.resolve_left fun other => other same).1
      have raised : Effect t (Quiet t g) h (h.raised m) := effect_raised h m fun topic generation =>
        quiet_resolved counted topic generation (some m)
      rcases turn with eq | eq
      · exact eq ▸ raised
      · rw [eq]
        obtain ⟨state, present⟩ := Option.isSome_iff_exists.mp (raised.isSome.trans present)
        refine raised.trans (effect_handedOver present m fun generation => ⟨?_, ?_⟩)
        · rcases apart with other | ⟨-, played⟩
          · simp [HandlerTask.messageOn, other]
          · simp [HandlerTask.messageOn, played]
        · unfold HandlerTask.counterOn
          simp only
          split
          · next same =>
            rw [counterOf_raised]
            exact (congrArg _ same.2).trans_le counted
          · exact Nat.zero_le g
  · exact .refl h

/-- A handler receives no message of its own. -/
theorem receive_own (h : Handler) (source : m.sourceWriteHandlerIdentifier = spec.name)
    (type : m.type ≠ .sys) (unforced : m.force = false) : h.receive spec true m = h := by
  unfold receive
  split
  · unfold notify
    split
    · rfl
    · simp [source, type, unforced]
  · rfl

/-- An accepted message of another one is handed over. -/
theorem receive_other {state : HandlerState} (present : h.state = some state)
    (source : m.sourceWriteHandlerIdentifier ≠ spec.name) (type : m.type ≠ .sys)
    (unforced : m.force = false) (unmarked : m.conflict = false) (live : m.playback = false)
    (subscribes : spec.subscribes m.topic = true) (filter : spec.filterFn m = true)
    (ahead : h.counterOf m.topic < m.runningCounter) :
    h.receive spec true m = (h.raised m).handedOver m := by
  have counter : (state.topicRunningCounter m.topic).getD 0 < m.runningCounter := by
    unfold counterOf at ahead
    rw [present] at ahead
    exact ahead
  unfold receive accepts notify raised handedOver
  rw [present]
  simp [source, type, unforced, unmarked, live, subscribes, filter, counter]

theorem inConflict_throw {state : HandlerState} (present : h.state = some state) (m : DMesgPb) :
    (h.throwHandlerConflict true m).inConflict m.topic := by
  unfold throwHandlerConflict
  rw [present]
  simp only
  rw [inConflict_enqueue]
  exact ⟨_, rfl, (mem_insertTopic _ _ _).mpr (.inl rfl)⟩

-- ---------------------------------------------------------------------------
-- A handler that follows a topic
-- ---------------------------------------------------------------------------

/-- Numbers on their way to the publisher: none is ahead of it by more than the
ones before it make up for, and the next one will not be either. -/
def Paced (next : Nat) : Nat → List Nat → Prop
  | g, [] => next ≤ g
  | g, n :: ns => n ≤ g + 1 ∧ Paced next (max g n) ns

theorem Paced.mono {g' next : Nat} {ns : List Nat} (p : Paced next g ns) (le : g ≤ g') :
    Paced next g' ns := by
  induction ns generalizing g g' with
  | nil => exact Nat.le_trans p le
  | cons n ns ih => exact ⟨by have := p.1; omega, ih p.2 (by omega)⟩

theorem Paced.raise {next n : Nat} {ns : List Nat} (p : Paced next g ns) (le : n ≤ g) :
    Paced (max next n) g ns := by
  induction ns generalizing g with
  | nil => exact Nat.max_le.mpr ⟨p, le⟩
  | cons m ns ih => exact ⟨p.1, ih p.2 (by omega)⟩

theorem Paced.concat {next : Nat} {ns : List Nat} (p : Paced next g ns) :
    Paced (next + 1) g (ns ++ [next + 1]) := by
  induction ns generalizing g with
  | nil => exact ⟨Nat.succ_le_succ p, Nat.le_max_right _ _⟩
  | cons n ns ih => exact ⟨p.1, ih p.2⟩

theorem Paced.anti {next next' : Nat} {ns : List Nat} (p : Paced next g ns) (le : next' ≤ next) :
    Paced next' g ns := by
  induction ns generalizing g with
  | nil => exact Nat.le_trans le p
  | cons n ns ih => exact ⟨p.1, ih p.2⟩

/-- What running a task does to the counter of the topic. -/
theorem counter_run (h : Handler) (task : HandlerTask) :
    (h.run task).mirror.topicRunningCounter t ≤
      max (h.mirror.topicRunningCounter t) (task.counterOn t) := by
  cases task with
  | setAfterInitialPlayback => exact Nat.le_max_left _ _
  | event e notifyObserver =>
    simp only [Handler.run, runEvent, Function.update_apply, HandlerTask.counterOn]
    split
    · next same =>
      subst same
      cases type : e.type <;> simp only [eventCounter, type] <;> (try split) <;> simp
    · exact Nat.le_max_left _ _

theorem seen_run (h : Handler) (task : HandlerTask) : h.seen ⊆ (h.run task).seen := by
  cases task with
  | setAfterInitialPlayback => exact List.Subset.refl _
  | event e notifyObserver =>
    simp only [Handler.run, runEvent]
    split
    · exact List.Subset.refl _
    · exact List.subset_append_left _ _

theorem carries_run (h : Handler) {task : HandlerTask} (carries : task.carries m) :
    m ∈ (h.run task).seen := by
  cases task with
  | setAfterInitialPlayback => cases carries
  | event e notifyObserver =>
    simp only [HandlerTask.carries, decide_eq_true_eq] at carries
    simp [Handler.run, runEvent, carries.1, carries.2]

theorem carries_of_messageOn {task : HandlerTask} (eq : task.messageOn t = some m) :
    task.carries m := by
  cases task with
  | setAfterInitialPlayback => cases eq
  | event e notifyObserver =>
    simp only [HandlerTask.messageOn] at eq
    split at eq
    · next kind => simp [HandlerTask.carries, kind.1, (Option.filter_eq_some_iff.mp eq).1]
    · cases eq

theorem resolvedTopic_run (h : Handler) (task : HandlerTask) :
    resolvedTopic t (h.run task).observed =
      resolvedTopic t h.observed + [task].countP (·.resolves t) := by
  cases task with
  | setAfterInitialPlayback => rfl
  | event e notifyObserver =>
    cases notifyObserver <;>
      simp [Handler.run, runEvent, resolvedTopic, HandlerTask.resolves, List.countP_cons,
        List.countP_append]

/-- The last conflict is over, and every write on its way knew. -/
def Settled (t : String) (own : List (Nat × Stamp)) (h : Handler) : Prop :=
  ¬ h.inConflict t ∧ ∀ e ∈ own, e.2.resolved = h.resolutions t

/-- A handler's own writes of a topic in the publisher's queue, the messages of
others that were accepted, and what of them the context has seen. -/
structure Abreast (t : String) (g : Nat) (own : List (Nat × Stamp)) (others : List DMesgPb)
    (h : Handler) : Prop where
  paced : Paced (h.mirror.topicRunningCounter t) g (own.map Prod.fst)
  counters : ∀ task ∈ h.inbox, task.counterOn t ≤ g
  ordered : Ordered t h.inbox
  brought : ∀ x ∈ others, x.runningCounter ≤ g ∧
    (x ∈ h.seen ∨ ∃ task ∈ h.inbox, task.messageOn t = some x)
  nested : own.Pairwise fun a b => a.2.seen ⊆ b.2.seen ∧ a.2.resolved ≤ b.2.resolved
  known : ∀ e ∈ own, e.2.seen ⊆ h.seen ∧ e.2.resolved ≤ resolvedTopic t h.observed
  -- The first write is out of date if it missed a message.
  first : h.Settled t own → ∀ e ∈ own.head?, ∀ x ∈ others,
    x ∈ e.2.seen ∨ e.1 ≤ x.runningCounter
  -- A write that is made now will be, too.
  upcoming : h.Settled t own → own = [] → ∀ x ∈ newest t h.inbox, x ∈ others →
    x ∈ h.seen ∨ h.mirror.topicRunningCounter t < x.runningCounter

namespace Abreast

variable {own : List (Nat × Stamp)} {others : List DMesgPb} {e : Nat × Stamp}

theorem new (inbox : h.inbox = []) (counter : h.mirror.topicRunningCounter t = 0) :
    Abreast t g [] [] h where
  paced := counter.trans_le (Nat.zero_le g)
  counters task mem := by rw [inbox] at mem; cases mem
  ordered := inbox ▸ .nil
  brought := nofun
  nested := .nil
  known := nofun
  first _ := nofun
  upcoming _ _ := fun _ _ => nofun

/-- The publisher's counter grows. -/
theorem mono {g' : Nat} (a : Abreast t g own others h) (le : g ≤ g') :
    Abreast t g' own others h :=
  { a with
    paced := a.paced.mono le
    counters := fun task mem => (a.counters task mem).trans le
    brought := fun x mem => ⟨(a.brought x mem).1.trans le, (a.brought x mem).2⟩ }

/-- The publisher works on the handler without delivering on the topic. -/
theorem effect (a : Abreast t g own others h) (effect : Effect t (Quiet t g) h h') :
    Abreast t g own others h' := by
  obtain ⟨new, inbox, quiet, turn⟩ := effect.queues
  have resolutions : h'.resolutions t = h.resolutions t + new.countP (·.resolves t) := by
    unfold resolutions
    rw [effect.observed, inbox, List.countP_append, Nat.add_assoc]
  have settled : h'.Settled t own → h.Settled t own ∨ own = [] ∧ newest t h'.inbox = [] := by
    rintro ⟨free, resolved⟩
    rcases turn with busy | some | ⟨none, same⟩
    · exact absurd busy free
    · refine .inr ⟨List.eq_nil_iff_forall_not_mem.mpr fun e mem => ?_, ?_⟩
      · have known := (a.known e mem).2
        have eq := resolved e mem
        have le : resolvedTopic t h.observed ≤ h.resolutions t := Nat.le_add_right _ _
        omega
      · rw [inbox]
        exact newest_resolved (fun task mem => (quiet task mem).1) some
    · refine .inl ⟨fun busy => free (same.mpr busy), fun e mem => ?_⟩
      rw [resolved e mem, resolutions, none, Nat.add_zero]
  refine ⟨effect.mirror ▸ a.paced, fun task mem => ?_, ?_, fun x mem => ?_, a.nested, ?_,
    fun now => ?_, fun now none x mem other => ?_⟩
  · rw [inbox] at mem
    exact (List.mem_append.mp mem).elim (a.counters task) fun mem => (quiet task mem).2
  · rw [inbox]
    refine List.pairwise_append.mpr ⟨a.ordered, ?_, fun b _ task mem m eq => ?_⟩
    · refine List.pairwise_of_forall_mem_list fun b _ task mem m eq => ?_
      rw [(quiet task mem).1] at eq
      cases eq
    · rw [(quiet task mem).1] at eq
      cases eq
  · rw [effect.seen, inbox]
    refine ⟨(a.brought x mem).1, (a.brought x mem).2.imp_right ?_⟩
    rintro ⟨task, mem, eq⟩
    exact ⟨task, List.mem_append_left _ mem, eq⟩
  · rw [effect.seen, effect.observed]
    exact a.known
  · rcases settled now with now | ⟨rfl, -⟩
    · exact a.first now
    · nofun
  · rcases settled now with now | ⟨-, empty⟩
    · rw [effect.seen, effect.mirror]
      rw [inbox] at mem
      exact a.upcoming now none x (newest_plain (fun task mem => (quiet task mem).1) mem) other
    · rw [empty] at mem
      cases mem

/-- Another one's message is accepted and handed over. -/
theorem deliver (a : Abreast t g own others h) {x : DMesgPb} {e : HandlerEvent}
    (effect : Effect t (fun task => Quiet t (g + 1) task ∧ task.carries x) h h')
    (context : SameContext h' h'') (same : h''.inConflict t ↔ h'.inConflict t)
    (inbox : h''.inbox = h'.inbox ++ [.event e true]) (type : e.type = .kMessage)
    (topic : e.topic = t) (message : e.message = some x) (live : x.playback = false)
    (counter : e.handlerRunningCounter ≤ g + 1) (number : x.runningCounter = g + 1) :
    Abreast t (g + 1) own (others ++ [x]) h'' := by
  have task : HandlerTask.messageOn t (.event e true) = some x := by
    simp [HandlerTask.messageOn, type, topic, message, live]
  have quiet : HandlerTask.resolves t (.event e true) = false := by
    simp [HandlerTask.resolves, type]
  have before := (a.mono (Nat.le_succ g)).effect (effect.mono fun _ h => h.1)
  have resolutions : h''.resolutions t = h'.resolutions t := by
    unfold Handler.resolutions
    rw [context.observed, inbox, List.countP_append]
    simp [quiet]
  have settled : h''.Settled t own → h'.Settled t own := fun ⟨free, resolved⟩ =>
    ⟨fun busy => free (same.mpr busy), fun e mem => (resolved e mem).trans resolutions⟩
  refine ⟨context.mirror ▸ before.paced, fun task mem => ?_, ?_, fun y mem => ?_, before.nested, ?_,
    fun now e head y mem => ?_, fun now none y mem other => ?_⟩
  · rw [inbox] at mem
    rcases List.mem_append.mp mem with mem | mem
    · exact before.counters task mem
    · cases List.mem_singleton.mp mem
      simpa [HandlerTask.counterOn, type, topic] using counter
  · rw [inbox]
    refine List.pairwise_append.mpr ⟨before.ordered, List.pairwise_singleton _ _,
      fun b mem c last y eq => ?_⟩
    cases List.mem_singleton.mp last
    cases task.symm.trans eq
    obtain ⟨new, queued, kind, -⟩ := effect.queues
    rw [queued] at mem
    rcases List.mem_append.mp mem with mem | mem
    · exact .inl (by have := a.counters b mem; omega)
    · exact .inr (kind b mem).2
  · rw [context.seen, inbox]
    rcases List.mem_append.mp mem with mem | mem
    · refine ⟨(before.brought y mem).1, (before.brought y mem).2.imp_right ?_⟩
      rintro ⟨b, mem, eq⟩
      exact ⟨b, List.mem_append_left _ mem, eq⟩
    · cases List.mem_singleton.mp mem
      exact ⟨number.le, .inr ⟨_, List.mem_append_right _ List.mem_cons_self, task⟩⟩
  · rw [context.seen, context.observed]
    exact before.known
  · rcases List.mem_append.mp mem with mem | mem
    · exact before.first (settled now) e head y mem
    · cases List.mem_singleton.mp mem
      refine .inr ?_
      cases own with
      | nil => cases head
      | cons _ _ =>
        cases head
        exact a.paced.1.trans number.ge
  · rw [inbox, newest_concat quiet, task] at mem
    rw [context.seen, context.mirror]
    rcases List.mem_append.mp mem with mem | mem
    · rcases List.mem_append.mp other with other | other
      · exact before.upcoming (settled now) none y mem other
      · cases List.mem_singleton.mp other
        subst none
        have paced : h.mirror.topicRunningCounter t ≤ g := a.paced
        rw [effect.mirror]
        exact .inr (by omega)
    · cases List.mem_singleton.mp mem
      subst none
      have paced : h.mirror.topicRunningCounter t ≤ g := a.paced
      rw [effect.mirror]
      exact .inr (by omega)

/-- Nothing that concerns the topic changed. -/
theorem congr (a : Abreast t g own others h)
    (counter : h'.mirror.topicRunningCounter t = h.mirror.topicRunningCounter t)
    (inbox : h'.inbox = h.inbox) (seen : h'.seen = h.seen) (observed : h'.observed = h.observed)
    (state : h'.state = h.state) : Abreast t g own others h' := by
  have settled : h'.Settled t own → h.Settled t own := by
    unfold Settled inConflict resolutions
    rw [state, inbox, observed]
    exact id
  exact ⟨counter ▸ a.paced, inbox ▸ a.counters, inbox ▸ a.ordered,
    by rw [seen, inbox]; exact a.brought, a.nested, by rw [seen, observed]; exact a.known,
    fun now => a.first (settled now),
    by rw [seen, inbox, counter]; exact fun now => a.upcoming (settled now)⟩

/-- The context runs a task. -/
theorem run (a : Abreast t g own others h) {task : HandlerTask} {inbox : List HandlerTask}
    (queued : h.inbox = task :: inbox) : Abreast t g own others ({ h with inbox }.run task) := by
  have left : ({ h with inbox }.run task).inbox = inbox := by cases task <;> rfl
  have state : ({ h with inbox }.run task).state = h.state := by cases task <;> rfl
  have seen : h.seen ⊆ ({ h with inbox }.run task).seen := seen_run { h with inbox } task
  have counter := counter_run (t := t) { h with inbox } task
  have ordered := List.pairwise_cons.mp (queued ▸ a.ordered)
  have resolved := resolvedTopic_run (t := t) { h with inbox } task
  have head : task.counterOn t ≤ g := a.counters task (queued ▸ List.mem_cons_self)
  have settled : ({ h with inbox }.run task).Settled t own → h.Settled t own := by
    have same : ({ h with inbox }.run task).resolutions t = h.resolutions t := by
      have split : (task :: inbox).countP (·.resolves t) =
          [task].countP (·.resolves t) + inbox.countP (·.resolves t) := by
        rw [← List.countP_append]
        rfl
      unfold resolutions
      rw [left, queued, resolved, split, Nat.add_assoc]
    unfold Settled inConflict
    rw [state, same]
    exact id
  refine ⟨(a.paced.raise head).anti counter, fun b mem => ?_, ?_, fun x mem => ?_, a.nested,
    fun e mem => ⟨fun _ mem' => seen ((a.known e mem).1 mem'), ?_⟩, fun now => a.first (settled now),
    fun now none x mem other => ?_⟩
  · rw [left] at mem
    exact a.counters b (queued ▸ List.mem_cons_of_mem _ mem)
  · rw [left]
    exact ordered.2
  · refine ⟨(a.brought x mem).1, ?_⟩
    rw [left]
    rcases (a.brought x mem).2 with old | ⟨b, mem, eq⟩
    · exact .inl (seen old)
    · rw [queued] at mem
      rcases List.mem_cons.mp mem with rfl | mem
      · exact .inl (carries_run _ (carries_of_messageOn eq))
      · exact .inr ⟨b, mem, eq⟩
  · rw [resolved]
    exact (a.known e mem).2.trans (Nat.le_add_right _ _)
  · rw [left] at mem
    obtain ⟨b, later, eq⟩ := mem_of_newest mem
    have before := a.upcoming (settled now) none x (queued ▸ newest_tail task inbox mem) other
    rcases before with old | before
    · exact .inl (seen old)
    · rcases ordered.1 b later x eq with behind | carries
      · exact .inr (counter.trans_lt (Nat.max_lt.mpr ⟨before, behind⟩))
      · exact .inl (carries_run _ carries)

/-- The context writes on the topic. -/
theorem stamp (a : Abreast t g own others h)
    (counter : h'.mirror.topicRunningCounter t = h.mirror.topicRunningCounter t + 1)
    (inbox : h'.inbox = h.inbox) (seen : h'.seen = h.seen) (observed : h'.observed = h.observed)
    (state : h'.state = h.state) :
    Abreast t g (own ++ [(h.mirror.topicRunningCounter t + 1,
      ⟨h.seen, resolvedTopic t h.observed⟩)]) others h' := by
  have resolutions : h'.resolutions t = h.resolutions t := by
    unfold Handler.resolutions
    rw [inbox, observed]
  have conflict : h'.inConflict t ↔ h.inConflict t := by
    unfold inConflict
    rw [state]
  refine ⟨?_, inbox ▸ a.counters, inbox ▸ a.ordered, ?_, ?_, fun b mem => ?_, ?_, fun _ none => ?_⟩
  · rw [counter, List.map_append]
    exact a.paced.concat
  · rw [seen, inbox]
    exact a.brought
  · exact List.pairwise_append.mpr ⟨a.nested, List.pairwise_singleton _ _, fun b mem c last => by
      cases List.mem_singleton.mp last
      exact a.known b mem⟩
  · rw [seen, observed]
    rcases List.mem_append.mp mem with mem | mem
    · exact a.known b mem
    · cases List.mem_singleton.mp mem
      exact ⟨List.Subset.refl _, le_rfl⟩
  · rintro ⟨free, resolved⟩ b head x mem
    rw [conflict] at free
    rw [resolutions] at resolved
    cases own with
    | cons c own =>
      exact a.first ⟨free, fun b mem => resolved b (List.mem_append_left _ mem)⟩ b head x mem
    | nil =>
      -- The first write of the topic: every resolution has been run.
      cases head
      have caught : resolvedTopic t h.observed = h.resolutions t := resolved _ List.mem_cons_self
      have settled : h.Settled t [] := ⟨free, nofun⟩
      rcases (a.brought x mem).2 with old | ⟨task, queued, eq⟩
      · exact .inl old
      · refine (a.upcoming settled rfl x (newest_of_mem ?_ queued eq) mem).imp_right ?_
        · unfold Handler.resolutions at caught
          omega
        · exact Nat.succ_le_of_lt
  · exact absurd none (by simp)

/-- The publisher refuses the first write. -/
theorem refuse (a : Abreast t g (e :: own) others h) (le : e.1 ≤ g) (busy : h.inConflict t) :
    Abreast t g own others h where
  paced := by
    have paced := a.paced.2
    rwa [Nat.max_eq_left le] at paced
  counters := a.counters
  ordered := a.ordered
  brought := a.brought
  nested := a.nested.of_cons
  known e mem := a.known e (List.mem_cons_of_mem _ mem)
  first now := absurd busy now.1
  upcoming now := absurd busy now.1

/-- The publisher accepts the first write, which knew. -/
theorem accept (a : Abreast t g (e :: own) others h) (eq : e.1 = g + 1) (free : ¬ h.inConflict t)
    (informed : e.2.resolved = h.resolutions t) :
    (∀ x ∈ others, x ∈ e.2.seen) ∧ Abreast t (g + 1) own others h := by
  have nested := List.pairwise_cons.mp a.nested
  have settled : h.Settled t (e :: own) := by
    refine ⟨free, fun b mem => ?_⟩
    rcases List.mem_cons.mp mem with rfl | later
    · exact informed
    · have ge := (nested.1 b later).2
      have known := (a.known b mem).2
      have le : resolvedTopic t h.observed ≤ h.resolutions t := Nat.le_add_right _ _
      omega
  have seen : ∀ x ∈ others, x ∈ e.2.seen := fun x mem => by
    refine (a.first settled e rfl x mem).resolve_right fun le => ?_
    have := (a.brought x mem).1
    omega
  have grown := a.mono (Nat.le_succ g)
  refine ⟨seen, ⟨?_, grown.counters, a.ordered, grown.brought, nested.2,
    fun b mem => a.known b (List.mem_cons_of_mem _ mem), fun _ b head x mem => ?_,
    fun _ _ x _ mem => ?_⟩⟩
  · have paced := a.paced.2
    rwa [Nat.max_eq_right (by omega), eq] at paced
  · exact .inl ((nested.1 b (List.mem_of_mem_head? head)).1 (seen x mem))
  · exact .inl ((a.known e List.mem_cons_self).1 (seen x mem))

end Abreast

end Handler
end Dmn.DMesg
