import Dmn.DMesg.Serialization

/-!
# Initial playback

The registration task of a new handler replays the cached message of every
topic. The copies keep the flags that the cache holds, and a forced message
only resolves conflicts: it is the one kind that the new handler is not handed.
-/

namespace Dmn.DMesg

open Dmn.Lib

namespace Handler

variable {h : Handler} {spec : HandlerSpec} {m : DMesgPb} {counter : String → Option Nat}

/-- A registered handler without conflicts, and what the publisher counts for it. -/
def Counts (h : Handler) (counter : String → Option Nat) : Prop :=
  ∃ state, h.state = some state ∧ state.topicInConflict = [] ∧
    state.topicRunningCounter = counter

theorem Counts.enqueue (c : h.Counts counter) (listed : Bool) (type : HandlerEventType)
    (topic : String) (message : Option DMesgPb) (notifyObserver : Bool) :
    (h.enqueueHandlerEvent listed type topic message notifyObserver).Counts counter := by
  obtain ⟨state, present, c⟩ := c
  refine ⟨state, ?_, c⟩
  unfold enqueueHandlerEvent
  rw [present]
  cases listed
  · exact present
  · rfl

theorem Counts.setStateCounter (c : h.Counts counter) (topic : String) (n : Nat) :
    (h.setStateCounter topic n).Counts (Function.update counter topic (some n)) := by
  obtain ⟨state, present, quiet, rfl⟩ := c
  refine ⟨{ state with
    topicRunningCounter := Function.update state.topicRunningCounter topic (some n) }, ?_, quiet,
    rfl⟩
  unfold Handler.setStateCounter
  rw [present]
  rfl

/-- There is nothing to resolve. -/
theorem Counts.resolve (c : h.Counts counter) (listed : Bool) (topic : String)
    (message : Option DMesgPb) : (h.resolveHandlerConflict listed topic message).Counts counter := by
  obtain ⟨state, present, quiet, eq⟩ := c
  unfold resolveHandlerConflict
  rw [present]
  simp only
  split
  · rw [quiet]
    exact ⟨state, present, quiet, eq⟩
  · unfold resolveTopicConflict
    rw [present]
    simp only
    have same : ∀ state' : HandlerState, state'.topicInConflict = [] →
        state'.topicRunningCounter = counter →
        Counts { h with state := some state' } counter := fun state' h h' => ⟨state', rfl, h, h'⟩
    split
    · refine Counts.enqueue (same _ ?_ ?_) _ _ _ _ _
      · simp [quiet]
      · exact eq
    · refine same _ ?_ ?_
      · simp [quiet]
      · exact eq

/-- A replayed copy is handed over. -/
def handsOver (spec : HandlerSpec) (counter : String → Option Nat) (m : DMesgPb) : Prop :=
  spec.subscribes m.topic = true ∧ m.runningCounter > (counter m.topic).getD 0 ∧
    m.force = false ∧ (m.sourceWriteHandlerIdentifier ≠ spec.name ∨ m.type = .sys) ∧
    (m.type ≠ .sys ∨ spec.includeDMesgPbSys = true) ∧ spec.filterFn m = true

instance (spec : HandlerSpec) (counter : String → Option Nat) (m : DMesgPb) :
    Decidable (handsOver spec counter m) := by
  unfold handsOver
  infer_instance

/-- What `notify` hands over, by the publisher's counter of the handler. -/
theorem notify_delivered {state : HandlerState} {listed : Bool} (present : h.state = some state)
    (subscribes : spec.subscribes m.topic = true) (conflict : m.conflict = false) :
    (h.notify spec listed m).delivered =
      h.delivered ++ if handsOver spec state.topicRunningCounter m then [m] else [] := by
  have silent : Silent h ((h.setStateCounter m.topic m.runningCounter).resolveHandlerConflict
      listed m.topic (some m)) :=
    (silent_setStateCounter h m.topic m.runningCounter).trans (silent_resolve _ _ _)
  unfold notify
  rw [present]
  simp only [conflict, Bool.false_eq_true, if_false, subscribes, true_and]
  split
  · next late =>
    split
    · next force =>
      have kept : ¬ handsOver spec state.topicRunningCounter m := fun hands => by
        rw [hands.2.2.1] at force
        cases force
      rw [silent.delivered, if_neg kept, List.append_nil]
    · next force =>
      split
      · next source =>
        split
        · next wanted =>
          have hands : handsOver spec state.topicRunningCounter m :=
            ⟨subscribes, late.resolve_right force, by simpa using force, source, wanted⟩
          rw [if_pos hands]
          show (enqueueHandlerEvent _ _ _ _ _ _).delivered ++ [m] = _
          rw [(silent_enqueue _ _ _ _ _).delivered, silent.delivered]
        · next unwanted => rw [if_neg fun hands => unwanted hands.2.2.2.2, List.append_nil]
      · next source => rw [if_neg fun hands => source hands.2.2.2.1, List.append_nil]
  · next early => rw [if_neg fun hands => early (.inl hands.2.1), List.append_nil]

theorem receive_delivered {state : HandlerState} {listed : Bool} (present : h.state = some state)
    (accepts : m.playback = false ∨ h.mirror.afterInitialPlayback = false)
    (conflict : m.conflict = false) :
    (h.receive spec listed m).delivered =
      h.delivered ++ if handsOver spec state.topicRunningCounter m then [m] else [] := by
  unfold Handler.receive Handler.accepts
  by_cases subscribes : spec.subscribes m.topic = true
  · rw [if_pos (by rcases accepts with h | h <;> simp [h, subscribes])]
    exact notify_delivered present subscribes conflict
  · rw [if_neg (by simp [subscribes]), if_neg fun hands => subscribes hands.1, List.append_nil]

theorem Counts.notify (c : h.Counts counter) (conflict : m.conflict = false) :
    ∃ counter', (h.notify spec true m).Counts counter' ∧
      ∀ t, t ≠ m.topic → counter' t = counter t := by
  have counted := (c.setStateCounter m.topic m.runningCounter).resolve true m.topic (some m)
  have others : ∀ t, t ≠ m.topic →
      Function.update counter m.topic (some m.runningCounter) t = counter t :=
    fun t other => Function.update_of_ne other _ _
  have same : (∃ counter', h.Counts counter' ∧ ∀ t, t ≠ m.topic → counter' t = counter t) :=
    ⟨counter, c, fun _ _ => rfl⟩
  obtain ⟨state, present, -⟩ := c
  unfold Handler.notify
  rw [present]
  simp only [conflict, Bool.false_eq_true, if_false]
  split
  · split
    · exact ⟨_, counted, others⟩
    · split
      · split
        · obtain ⟨state', present', c'⟩ := counted.enqueue true .kMessage m.topic (some m) true
          exact ⟨_, ⟨state', present', c'⟩, others⟩
        · exact same
      · exact same
  · exact same

theorem Counts.receive (c : h.Counts counter) (conflict : m.conflict = false) :
    ∃ counter', (h.receive spec true m).Counts counter' ∧
      ∀ t, t ≠ m.topic → counter' t = counter t := by
  unfold Handler.receive
  split
  · exact c.notify conflict
  · exact ⟨counter, c, fun _ _ => rfl⟩

end Handler

namespace State

variable {ι : Type} [DecidableEq ι] {specs : ι → HandlerSpec} {s s' : State ι} {m : DMesgPb}

/-- The copy that a replay publishes. -/
def played (m : DMesgPb) : DMesgPb := { m with playback := true }

/-- What the replay of the topics in an order is to one subscriber. -/
def replayTo (spec : HandlerSpec) (last : String → Option DMesgPb) (order : List String)
    (h : Handler) : Handler :=
  order.foldl (fun h t => match last t with
    | none => h
    | some m => h.receive spec true (played m)) h

theorem playback_handler (w : s.Wellformed specs) {i : ι} (subscribed : i ∈ s.subscribers)
    (listed : i ∈ s.handlers) (order : List String) :
    (s.playbackLastTopicDMesgPbInternal specs order).handler i =
      replayTo (specs i) s.topicLastDMesgPb order (s.handler i) := by
  unfold playbackLastTopicDMesgPbInternal replayTo
  induction order generalizing s with
  | nil => rfl
  | cons t order ih =>
    rw [List.foldl_cons, List.foldl_cons]
    cases last : s.topicLastDMesgPb t with
    | none => exact ih w subscribed listed
    | some m =>
      have replays : s.publishInternal specs { m with playback := true } =
          s.notifyAll specs (played m) := publishInternal_replayed (verdict_replayed.mpr rfl)
      have works : Works s (s.notifyAll specs (played m)) := works_notifyAll s (played m)
      simp only [replays]
      rw [ih (w.works works) (by rw [works.shared]; exact subscribed)
        (by rw [works.shared]; exact listed)]
      have next : (s.notifyAll specs (played m)).handler i =
          (s.handler i).receive (specs i) true (played m) := by
        rw [notifyAll_eq w.subscribers]
        simp only [subscribed, if_true]
        rw [State.listed, decide_eq_true listed]
      rw [next, works.shared]

/-- Over the replay a topic is handed over at most once: when its turn comes. -/
theorem replayTo_delivered {spec : HandlerSpec} {last : String → Option DMesgPb}
    {counter : String → Option Nat} {order : List String} {h : Handler} {t : String}
    (single : order.Nodup) (topic : ∀ t m, last t = some m → m.topic = t ∧ m.conflict = false)
    (c : h.Counts counter) (early : h.mirror.afterInitialPlayback = false)
    (unseen : t ∈ order → counter t = none) :
    ofTopic t (replayTo spec last order h).delivered = ofTopic t h.delivered ++
      if t ∈ order then match last t with
        | none => []
        | some m => if Handler.handsOver spec (fun _ => none) (played m) then [played m] else []
      else [] := by
  induction order generalizing h counter with
  | nil => simp [replayTo]
  | cons t' order ih =>
    obtain ⟨absent, rest⟩ := List.nodup_cons.mp single
    have unfolded : replayTo spec last (t' :: order) h = replayTo spec last order
        (match last t' with
          | none => h
          | some m => h.receive spec true (played m)) := rfl
    rw [unfolded]
    cases found : last t' with
    | none =>
      rw [ih rest c early fun mem => unseen (List.mem_cons_of_mem _ mem)]
      congr 1
      by_cases same : t = t'
      · subst same
        simp [absent, found]
      · simp [same]
    | some m =>
      obtain ⟨topic', conflict⟩ := topic t' m found
      obtain ⟨counter', c', others⟩ := c.receive (m := played m) conflict
      have delivered : (h.receive spec true (played m)).delivered = h.delivered ++
          if Handler.handsOver spec counter (played m) then [played m] else [] := by
        obtain ⟨state, present, -, rfl⟩ := c
        exact Handler.receive_delivered present (.inr early) conflict
      have early' : (h.receive spec true (played m)).mirror.afterInitialPlayback = false := by
        rw [(Handler.receive_context h (played m)).mirror]
        exact early
      by_cases same : t = t'
      · subst same
        have fresh : counter m.topic = none := by
          rw [topic']
          exact unseen List.mem_cons_self
        have hands : Handler.handsOver spec counter (played m) ↔
            Handler.handsOver spec (fun _ => none) (played m) := by
          show _ ∧ (played m).runningCounter > (counter m.topic).getD 0 ∧ _ ↔ _
          rw [fresh]
          rfl
        simp only
        rw [ih rest c' early' fun mem => absurd mem absent, if_neg absent, List.append_nil,
          delivered, if_pos List.mem_cons_self, found]
        simp only [hands]
        split
        · simp [ofTopic, played, topic']
        · simp [ofTopic]
      · simp only
        rw [ih rest c' early' fun mem => by
          rw [others t (by rw [show (played m).topic = t' from topic']; exact same)]
          exact unseen (List.mem_cons_of_mem _ mem), delivered]
        have elsewhere : ofTopic t (if Handler.handsOver spec counter (played m) then [played m]
            else []) = [] := by
          split
          · simp [ofTopic, played, topic', Ne.symm same]
          · rfl
        have split : ofTopic t (h.delivered ++ (if Handler.handsOver spec counter (played m) then
            [played m] else [])) = ofTopic t h.delivered := by
          rw [ofTopic, List.filter_append]
          exact (congrArg (_ ++ ·) elsewhere).trans (List.append_nil _)
        rw [split]
        simp [same]

/-- A new handler without filter is handed the cached message of a topic it
subscribes to, once, unless the cached message is a forced one. -/
theorem initialPlayback (run : Reaches (step specs) ({} : State ι) s) {i : ι}
    {order : List String} (registers : s.step specs (.register i order) = some s')
    (unfiltered : ∀ m, (specs i).filterFn m = true) {t : String}
    (subscribes : (specs i).subscribes t = true) (last : s.topicLastDMesgPb t = some m)
    (ordinary : m.type ≠ .sys) (other : m.sourceWriteHandlerIdentifier ≠ (specs i).name) :
    ofTopic t (s'.handler i).delivered = [played m] ↔ m.force = false := by
  have w := Wellformed.reached run
  simp only [step] at registers
  split at registers
  · next guard =>
    obtain ⟨subscribed, new, perm⟩ := guard
    cases registers
    have cached := w.cached t m last
    have mem : t ∈ order := perm.mem_iff.mpr ((w.mem_topics t).mpr (by rw [last]; rfl))
    have listed := w.listed subscribed new
    have fresh := w.fresh i (.inr ⟨subscribed, new⟩)
    have replayed : ((s.register specs i order).handler i).delivered = (replayTo (specs i)
        s.topicLastDMesgPb order { state := some {}, registeredAt := s.accepted.length }).delivered := by
      unfold register scheduleAfterInitialPlayback
      simp only
      rw [update_handler, if_pos rfl]
      simp only
      rw [playback_handler listed subscribed (List.mem_append_right _ List.mem_cons_self),
        update_handler, if_pos rfl, fresh]
      rfl
    rw [replayed, replayTo_delivered (perm.nodup_iff.mpr w.topics)
      (fun t m last => ⟨(w.cached t m last).topic, (w.cached t m last).conflict⟩)
      ⟨{}, rfl, rfl, rfl⟩ rfl (fun _ => rfl), if_pos mem, last]
    have hands : Handler.handsOver (specs i) (fun _ => none) (played m) ↔ m.force = false := by
      refine ⟨fun hands => hands.2.2.1, fun unforced =>
        ⟨?_, cached.positive, unforced, .inl other, .inl ordinary, unfiltered _⟩⟩
      rw [show (played m).topic = t from cached.topic]
      exact subscribes
    simp only [hands]
    by_cases unforced : m.force = false
    · simp [unforced, ofTopic]
    · simp [unforced, ofTopic]
  · cases registers

/-- The first handler writes, by force or not; the second one is being opened. -/
def opening (force : Bool) : List (Action (Fin 2)) :=
  [.subscribe 0, .register 0 [], .run 0, .write 0 { topic := "t" } false force, .publish,
   .subscribe 1]

theorem initialPlayback_unforced :
    ∃ s s' m, Reaches (step pair) ({} : State (Fin 2)) s ∧
      s.step pair (.register 1 ["t"]) = some s' ∧ s.topicLastDMesgPb "t" = some m ∧
      ofTopic "t" (s'.handler 1).delivered = [played m] := by
  have ran : ((exec (step pair) ({} : State (Fin 2)) (opening false)).bind fun s =>
      (s.step pair (.register 1 ["t"])).bind fun _ => (s.topicLastDMesgPb "t").map fun m =>
        decide (m.type ≠ .sys ∧ m.sourceWriteHandlerIdentifier ≠ "second" ∧ m.force = false)) =
      some true := by decide
  obtain ⟨s, run, ran⟩ := Option.bind_eq_some_iff.mp ran
  obtain ⟨s', registers, ran⟩ := Option.bind_eq_some_iff.mp ran
  obtain ⟨m, last, ran⟩ := Option.map_eq_some_iff.mp ran
  obtain ⟨ordinary, other, unforced⟩ := of_decide_eq_true ran
  exact ⟨s, s', m, .of_exec run, registers, last, (initialPlayback (.of_exec run) registers
    (fun _ => rfl) rfl last ordinary other).mpr unforced⟩

theorem initialPlayback_forced :
    ¬ ∀ s s' m, Reaches (step pair) ({} : State (Fin 2)) s →
      s.step pair (.register 1 ["t"]) = some s' → s.topicLastDMesgPb "t" = some m →
      m.type ≠ .sys → m.sourceWriteHandlerIdentifier ≠ (pair 1).name →
      ofTopic "t" (s'.handler 1).delivered = [played m] := by
  intro all
  have ran : ((exec (step pair) ({} : State (Fin 2)) (opening true)).bind fun s =>
      (s.step pair (.register 1 ["t"])).bind fun s' => (s.topicLastDMesgPb "t").map fun m =>
        decide (m.type ≠ .sys ∧ m.sourceWriteHandlerIdentifier ≠ "second" ∧
          (s'.handler 1).delivered = [])) =
      some true := by decide
  obtain ⟨s, run, ran⟩ := Option.bind_eq_some_iff.mp ran
  obtain ⟨s', registers, ran⟩ := Option.bind_eq_some_iff.mp ran
  obtain ⟨m, last, ran⟩ := Option.map_eq_some_iff.mp ran
  obtain ⟨ordinary, other, none⟩ := of_decide_eq_true ran
  have handed := all s s' m (.of_exec run) registers last ordinary other
  rw [none] at handed
  cases handed

end State
end Dmn.DMesg
