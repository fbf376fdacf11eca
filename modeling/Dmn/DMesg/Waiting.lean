import Dmn.DMesg.Growth

/-!
# What a handler's context waits for

A context that waits for the publisher has a task of its own in the publisher's
queue, and until its initial playback is over the marker of its end is among the
tasks of its inbox.
-/

namespace Dmn.DMesg

open Dmn.Lib

/-- Whose context waits for a task of the publisher. -/
def PublisherTask.owner {ι : Type} : PublisherTask ι → Option ι
  | .publish i _ wait _ => if wait then some i else none
  | .setHandlerTopicRunningCounter i _ _ => some i

namespace State

variable {ι : Type} [DecidableEq ι] {specs : ι → HandlerSpec} {s s' : State ι} {i : ι}

/-- A step in which the context may begin to wait. -/
def Action.posts (i : ι) : Action ι → Bool
  | .write j _ _ _ | .setTopicRunningCounter j _ _ => j = i
  | _ => false

theorem waiting_publishInternal (s : State ι) (m : DMesgPb) (i : ι) :
    ((s.publishInternal specs m).handler i).waiting = (s.handler i).waiting := by
  by_cases verdict : s.verdict specs m = .accepted
  · exact ((works_accept verdict).context i).waiting
  · exact ((works_publish verdict).context i).waiting

theorem waiting_update {i : ι} {h : Handler} (same : h.waiting = (s.handler i).waiting) (j : ι) :
    ((s.update i h).handler j).waiting = (s.handler j).waiting := by
  rw [update_handler]
  split
  · next eq => rw [eq, same]
  · rfl

/-- The one that was waited for goes on. -/
theorem waiting_release {wait : Bool} {j : ι} (h : ((s.release i wait).handler j).waiting = true) :
    (s.handler j).waiting = true ∧ (wait = true → j ≠ i) := by
  unfold release at h
  split at h
  · rw [update_handler] at h
    split at h
    · cases h
    · next other => exact ⟨h, fun _ => other⟩
  · next idle => exact ⟨h, fun waits => absurd waits idle⟩

/-- The publisher takes the task at the front. -/
theorem runPublisher_waiting {task : PublisherTask ι}
    (waits : ((s.runPublisher specs task).handler i).waiting = true) :
    (s.handler i).waiting = true ∧ task.owner ≠ some i := by
  cases task with
  | publish j m wait stamp =>
    obtain ⟨before, apart⟩ := waiting_release waits
    rw [waiting_publishInternal] at before
    refine ⟨before, fun owner => ?_⟩
    simp only [PublisherTask.owner] at owner
    split at owner
    · next wait => exact apart wait (Option.some.inj owner).symm
    · cases owner
  | setHandlerTopicRunningCounter j topic n =>
    obtain ⟨before, apart⟩ := waiting_release waits
    rw [waiting_update (Handler.silent_setStateCounter _ _ _).toSameContext.waiting] at before
    exact ⟨before, fun owner => apart rfl (Option.some.inj owner).symm⟩

theorem waiting_register (s : State ι) (j : ι) (order : List String) (i : ι) :
    ((s.register specs j order).handler i).waiting = (s.handler i).waiting := by
  unfold register scheduleAfterInitialPlayback
  refine (waiting_update ?_ i).trans ?_
  · rfl
  rw [((works_playback _ order).context i).waiting]
  refine (waiting_update (s := { s with handlers := s.handlers ++ [j] }) ?_ i).trans ?_ <;> rfl

/-- A context that still waits has its task still in the queue. -/
theorem step_waiting {a : Action ι} (other : a.posts i = false) (h : s.step specs a = some s')
    (waits : (s'.handler i).waiting = true) :
    (s.handler i).waiting = true ∧ ∀ task ∈ s.queue, task.owner = some i → task ∈ s'.queue := by
  cases a <;> simp only [State.step] at h
  case write j m block force =>
    simp only [Action.posts, decide_eq_false_iff_not] at other
    split at h
    · cases h
      unfold writeDMesgInternal at waits ⊢
      simp only at waits ⊢
      split at waits
      · next throws =>
        rw [if_pos throws]
        exact ⟨waits, fun task mem _ => mem⟩
      · next posts =>
        rw [if_neg posts]
        replace waits : ((s.update j _).handler i).waiting = true := waits
        rw [update_handler, if_neg (Ne.symm other)] at waits
        exact ⟨waits, fun task mem _ => List.mem_append_left _ mem⟩
    · cases h
  case setTopicRunningCounter j topic n =>
    simp only [Action.posts, decide_eq_false_iff_not] at other
    split at h
    · cases h
      replace waits : ((s.update j _).handler i).waiting = true := waits
      rw [update_handler, if_neg (Ne.symm other)] at waits
      exact ⟨waits, fun task mem _ => List.mem_append_left _ mem⟩
    · cases h
  case publish =>
    split at h
    · cases h
    · next task queue eq =>
      cases h
      obtain ⟨before, apart⟩ := runPublisher_waiting waits
      refine ⟨before, fun owned mem owner => ?_⟩
      rw [runPublisher_queue]
      rw [eq] at mem
      refine (List.mem_cons.mp mem).resolve_left ?_
      rintro rfl
      exact apart owner
  case register j order =>
    split at h
    · cases h
      rw [waiting_register] at waits
      refine ⟨waits, fun task mem _ => ?_⟩
      unfold register
      simp only [scheduleAfterInitialPlayback, update]
      rw [(works_playback _ order).shared]
      exact mem
    · cases h
  case resolveConflict j topic =>
    split at h
    · cases h
      rw [waiting_update (Handler.silent_resolve _ _ _).toSameContext.waiting] at waits
      exact ⟨waits, fun task mem _ => mem⟩
    · cases h
  case resetConflictStateWithLastTopicMessage topic =>
    cases h
    unfold resetConflictStateWithLastTopicMessageInternal at waits ⊢
    cases last : s.topicLastDMesgPb topic with
    | none =>
      rw [last] at waits
      exact ⟨waits, fun task mem _ => mem⟩
    | some m =>
      rw [last] at waits
      rw [waiting_publishInternal] at waits
      exact ⟨waits, fun task mem _ => by rwa [publishInternal_queue]⟩
  case run j =>
    split at h
    · cases h
    · next task inbox _ =>
      split at h
      · cases h
      · cases h
        rw [waiting_update (by cases task <;> rfl)] at waits
        exact ⟨waits, fun task mem _ => mem⟩
  case subscribe j =>
    split at h
    · cases h
    · cases h
      exact ⟨waits, fun task mem _ => mem⟩
  case unsubscribe j =>
    split at h
    · cases h
      exact ⟨waits, fun task mem _ => mem⟩
    · cases h
  case erase j =>
    split at h
    · cases h
      have same := waiting_update (s := { s with handlers := s.handlers.erase j })
        (h := { s.handler j with state := none }) rfl i
      exact ⟨same.symm.trans waits, fun task mem _ => mem⟩
    · cases h

/-- A write that blocks has its task in the queue. -/
theorem write_owed (m : DMesgPb) (force : Bool)
    (waits : ((s.writeDMesgInternal specs i m true force).handler i).waiting = true) :
    (s.handler i).waiting = true ∨
      ∃ task ∈ (s.writeDMesgInternal specs i m true force).queue, task.owner = some i := by
  unfold writeDMesgInternal at waits ⊢
  simp only at waits ⊢
  split at waits
  · exact .inl waits
  · next posts =>
    rw [if_neg posts]
    exact .inr ⟨_, List.mem_append_right _ List.mem_cons_self, rfl⟩

theorem write_afterInitialPlayback (s : State ι) (m : DMesgPb) (block force : Bool) :
    ((s.writeDMesgInternal specs i m block force).handler i).mirror.afterInitialPlayback =
      (s.handler i).mirror.afterInitialPlayback := by
  unfold writeDMesgInternal
  simp only
  split
  · rfl
  · show ((s.update i _).handler i).mirror.afterInitialPlayback = _
    rw [update_handler, if_pos rfl]

theorem runPublisher_handlers (s : State ι) (task : PublisherTask ι) :
    (s.runPublisher specs task).handlers = s.handlers := by
  cases task <;> simp only [runPublisher] <;> rw [release_eq]
  · exact publishInternal_handlers s _
  · rfl

theorem register_handlers (s : State ι) (j : ι) (order : List String) :
    (s.register specs j order).handlers = s.handlers ++ [j] := by
  unfold register
  simp only [scheduleAfterInitialPlayback, update]
  rw [(works_playback _ order).shared]

/-- A handler is listed by its registration. -/
theorem step_registered {a : Action ι} (h : s.step specs a = some s') (new : i ∈ s'.handlers)
    (fresh : i ∉ s.handlers) : ∃ order, a = .register i order := by
  cases a <;> simp only [State.step] at h
  case register j order =>
    split at h
    · cases h
      rw [register_handlers] at new
      have same := List.mem_singleton.mp ((List.mem_append.mp new).resolve_left fresh)
      exact ⟨order, by rw [same]⟩
    · cases h
  case write j m block force =>
    split at h
    · cases h
      unfold writeDMesgInternal at new
      simp only at new
      split at new <;> exact absurd new fresh
    · cases h
  case publish =>
    split at h
    · cases h
    · cases h
      rw [runPublisher_handlers] at new
      exact absurd new fresh
  case resetConflictStateWithLastTopicMessage topic =>
    cases h
    unfold resetConflictStateWithLastTopicMessageInternal at new
    split at new
    · exact absurd new fresh
    · rw [publishInternal_handlers] at new
      exact absurd new fresh
  case run j =>
    split at h
    · cases h
    · split at h
      · cases h
      · cases h
        exact absurd new fresh
  case subscribe j =>
    split at h
    · cases h
    · cases h
      exact absurd new fresh
  case erase j =>
    split at h
    · cases h
      exact absurd (List.mem_of_mem_erase new) fresh
    · cases h
  all_goals
    split at h
    · cases h
      exact absurd new fresh
    · cases h

end State

-- ---------------------------------------------------------------------------
-- The end of the initial playback
-- ---------------------------------------------------------------------------

namespace Handler

variable {h h' : Handler}

/-- The initial playback is over, or its end is in the inbox. -/
def Opening (h : Handler) : Prop :=
  h.mirror.afterInitialPlayback = true ∨ .setAfterInitialPlayback ∈ h.inbox

theorem Opening.grows (opening : h.Opening) (grows : h.Grows h') : h'.Opening := by
  obtain ⟨new, eq⟩ := grows.inbox
  unfold Opening
  rw [grows.mirror, eq]
  exact opening.imp_right (List.mem_append_left _)

theorem Opening.run (opening : h.Opening) {task : HandlerTask} {inbox : List HandlerTask}
    (queued : h.inbox = task :: inbox) : ({ h with inbox }.run task).Opening := by
  cases task with
  | setAfterInitialPlayback => exact .inl rfl
  | event e notifyObserver =>
    refine opening.imp_right fun mem => ?_
    rw [queued] at mem
    exact (List.mem_cons.mp mem).resolve_left nofun

end Handler

namespace State

variable {ι : Type} [DecidableEq ι] {specs : ι → HandlerSpec} {s s' : State ι} {i : ι}

/-- What others do, and what the context does itself but for writing. -/
theorem step_opening (wf : s.Wellformed specs) {a : Action ι} (other : a.posts i = false)
    (h : s.step specs a = some s') (opening : i ∈ s.handlers → (s.handler i).Opening)
    (listed : i ∈ s'.handlers) : (s'.handler i).Opening := by
  by_cases before : i ∈ s.handlers
  · by_cases own : a = .run i
    · subst own
      simp only [State.step] at h
      split at h
      · cases h
      · next task inbox queued =>
        split at h
        · cases h
        · cases h
          rw [update_handler, if_pos rfl]
          exact (opening before).run queued
    · refine (opening before).grows (step_grows wf before ?_ h)
      cases a with
      | run j => simpa [Action.own] using own
      | write => exact other
      | setTopicRunningCounter => exact other
      | _ => rfl
  · obtain ⟨order, rfl⟩ := step_registered h listed before
    simp only [State.step] at h
    split at h
    · cases h
      refine .inr ?_
      unfold register scheduleAfterInitialPlayback
      simp only
      rw [update_handler, if_pos rfl]
      exact List.mem_append_right _ List.mem_cons_self
    · cases h

end State
end Dmn.DMesg
