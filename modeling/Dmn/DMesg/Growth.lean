import Dmn.DMesg.Abreast

/-!
# What others do to a handler's context

Between two tasks of a handler's own context the rest of the system only
schedules further tasks there.
-/

namespace Dmn.DMesg

open Dmn.Lib

namespace Handler

variable {h h' h'' : Handler} {spec : HandlerSpec}

/-- Tasks were scheduled, and the context's own members did not change. -/
structure Grows (h h' : Handler) : Prop where
  mirror : h'.mirror = h.mirror
  inbox : ∃ new, h'.inbox = h.inbox ++ new

theorem Grows.refl (h : Handler) : Grows h h := ⟨rfl, [], (List.append_nil _).symm⟩

/-- Nothing was scheduled. -/
theorem Grows.still (mirror : h'.mirror = h.mirror) (inbox : h'.inbox = h.inbox) : Grows h h' :=
  ⟨mirror, [], by rw [inbox, List.append_nil]⟩

theorem Grows.trans (a : Grows h h') (b : Grows h' h'') : Grows h h'' := by
  obtain ⟨new, eq⟩ := a.inbox
  obtain ⟨new', eq'⟩ := b.inbox
  exact ⟨b.mirror.trans a.mirror, new ++ new', by rw [eq', eq, List.append_assoc]⟩

theorem Effect.grows {t : String} {P : HandlerTask → Prop} (a : Effect t P h h') : Grows h h' := by
  obtain ⟨new, eq, -⟩ := a.queues
  exact ⟨a.mirror, new, eq⟩

theorem grows_throw (h : Handler) (m : DMesgPb) : Grows h (h.throwHandlerConflict true m) :=
  (effect_throw (t := "") (P := fun _ => True) h m fun _ _ => trivial).grows

theorem grows_resolve (h : Handler) (topic : String) (message : Option DMesgPb) :
    Grows h (h.resolveHandlerConflict true topic message) :=
  (effect_resolve (t := "") (P := fun _ => True) h topic message fun _ _ _ => trivial).grows

theorem grows_notify (h : Handler) (m : DMesgPb) : Grows h (h.notify spec true m) := by
  rcases @notify_cases spec h m with same | ⟨-, eq⟩ | ⟨-, present, turn⟩
  · rw [same]
    exact .refl h
  · rw [eq]
    exact grows_throw h m
  · have raised := effect_raised (t := "") (P := fun _ => True) h m fun _ _ _ => trivial
    rcases turn with eq | eq
    · rw [eq]
      exact raised.grows
    · obtain ⟨state, present⟩ := Option.isSome_iff_exists.mp (raised.isSome.trans present)
      rw [eq]
      exact (raised.trans (effect_handedOver present m fun _ => trivial)).grows

theorem grows_receive (h : Handler) (m : DMesgPb) : Grows h (h.receive spec true m) := by
  unfold receive
  split
  · exact grows_notify h m
  · exact .refl h

end Handler

namespace State

variable {ι : Type} [DecidableEq ι] {specs : ι → HandlerSpec} {s s' : State ι} {m : DMesgPb} {i : ι}

theorem publishInternal_handlers (s : State ι) (m : DMesgPb) :
    (s.publishInternal specs m).handlers = s.handlers := by
  by_cases h : s.verdict specs m = .accepted
  · rw [(works_accept h).shared]
    rfl
  · rw [(works_publish h).shared]

theorem grows_noteSource (s : State ι) (m : DMesgPb) (i : ι) :
    (s.handler i).Grows ((s.noteSource specs m).handler i) := by
  rw [noteSource_handler]
  split
  · exact .still rfl rfl
  · exact .refl _

theorem grows_throwSource (listed : i ∈ s.handlers) (m : DMesgPb) :
    (s.handler i).Grows ((s.throwSource specs m).handler i) := by
  rw [throwSource_handler, State.listed, decide_eq_true listed]
  split
  · exact Handler.grows_throw _ _
  · exact .refl _

theorem grows_notifyAll (single : s.subscribers.Nodup) (listed : i ∈ s.handlers) (m : DMesgPb) :
    (s.handler i).Grows ((s.notifyAll specs m).handler i) := by
  rw [notifyAll_eq single]
  simp only
  rw [State.listed, decide_eq_true listed]
  split
  · exact Handler.grows_receive _ _
  · exact .refl _

theorem grows_publishInternal (wf : s.Wellformed specs) (listed : i ∈ s.handlers) (m : DMesgPb) :
    (s.handler i).Grows ((s.publishInternal specs m).handler i) := by
  have noted : (s.handler i).Grows ((s.noteSource specs m).handler i) := grows_noteSource s m i
  have shared : s.noteSource specs m = { s with handler := (s.noteSource specs m).handler } :=
    noteSource_eq s m
  match verdict : s.verdict specs m with
  | .replayed =>
    rw [publishInternal_replayed verdict]
    exact grows_notifyAll wf.subscribers listed m
  | .dropped =>
    rw [publishInternal_dropped verdict]
    exact noted
  | .marked =>
    rw [publishInternal_marked verdict]
    refine (noted.trans (grows_throwSource ?_ _)).trans (grows_notifyAll ?_ ?_ _)
    · rw [shared]
      exact listed
    · rw [thrown_eq]
      exact wf.subscribers
    · rw [thrown_eq]
      exact listed
  | .accepted =>
    rw [publishInternal_accepted verdict]
    refine noted.trans (grows_notifyAll (s := (s.noteSource specs m).cache (s.renumbered m)) ?_ ?_ _)
    · rw [shared]
      exact wf.subscribers
    · rw [shared]
      exact listed

theorem grows_playback (wf : s.Wellformed specs) (listed : i ∈ s.handlers) (order : List String) :
    (s.handler i).Grows ((s.playbackLastTopicDMesgPbInternal specs order).handler i) := by
  unfold playbackLastTopicDMesgPbInternal
  induction order generalizing s with
  | nil => exact .refl _
  | cons topic order ih =>
    rw [List.foldl_cons]
    split
    · exact ih wf listed
    · next m last =>
      refine (grows_publishInternal wf listed _).trans (ih ?_ ?_)
      · exact wf.publishInternal (wf.cached topic m last).positive
      · rw [publishInternal_handlers]
        exact listed

/-- A step of the handler's own context. -/
def Action.own (i : ι) : Action ι → Bool
  | .run j | .write j _ _ _ | .setTopicRunningCounter j _ _ => j = i
  | _ => false

theorem grows_update {j : ι} {h : Handler} (grows : (s.handler j).Grows h) (i : ι) :
    (s.handler i).Grows ((s.update j h).handler i) := by
  rw [update_handler]
  split
  · next same => exact same ▸ grows
  · exact .refl _

theorem step_grows (wf : s.Wellformed specs) (listed : i ∈ s.handlers) {a : Action ι}
    (other : a.own i = false) (h : s.step specs a = some s') :
    (s.handler i).Grows (s'.handler i) := by
  have release : ∀ (s : State ι) (j : ι) (wait : Bool),
      (s.handler i).Grows ((s.release j wait).handler i) := fun s j wait => by
    unfold State.release
    split
    · refine grows_update ?_ i
      exact .still rfl rfl
    · exact .refl _
  cases a <;> simp only [State.step] at h
  case subscribe j =>
    split at h
    · cases h
    · cases h
      exact .refl _
  case register j order =>
    split at h
    · next guard =>
      cases h
      have apart : i ≠ j := fun same => guard.2.1 (same ▸ listed)
      have started : (s.handler i).Grows (({ s with handlers := s.handlers ++ [j] }.update j
          { s.handler j with state := some {}, registeredAt := s.accepted.length }).handler i) := by
        rw [update_handler, if_neg apart]
        exact .refl _
      refine (started.trans (grows_playback (wf.listed guard.1 guard.2.1)
        (List.mem_append_left _ listed) order)).trans ?_
      refine grows_update ?_ i
      exact ⟨rfl, _, rfl⟩
    · cases h
  case write j m block force =>
    simp only [Action.own, decide_eq_false_iff_not] at other
    split at h
    · cases h
      unfold writeDMesgInternal
      simp only
      split
      · exact .refl _
      · show (s.handler i).Grows ((s.update j _).handler i)
        rw [update_handler, if_neg (Ne.symm other)]
        exact .refl _
    · cases h
  case publish =>
    split at h
    · cases h
    · next task queue eq =>
      cases h
      cases task with
      | publish j m wait stamp =>
        exact (grows_publishInternal (s := { s with queue }) (wf.dequeued eq) listed m).trans
          (release _ j wait)
      | setHandlerTopicRunningCounter j topic n =>
        refine Handler.Grows.trans ?_ (release _ j true)
        refine grows_update (s := { s with queue }) ?_ i
        exact .still rfl rfl
  case resolveConflict j topic =>
    split at h
    · next guard =>
      cases h
      rw [guard.1]
      exact grows_update (Handler.grows_resolve _ _ _) i
    · cases h
  case resetConflictStateWithLastTopicMessage topic =>
    cases h
    unfold resetConflictStateWithLastTopicMessageInternal
    split
    · exact .refl _
    · exact grows_publishInternal wf listed _
  case setTopicRunningCounter j topic n =>
    simp only [Action.own, decide_eq_false_iff_not] at other
    split at h
    · cases h
      show (s.handler i).Grows ((s.update j _).handler i)
      rw [update_handler, if_neg (Ne.symm other)]
      exact .refl _
    · cases h
  case run j =>
    simp only [Action.own, decide_eq_false_iff_not] at other
    split at h
    · cases h
    · split at h
      · cases h
      · cases h
        rw [update_handler, if_neg (Ne.symm other)]
        exact .refl _
  case unsubscribe j =>
    split at h
    · cases h
      exact .refl _
    · cases h
  case erase j =>
    split at h
    · cases h
      refine grows_update (s := { s with handlers := s.handlers.erase j }) ?_ i
      exact .still rfl rfl
    · cases h

/-- A registered handler stays until it is erased. -/
theorem step_listed (listed : i ∈ s.handlers) {a : Action ι} (kept : a ≠ .erase i)
    (h : s.step specs a = some s') : i ∈ s'.handlers := by
  cases a <;> simp only [State.step] at h
  case register j order =>
    split at h
    · cases h
      unfold register
      simp only [scheduleAfterInitialPlayback, update]
      rw [(works_playback _ order).shared]
      exact List.mem_append_left _ listed
    · cases h
  case write j m block force =>
    split at h
    · cases h
      unfold writeDMesgInternal
      simp only
      split <;> exact listed
    · cases h
  case publish =>
    split at h
    · cases h
    · next task queue eq =>
      cases h
      cases task with
      | publish j m wait stamp =>
        unfold runPublisher
        simp only
        rw [release_eq]
        show i ∈ (State.publishInternal specs { s with queue } m).handlers
        rw [publishInternal_handlers]
        exact listed
      | setHandlerTopicRunningCounter j topic n =>
        unfold runPublisher
        simp only
        rw [release_eq]
        exact listed
  case resetConflictStateWithLastTopicMessage topic =>
    cases h
    unfold resetConflictStateWithLastTopicMessageInternal
    split
    · exact listed
    · rw [publishInternal_handlers]
      exact listed
  case erase j =>
    split at h
    · cases h
      exact (List.mem_erase_of_ne fun same => kept (by rw [same])).mpr listed
    · cases h
  case run j =>
    split at h
    · cases h
    · split at h
      · cases h
      · cases h
        exact listed
  case subscribe j =>
    split at h
    · cases h
    · cases h
      exact listed
  all_goals
    split at h
    · cases h
      exact listed
    · cases h

end State
end Dmn.DMesg
