import Dmn.DMesg.Waiting
import Dmn.DMesgNet.Election
import Dmn.DMesgNet.Input

/-!
# The input worker survives

A write or a question runs in the write handler's context behind everything the
publisher scheduled there before, so what it finds is what the publisher had on
record when it was scheduled. The worker fails on a frame where it relies on a
last message that is not cached, on a handler that is not in conflict, or on a
filter that does not throw. Elsewhere it gets back to where it reads: each step
that it waits for can be taken.
-/

namespace Dmn.DMesgNet

open Dmn.DMesg Dmn.Lib

-- ---------------------------------------------------------------------------
-- A node keeps its name
-- ---------------------------------------------------------------------------

namespace Node

theorem writeSys_name {n n' : Node} {rest : Node → Outcome} {written : Written}
    (kept : ∀ n₁ written, rest n = some (n₁, written) → n₁.name = n.name)
    (h : n.writeSys rest = some (n', written)) : n'.name = n.name := by
  unfold writeSys at h
  split at h
  · obtain ⟨⟨n₁, written₁⟩, ran, eq⟩ := Option.map_eq_some_iff.mp h
    cases eq
    exact kept _ _ ran
  · cases h
    rfl

theorem reconciliateMaster_name {n n' : Node} {other : DMesgSysNodePb} {now : Timestamp}
    {order : List String} {fails : Option Nat} {written : Written}
    (h : n.reconciliateMaster other now order fails = some (n', written)) :
    n'.name = n.name := by
  unfold reconciliateMaster at h
  simp only at h
  split at h
  · split at h
    · cases h
    · refine (writeSys_name (fun n₁ _ ran => ?_) h).trans rfl
      obtain ⟨⟨flushed, thrown⟩, flush, eq⟩ := Option.map_eq_some_iff.mp ran
      cases eq
      obtain ⟨out, rfl⟩ := flush_eq flush
      rfl
  · split at h
    · split at h
      · cases h
      · split at h
        · split at h
          · cases h; rfl
          · split at h
            · cases h
            · refine (writeSys_name (fun n₁ _ ran => ?_) h).trans rfl
              cases ran
              rfl
        · split at h
          · split at h
            · cases h
            · split at h
              · refine (writeSys_name (fun n₁ _ ran => ?_) h).trans rfl
                cases ran
                rfl
              · cases h; rfl
          · cases h; rfl
    · cases h; rfl

theorem step_name {n n' : Node} {t : Task} (h : n.step t = some n') : n'.name = n.name := by
  unfold step at h
  split at h
  · obtain ⟨⟨n₁, written⟩, ran, rfl⟩ := Option.map_eq_some_iff.mp h
    cases t with
    | openSysHandler =>
      cases ran
      rfl
    | heartbeat now fails =>
      unfold run heartbeat at ran
      simp only at ran
      split at ran <;> cases ran <;> exact elect_name n now
    | reconciliate other now order fails =>
      obtain ⟨⟨n₂, written₂⟩, reconciled, eq⟩ := Option.map_eq_some_iff.mp ran
      have kept := reconciliateMaster_name reconciled
      simp only at eq
      split at eq <;> cases eq <;> exact kept
    | forward m order fails =>
      obtain ⟨out, rfl⟩ := forward_eq ran
      rfl
  · cases h

end Node

-- ---------------------------------------------------------------------------
-- The write handler's context
-- ---------------------------------------------------------------------------

/-- The publisher's record of a handler's conflicts. -/
def recorded (h : Handler) : List String :=
  match h.state with
  | none => []
  | some state => state.topicInConflict

/-- The conflicts that a context knows of once it has run so many tasks. -/
def knownAfter (h : Handler) (ahead : Nat) : List String :=
  ((h.inbox.take ahead).foldl Handler.run h).mirror.topicInConflict

variable {h h' : Handler} {ahead : Nat}

theorem mirror_runAll (same : h'.mirror = h.mirror) (inbox : List HandlerTask) :
    (inbox.foldl Handler.run h').mirror = (inbox.foldl Handler.run h).mirror := by
  induction inbox generalizing h h' with
  | nil => exact same
  | cons task inbox ih =>
    refine ih ?_
    cases task <;> simp only [Handler.run, Handler.runEvent, same]

/-- What is scheduled later is not ahead. -/
theorem knownAfter_grows (grows : h.Grows h') (le : ahead ≤ h.inbox.length) :
    ahead ≤ h'.inbox.length ∧ knownAfter h' ahead = knownAfter h ahead := by
  obtain ⟨new, eq⟩ := grows.inbox
  refine ⟨by rw [eq, List.length_append]; omega, ?_⟩
  unfold knownAfter
  rw [eq, List.take_append_of_le_length le, mirror_runAll grows.mirror]

theorem knownAfter_run {task : HandlerTask} {inbox : List HandlerTask}
    (queued : h.inbox = task :: inbox) (le : ahead + 1 ≤ h.inbox.length) :
    ahead ≤ ({ h with inbox }.run task).inbox.length ∧
      knownAfter ({ h with inbox }.run task) ahead = knownAfter h (ahead + 1) := by
  have left : ({ h with inbox }.run task).inbox = inbox := by cases task <;> rfl
  have same : ({ h with inbox }.run task).mirror = (h.run task).mirror := by cases task <;> rfl
  rw [queued] at le
  refine ⟨by rw [left]; exact Nat.le_of_succ_le_succ le, ?_⟩
  unfold knownAfter
  rw [left, queued, List.take_succ_cons, List.foldl_cons, mirror_runAll same]

/-- A context that has caught up knows what is on record. -/
theorem knownAfter_all {state : HandlerState} (mirrored : h.Mirrored)
    (present : h.state = some state) : knownAfter h h.inbox.length = recorded h := by
  unfold knownAfter recorded
  rw [List.take_length, present]
  exact (mirrored state present).topicInConflict

/-- A refused write can be answered: there is a last message. -/
def Job.answerable (job : Job) : Bool :=
  match job.branch with
  | .ordinary (some _) => true
  | _ => false

/-- What the worker will find. -/
def Phase.Safe (h : Handler) : Phase → Prop
  | .reading | .looked _ | .waiting _ => True
  | .writing job ahead => ahead ≤ h.inbox.length ∧
      (job.frame.topic ∈ knownAfter h ahead → job.frame.force = true)
  | .checking job ahead => ahead ≤ h.inbox.length ∧
      (Station.isInConflict job.frame.topic (knownAfter h ahead) = true → job.answerable = true)
  | .failed _ => False

/-- A frame is at hand. -/
def Phase.working : Phase → Bool
  | .looked _ | .writing _ _ | .waiting _ | .checking _ _ => true
  | _ => false

/-- The write has been scheduled. -/
def Phase.afterPost : Phase → Bool
  | .writing _ _ | .waiting _ | .checking _ _ => true
  | _ => false

theorem Phase.working_of_afterPost {phase : Phase} (h : phase.afterPost = true) :
    phase.working = true := by
  cases phase <;> first | rfl | cases h

namespace Station

variable {ι : Type} [DecidableEq ι] {clients : ι → HandlerSpec} {s s' : Station ι}

def start (name : String) (now : Timestamp) : Station ι := { node := .new name now }

/-- The worker reads a marked frame of a cached topic only; it schedules a write
while its handler is not in conflict on the topic, or a forced one; no filter
throws on what it has written; and when a write has returned its handler is not in
conflict, or a last message is at hand. -/
def Survivable (clients : ι → HandlerSpec) (s : Station ι) (a : Action ι) : Prop :=
  match a, s.phase with
  | .read m, .reading => m.sourceWriteHandlerIdentifier ≠ s.node.name → m.conflict = true →
      (s.node.getTopicLastMessage m.topic).isSome
  | .post, .looked job =>
    job.frame.topic ∈ recorded s.writeHandler → job.frame.force = true
  | .ask, .waiting job =>
    isInConflict job.frame.topic (recorded s.writeHandler) = true → job.answerable = true
  | .publisher a, _ => s.rethrows clients a = false
  | _, _ => True

instance (s : Station ι) (a : Action ι) : Decidable (s.Survivable clients a) := by
  unfold Survivable
  split <;> infer_instance

theorem Phase.Safe.grows {phase : Phase} (safe : phase.Safe h)
    (grows : phase.afterPost = true → h.Grows h') : phase.Safe h' := by
  cases phase with
  | reading | looked | waiting => trivial
  | failed => exact safe
  | writing job ahead | checking job ahead =>
    obtain ⟨le, same⟩ := knownAfter_grows (grows rfl) safe.1
    exact ⟨le, by rw [same]; exact safe.2⟩

theorem Phase.Safe.run {ι : Type} [DecidableEq ι] {phase phase' : Phase} (safe : phase.Safe h)
    {task : HandlerTask} {inbox : List HandlerTask} (queued : h.inbox = task :: inbox)
    (next : Station.nextPhase phase (.run (.write : Party ι)) = some phase') :
    phase'.Safe ({ h with inbox }.run task) ∧ phase'.afterPost = phase.afterPost ∧
      phase'.working = phase.working := by
  cases phase with
  | reading | looked | waiting =>
    cases next
    exact ⟨trivial, rfl, rfl⟩
  | failed => exact safe.elim
  | writing job ahead | checking job ahead =>
    cases ahead with
    | zero => cases next
    | succ ahead =>
      cases next
      obtain ⟨le, same⟩ := knownAfter_run queued safe.1
      exact ⟨⟨le, by rw [same]; exact safe.2⟩, rfl, rfl⟩

/-- The worker relies on what it will find; its handler is registered before it
reads, has played before it writes, and waits while the worker does. -/
structure Sound (name : String) (clients : ι → HandlerSpec) (s : Station ι) : Prop where
  named : s.node.name = name
  run : Reaches (DMesg.State.step (partySpecs name clients)) {} s.publisher
  listed : s.phase.working = true → .write ∈ s.publisher.handlers
  safe : s.phase.Safe s.writeHandler
  opening : .write ∈ s.publisher.handlers → s.writeHandler.Opening
  played : s.phase.afterPost = true → s.writeHandler.mirror.afterInitialPlayback = true
  owed : s.writeHandler.waiting = true → (∃ job, s.phase = .waiting job) ∧
    ∃ task ∈ s.publisher.queue, task.owner = some .write

namespace Sound

variable {name : String}

theorem start (now : Timestamp) : (start name now : Station ι).Sound name clients :=
  ⟨rfl, .refl, nofun, trivial, nofun, nofun, nofun⟩

/-- The node works on its own. -/
theorem node (sound : s.Sound name clients) {n : Node} (named : n.name = s.node.name)
    (forwards : Nat) : ({ s with node := n, forwards } : Station ι).Sound name clients :=
  ⟨named.trans sound.named, sound.run, sound.listed, sound.safe, sound.opening, sound.played,
    sound.owed⟩

theorem wellformed (sound : s.Sound name clients) :
    s.publisher.Wellformed (partySpecs name clients) := .reached sound.run

/-- What is on record when a task is scheduled in the write handler's context. -/
theorem scheduled (sound : s.Sound name clients) (listed : .write ∈ s.publisher.handlers) :
    knownAfter s.writeHandler s.writeHandler.inbox.length = recorded s.writeHandler := by
  obtain ⟨state, present⟩ := Option.isSome_iff_exists.mp ((sound.wellformed.registered .write).mpr
    listed)
  exact knownAfter_all (DMesg.State.Mirrored.reached sound.run .write) present

/-- The write handler's context is free. -/
theorem free (sound : s.Sound name clients) (other : ∀ job, s.phase ≠ .waiting job) :
    s.writeHandler.waiting = false := by
  cases waits : s.writeHandler.waiting
  · rfl
  · obtain ⟨⟨job, phase⟩, -⟩ := sound.owed waits
    exact absurd phase (other job)

/-- Between two tasks of its own the worker goes where nothing is scheduled. -/
theorem goOn (sound : s.Sound name clients) (phase : Phase)
    (other : ∀ job, s.phase ≠ .waiting job)
    (listed : phase.working = true → .write ∈ s.publisher.handlers)
    (safe : phase.Safe s.writeHandler)
    (played : phase.afterPost = true → s.writeHandler.mirror.afterInitialPlayback = true)
    (posted : List Posted) :
    ({ s with phase, posted } : Station ι).Sound name clients :=
  ⟨sound.named, sound.run, listed, safe, sound.opening, played, fun waits => by
    have idle : s.writeHandler.waiting = false := sound.free other
    exact absurd (waits.symm.trans idle) Bool.false_ne_true.symm⟩

theorem read (sound : s.Sound name clients) (phase : s.phase = .reading)
    (listed : .write ∈ s.publisher.handlers) {m : DMesgPb}
    (ok : m.sourceWriteHandlerIdentifier ≠ s.node.name → m.conflict = true →
      (s.node.getTopicLastMessage m.topic).isSome)
    (h : s.read m = some s') : s'.Sound name clients := by
  have other : ∀ job, s.phase ≠ .waiting job := by simp [phase]
  unfold Station.read at h
  split at h
  · cases h
    exact sound
  · next foreign =>
    split at h
    · next marked =>
      split at h
      · split at h
        · next absent =>
          have cached := ok foreign marked
          rw [absent] at cached
          cases cached
        · cases h
          exact sound.goOn _ other sound.listed sound.safe sound.played _
      · cases h
    · split at h
      · cases h
        exact sound.goOn (.looked _) other (fun _ => listed) trivial nofun _
      · split at h
        · cases h
          exact sound.goOn (.looked _) other (fun _ => listed) trivial nofun _
        · cases h

theorem post (sound : s.Sound name clients) {job : Job} (phase : s.phase = .looked job)
    (ok : job.frame.topic ∈ recorded s.writeHandler → job.frame.force = true)
    (h : s.post job = some s') : s'.Sound name clients := by
  unfold Station.post at h
  split at h
  · next guard =>
    cases h
    have listed : .write ∈ s.publisher.handlers := of_decide_eq_true guard.1
    refine sound.goOn (.writing job _) (by simp [phase]) (fun _ => listed) ⟨le_rfl, ?_⟩
      (fun _ => guard.2) _
    rw [sound.scheduled listed]
    exact ok
  · cases h

theorem write (sound : s.Sound name clients) {job : Job} (phase : s.phase = .writing job 0)
    (h : s.write clients job = some s') : s'.Sound name clients := by
  have safe := sound.safe
  rw [phase] at safe
  have listed := sound.listed (by rw [phase]; rfl)
  have played := sound.played (by rw [phase]; rfl)
  have free := sound.free (by simp [phase])
  unfold Station.write at h
  split at h
  · next throws => exact absurd (safe.2 throws.1) throws.2
  · obtain ⟨publisher, step, rfl⟩ := Option.map_eq_some_iff.mp h
    unfold specs at step
    rw [sound.named] at step
    have ran := sound.run.tail _ trivial step
    have kept := DMesg.State.step_listed listed (by simp) step
    simp only [DMesg.State.step] at step
    split at step
    · cases step
      have after : ((s.publisher.writeDMesgInternal (partySpecs name clients) .write job.frame true
          false).handler .write).mirror.afterInitialPlayback = true :=
        (DMesg.State.write_afterInitialPlayback ..).trans played
      refine ⟨sound.named, ran, fun _ => kept, trivial, fun _ => .inl after, fun _ => after,
        fun waits => ⟨⟨job, rfl⟩, ?_⟩⟩
      exact (DMesg.State.write_owed _ _ waits).resolve_left (by
        rw [show (s.publisher.handler .write).waiting = false from free]; exact Bool.false_ne_true)
    · cases step

theorem ask (sound : s.Sound name clients) {job : Job} (phase : s.phase = .waiting job)
    (ok : isInConflict job.frame.topic (recorded s.writeHandler) = true → job.answerable = true)
    (h : s.ask job = some s') : s'.Sound name clients := by
  have listed := sound.listed (by rw [phase]; rfl)
  have played := sound.played (by rw [phase]; rfl)
  unfold Station.ask at h
  split at h
  · cases h
  · next free =>
    cases h
    refine ⟨sound.named, sound.run, fun _ => listed, ⟨le_rfl, ?_⟩, sound.opening, fun _ => played,
      fun waits => absurd waits free⟩
    show isInConflict _ (knownAfter s.writeHandler s.writeHandler.inbox.length) = true → _
    rw [sound.scheduled listed]
    exact ok

theorem check (sound : s.Sound name clients) {job : Job} (phase : s.phase = .checking job 0) :
    (s.check job).Sound name clients := by
  have safe := sound.safe
  rw [phase] at safe
  have other : ∀ job, s.phase ≠ .waiting job := by simp [phase]
  unfold Station.check
  split
  · next busy =>
    have answerable := safe.2 busy
    unfold Job.answerable at answerable
    split at answerable
    · next last eq =>
      rw [eq]
      exact sound.goOn .reading other nofun trivial nofun _
    · cases answerable
  · exact sound.goOn .reading other nofun trivial nofun _

/-- The publisher's context runs what the worker left. -/
theorem runPosted (sound : s.Sound name clients) (task : Posted) (posted : List Posted) :
    (({ s with posted } : Station ι).runPosted task).Sound name clients := by
  have idle : ∀ (n : Node) (answers : List DMesgPb), n.name = s.node.name →
      ({ s with node := n, posted, answers } : Station ι).Sound name clients :=
    fun n answers named => ⟨named.trans sound.named, sound.run, sound.listed, sound.safe,
      sound.opening, sound.played, sound.owed⟩
  unfold Station.runPosted
  cases task with
  | cache m => exact idle _ _ rfl
  | force last =>
    simp only
    split <;> exact idle _ _ rfl
  | report m last => exact idle _ _ rfl

theorem publish (sound : s.Sound name clients) {a : DMesg.State.Action (Party ι)}
    (calm : s.rethrows clients a = false) (h : s.publish clients a = some s') :
    s'.Sound name clients := by
  unfold Station.publish at h
  split at h
  · cases h
  · next free =>
    obtain ⟨phase, next, h⟩ := Option.bind_eq_some_iff.mp h
    obtain ⟨publisher, step, rfl⟩ := Option.map_eq_some_iff.mp h
    rw [calm, if_neg Bool.false_ne_true]
    unfold specs at step
    rw [sound.named] at step
    have posts : a.posts .write = false := by
      cases a <;> simp only [DMesg.State.Action.posts, decide_eq_false_iff_not] <;> rintro rfl <;>
        exact free rfl
    have run := sound.run.tail a trivial step
    have opening := DMesg.State.step_opening sound.wellformed posts step sound.opening
    have waiting := DMesg.State.step_waiting posts step
    have listed : s.phase.working = true → Party.write ∈ publisher.handlers := fun work =>
      DMesg.State.step_listed (sound.listed work) (fun eq => free (by rw [eq]; rfl)) step
    have owed : phase = s.phase → (publisher.handler .write).waiting = true →
        (∃ job, phase = .waiting job) ∧ ∃ task ∈ publisher.queue, task.owner = some .write := by
      rintro rfl waits
      obtain ⟨before, kept⟩ := waiting waits
      obtain ⟨job, task, mem, owner⟩ := sound.owed before
      exact ⟨job, task, kept task mem owner, owner⟩
    by_cases own : a = .run .write
    · subst own
      simp only [DMesg.State.step] at step
      split at step
      · cases step
      · next task inbox queued =>
        split at step
        · cases step
        · next idle =>
          cases step
          obtain ⟨safe, after, work⟩ := Phase.Safe.run sound.safe queued next
          refine ⟨sound.named, run, fun h => listed (work ▸ h), ?_, opening, fun h => ?_,
            fun waits => absurd (waiting waits).1 idle⟩
          · show phase.Safe ((s.publisher.update _ _).handler .write)
            rw [DMesg.State.update_handler, if_pos rfl]
            exact safe
          · show ((s.publisher.update _ _).handler .write).mirror.afterInitialPlayback = true
            rw [DMesg.State.update_handler, if_pos rfl]
            have played := sound.played (after ▸ h)
            cases task
            · exact played
            · rfl
    · have same : phase = s.phase := by
        unfold nextPhase at next
        split at next
        · exact absurd rfl own
        · exact (Option.some.inj next).symm
      have grows : s.phase.afterPost = true →
          (s.publisher.handler .write).Grows (publisher.handler .write) := fun after => by
        refine DMesg.State.step_grows sound.wellformed
          (sound.listed (Phase.working_of_afterPost after)) ?_ step
        cases a <;> simp only [DMesg.State.Action.own, decide_eq_false_iff_not]
        · rintro rfl
          exact free rfl
        · rintro rfl
          exact free rfl
        · rintro rfl
          exact own rfl
      refine ⟨sound.named, run, ?_, ?_, opening, ?_, owed same⟩
      · rw [same]
        exact listed
      · show phase.Safe (publisher.handler .write)
        rw [same]
        exact Phase.Safe.grows sound.safe grows
      · show phase.afterPost = true → (publisher.handler .write).mirror.afterInitialPlayback = true
        rw [same]
        intro after
        rw [(grows after).mirror]
        exact sound.played after

theorem step (sound : s.Sound name clients) {a : Action ι} (ok : s.Survivable clients a)
    (h : step clients s a = some s') : s'.Sound name clients := by
  unfold Survivable at ok
  unfold Station.step at h
  split at h
  · next m phase =>
    rw [phase] at ok
    split at h
    · cases h
    · next guard =>
      have listed : .write ∈ s.publisher.handlers := by
        simpa [DMesg.State.listed] using fun fresh => guard (.inr fresh)
      exact sound.read phase listed ok h
  · next job phase =>
    rw [phase] at ok
    exact sound.post phase ok h
  · next job phase => exact sound.write phase h
  · next job phase =>
    rw [phase] at ok
    exact sound.ask phase ok h
  · next job phase =>
    cases h
    exact sound.check phase
  · split at h
    · cases h
    · next task posted _ =>
      cases h
      exact sound.runPosted task posted
  · exact sound.publish ok h
  · obtain ⟨n, step, rfl⟩ := Option.map_eq_some_iff.mp h
    exact sound.node (Node.step_name step) s.forwards
  · obtain ⟨n, step, rfl⟩ := Option.map_eq_some_iff.mp h
    exact sound.node (Node.step_name step) s.forwards
  · obtain ⟨n, step, rfl⟩ := Option.map_eq_some_iff.mp h
    exact sound.node (Node.step_name step) s.forwards
  · split at h
    · cases h
    · obtain ⟨n, step, rfl⟩ := Option.map_eq_some_iff.mp h
      exact sound.node (Node.step_name step) _
  · cases h

theorem reached {now : Timestamp}
    (run : ReachesBy (Station.step clients) (Survivable clients) (Station.start name now) s) :
    s.Sound name clients :=
  run.invariant (I := fun s => s.Sound name clients) (.start now) fun sound ok h => sound.step ok h

end Sound

-- ---------------------------------------------------------------------------
-- The next frame
-- ---------------------------------------------------------------------------

/-- The worker gets to where it reads whatever comes: the step it waits for can be
taken, and so on. -/
inductive ReadsOn (clients : ι → HandlerSpec) : Station ι → Prop
  | read {s : Station ι}
      (ready : ∀ m, m.type ≠ .sys → (step clients s (.read m)).isSome = true) : ReadsOn clients s
  | step {s : Station ι} (a : Action ι) (enabled : (step clients s a).isSome = true)
      (rest : ∀ s', s.Survivable clients a → step clients s a = some s' → ReadsOn clients s') :
      ReadsOn clients s

section

variable {job : Job}

theorem step_read {m : DMesgPb} (phase : s.phase = .reading)
    (open_ : ¬ (m.type = .sys ∨ s.publisher.listed .write = false)) :
    step clients s (.read m) = s.read m := by
  cases s
  cases phase
  exact if_neg open_

theorem step_post (phase : s.phase = .looked job) : step clients s .post = s.post job := by
  cases s
  cases phase
  rfl

theorem step_write (phase : s.phase = .writing job 0) :
    step clients s .write = s.write clients job := by
  cases s
  cases phase
  rfl

theorem step_ask (phase : s.phase = .waiting job) : step clients s .ask = s.ask job := by
  cases s
  cases phase
  rfl

theorem step_check (phase : s.phase = .checking job 0) :
    step clients s .check = some (s.check job) := by
  cases s
  cases phase
  rfl

theorem step_posted {task : Posted} {posted : List Posted} (left : s.posted = task :: posted) :
    step clients s .posted = some ({ s with posted }.runPosted task) := by
  cases s
  cases left
  rfl

theorem step_publisher (a : DMesg.State.Action (Party ι)) :
    step clients s (.publisher a) = s.publish clients a := rfl

end

namespace Sound

variable {name : String}

/-- What the worker left behind is run, and then a frame is read. -/
theorem readsOn_reading (sound : s.Sound name clients) (phase : s.phase = .reading)
    (listed : .write ∈ s.publisher.handlers) : ReadsOn clients s := by
  generalize eq : s.posted = posted
  induction posted generalizing s with
  | nil =>
    refine .read fun m ordinary => ?_
    have open_ : ¬ (m.type = .sys ∨ s.publisher.listed .write = false) := by
      simp [ordinary, DMesg.State.listed, listed]
    rw [step_read phase open_]
    unfold Station.read
    rw [eq]
    split
    · rfl
    · split
      · simp only [if_true]
        split <;> rfl
      · split <;> rfl
  | cons task posted ih =>
    have step : Station.step clients s .posted = some ({ s with posted }.runPosted task) :=
      step_posted eq
    refine .step .posted (by rw [step]; rfl) fun s' ok ran => ?_
    cases step.symm.trans ran
    have kept : ∀ s₁ : Station ι, (s₁.runPosted task).phase = s₁.phase ∧
        (s₁.runPosted task).publisher = s₁.publisher ∧ (s₁.runPosted task).posted = s₁.posted := by
      intro s₁
      unfold Station.runPosted
      cases task with
      | cache m => exact ⟨rfl, rfl, rfl⟩
      | force last =>
        simp only
        split <;> exact ⟨rfl, rfl, rfl⟩
      | report m last => exact ⟨rfl, rfl, rfl⟩
    obtain ⟨same, publisher, left⟩ := kept { s with posted }
    exact ih (sound.step ok ran) (same.trans phase) (by rw [publisher]; exact listed) left

/-- A task of the write handler's context. -/
theorem run_step (sound : s.Sound name clients) (other : ∀ job, s.phase ≠ .waiting job)
    {task : HandlerTask} {inbox : List HandlerTask} (queued : s.writeHandler.inbox = task :: inbox)
    (phase : Phase) (next : nextPhase s.phase (.run (.write : Party ι)) = some phase) :
    Station.step clients s (.publisher (.run .write)) = some { s with
      publisher := s.publisher.update .write ({ s.writeHandler with inbox }.run task)
      phase } := by
  have free : ¬ (s.publisher.handler .write).waiting = true := by
    rw [show (s.publisher.handler .write).waiting = false from sound.free other]
    nofun
  replace queued : (s.publisher.handler .write).inbox = task :: inbox := queued
  simp only [step_publisher, Station.publish, reserved, Bool.false_eq_true, if_false, next,
    Option.bind_some, DMesg.State.step, queued, if_neg free, Option.map_some, rethrows]
  rfl

omit [DecidableEq ι] in
theorem check_phase (s : Station ι) (job : Job) :
    (s.check job).publisher = s.publisher ∧
      ((s.check job).phase = .reading ∨ ∃ why, (s.check job).phase = .failed why) := by
  unfold Station.check
  split
  · split
    · exact ⟨rfl, .inr ⟨_, rfl⟩⟩
    · exact ⟨rfl, .inr ⟨_, rfl⟩⟩
    · exact ⟨rfl, .inl rfl⟩
  · exact ⟨rfl, .inl rfl⟩

/-- The answer waits behind what was scheduled before the question. -/
theorem readsOn_checking (sound : s.Sound name clients) {job : Job} {ahead : Nat}
    (phase : s.phase = .checking job ahead) : ReadsOn clients s := by
  induction ahead generalizing s with
  | zero =>
    have step : Station.step clients s .check = some (s.check job) := step_check phase
    refine .step .check (by rw [step]; rfl) fun s' ok ran => ?_
    cases step.symm.trans ran
    have listed := sound.listed (by rw [phase]; rfl)
    have after := sound.step ok ran
    obtain ⟨same, reading | ⟨why, failed⟩⟩ := check_phase s job
    · exact after.readsOn_reading reading (by rw [same]; exact listed)
    · have safe := after.safe
      rw [failed] at safe
      exact safe.elim
  | succ ahead ih =>
    have other : ∀ job, s.phase ≠ .waiting job := by simp [phase]
    have safe := sound.safe
    rw [phase] at safe
    obtain ⟨task, inbox, queued⟩ := List.exists_cons_of_length_pos
      (Nat.lt_of_lt_of_le (Nat.succ_pos ahead) safe.1)
    have step := sound.run_step other queued (.checking job ahead) (by rw [phase]; rfl)
    refine .step _ (by rw [step]; rfl) fun s' ok ran => ?_
    cases step.symm.trans ran
    exact ih (sound.step ok ran) rfl

/-- The write has returned. -/
theorem readsOn_answered (sound : s.Sound name clients) {job : Job} (phase : s.phase = .waiting job)
    (free : s.writeHandler.waiting = false) : ReadsOn clients s := by
  have step : Station.step clients s .ask =
      some { s with phase := .checking job s.writeHandler.inbox.length } := by
    simp only [step_ask phase, Station.ask, free, Bool.false_eq_true, if_false]
  refine .step .ask (by rw [step]; rfl) fun s' ok ran => ?_
  have after := sound.step ok ran
  cases step.symm.trans ran
  exact after.readsOn_checking rfl

/-- The publisher's queue goes down to the task that the worker waits for. -/
theorem readsOn_waiting (sound : s.Sound name clients) {job : Job}
    (phase : s.phase = .waiting job) : ReadsOn clients s := by
  generalize eq : s.publisher.queue.length = n
  induction n generalizing s with
  | zero =>
    cases waits : s.writeHandler.waiting with
    | true =>
      obtain ⟨-, task, mem, -⟩ := sound.owed waits
      rw [List.length_eq_zero_iff.mp eq] at mem
      cases mem
    | false => exact sound.readsOn_answered phase waits
  | succ n ih =>
    cases waits : s.writeHandler.waiting with
    | false => exact sound.readsOn_answered phase waits
    | true =>
      obtain ⟨task, queue, queued⟩ := List.exists_cons_of_length_eq_add_one eq
      have step : Station.step clients s (.publisher .publish) = some { s with
          publisher := { s.publisher with queue }.runPublisher (s.specs clients) task
          phase := if s.rethrows clients .publish then .failed .filterThrows else s.phase } := by
        simp only [step_publisher, Station.publish, reserved, Bool.false_eq_true, if_false, nextPhase,
          Option.bind_some, DMesg.State.step, queued, Option.map_some]
      refine .step _ (by rw [step]; rfl) fun s' ok ran => ?_
      have after := sound.step ok ran
      cases step.symm.trans ran
      have calm : s.rethrows clients .publish = false := ok
      refine ih after ?_ ?_
      · simp only [calm, Bool.false_eq_true, if_false]
        exact phase
      · simp only [DMesg.State.runPublisher_queue]
        rw [queued] at eq
        exact Nat.succ.inj eq

theorem readsOn_writing (sound : s.Sound name clients) {job : Job} {ahead : Nat}
    (phase : s.phase = .writing job ahead) : ReadsOn clients s := by
  have other : ∀ job, s.phase ≠ .waiting job := by simp [phase]
  have safe := sound.safe
  rw [phase] at safe
  induction ahead generalizing s with
  | zero =>
    have listed := sound.listed (by rw [phase]; rfl)
    have played : (s.publisher.handler .write).mirror.afterInitialPlayback = true :=
      sound.played (by rw [phase]; rfl)
    have free : (s.publisher.handler .write).waiting = false := sound.free other
    have ready : s.publisher.ready .write = true := by
      simp [DMesg.State.ready, DMesg.State.listed, listed, played, free]
    have quiet : ¬ (job.frame.topic ∈ s.writeHandler.mirror.topicInConflict ∧
        ¬ job.frame.force = true) := fun throws => throws.2 (safe.2 throws.1)
    have step : Station.step clients s .write = some { s with
        publisher := s.publisher.writeDMesgInternal (s.specs clients) .write job.frame true false
        phase := .waiting job } := by
      simp only [step_write phase, Station.write, if_neg quiet, DMesg.State.step, ready, if_true,
        Option.map_some]
    refine .step .write (by rw [step]; rfl) fun s' ok ran => ?_
    have after := sound.step ok ran
    cases step.symm.trans ran
    exact after.readsOn_waiting rfl
  | succ ahead ih =>
    obtain ⟨task, inbox, queued⟩ := List.exists_cons_of_length_pos
      (Nat.lt_of_lt_of_le (Nat.succ_pos ahead) safe.1)
    have step := sound.run_step other queued (.writing job ahead) (by rw [phase]; rfl)
    refine .step _ (by rw [step]; rfl) fun s' ok ran => ?_
    have after := sound.step ok ran
    cases step.symm.trans ran
    exact ih after rfl (by simp) after.safe

theorem readsOn_opened (sound : s.Sound name clients) {job : Job} (phase : s.phase = .looked job)
    (listed : .write ∈ s.publisher.handlers)
    (played : s.writeHandler.mirror.afterInitialPlayback = true) : ReadsOn clients s := by
  have guard : s.publisher.listed .write = true ∧
      s.writeHandler.mirror.afterInitialPlayback = true := ⟨decide_eq_true listed, played⟩
  have step : Station.step clients s .post =
      some { s with phase := .writing job s.writeHandler.inbox.length } := by
    simp only [step_post phase, Station.post, if_pos guard]
  refine .step .post (by rw [step]; rfl) fun s' ok ran => ?_
  have after := sound.step ok ran
  cases step.symm.trans ran
  exact after.readsOn_writing rfl

/-- The write handler plays its inbox until the marker; then the write is scheduled. -/
theorem readsOn_looked (sound : s.Sound name clients) {job : Job}
    (phase : s.phase = .looked job) : ReadsOn clients s := by
  have other : ∀ job, s.phase ≠ .waiting job := by simp [phase]
  have listed := sound.listed (by rw [phase]; rfl)
  generalize eq : s.writeHandler.inbox = inbox
  induction inbox generalizing s with
  | nil =>
    refine sound.readsOn_opened phase listed ?_
    have opening := sound.opening listed
    unfold Handler.Opening at opening
    rw [eq] at opening
    exact opening.resolve_right nofun
  | cons task inbox ih =>
    by_cases played : s.writeHandler.mirror.afterInitialPlayback = true
    · exact sound.readsOn_opened phase listed played
    · have step := sound.run_step other eq (.looked job) (by rw [phase]; rfl)
      refine .step _ (by rw [step]; rfl) fun s' ok ran => ?_
      have after := sound.step ok ran
      cases step.symm.trans ran
      refine ih after rfl (by simp) listed ?_
      show ((s.publisher.update _ _).handler .write).inbox = inbox
      rw [DMesg.State.update_handler, if_pos rfl]
      cases task <;> rfl

theorem readsOn (sound : s.Sound name clients) (listed : .write ∈ s.publisher.handlers) :
    ReadsOn clients s := by
  cases phase : s.phase with
  | reading => exact sound.readsOn_reading phase listed
  | looked job => exact sound.readsOn_looked phase
  | writing job ahead => exact sound.readsOn_writing phase
  | waiting job => exact sound.readsOn_waiting phase
  | checking job ahead => exact sound.readsOn_checking phase
  | failed why =>
    have safe := sound.safe
    rw [phase] at safe
    exact safe.elim

end Sound

/-- The worker never fails, and reads on. -/
theorem survival {name : String} {now : Timestamp}
    (run : ReachesBy (step clients) (Survivable clients) (start name now) s) :
    (∀ why, s.phase ≠ .failed why) ∧
      (s.publisher.listed .write = true → ReadsOn clients s) := by
  have sound := Sound.reached run
  refine ⟨fun why failed => ?_, fun listed => sound.readsOn (of_decide_eq_true listed)⟩
  have safe := sound.safe
  rw [failed] at safe
  exact safe

/-- The write handler is opened. -/
def opening : List (Action Empty) :=
  [.publisher (.subscribe .write), .publisher (.register .write []), .publisher (.run .write)]

/-- A frame of another node is written and cached; then a marked one is read. -/
def settling : List (Action Empty) :=
  opening ++ [.read { topic := "t", runningCounter := 1, sourceWriteHandlerIdentifier := "other" },
   .post, .write, .publisher .publish, .ask, .check, .posted,
   .read { topic := "t", runningCounter := 1, conflict := true,
           sourceWriteHandlerIdentifier := "other" }]

theorem survival_settled :
    ∃ s, ReachesBy (step nofun) (Survivable nofun) (start "node" {} : Station Empty) s ∧
      s.posted.length = 1 ∧ s.phase ≠ .failed .noLastMessage ∧ ReadsOn nofun s := by
  have ran : ((execBy (step nofun) (Survivable nofun) (start "node" {} : Station Empty)
      settling).map fun s => (s.posted.length, s.publisher.listed .write)) = some (1, true) := by
    decide
  obtain ⟨s, run, eq⟩ := Option.map_eq_some_iff.mp ran
  obtain ⟨unfailed, readsOn⟩ := survival (.of_execBy run)
  exact ⟨s, .of_execBy run, (Prod.mk.inj eq).1, unfailed .noLastMessage,
    readsOn (Prod.mk.inj eq).2⟩

/-- The first frame is marked, and nothing is cached. -/
theorem survival_uncached :
    ¬ ∀ s, Reaches (step nofun) (start "node" {} : Station Empty) s → ∀ why,
      s.phase ≠ .failed why := by
  intro all
  have ran : ((execBy (step nofun) (fun _ _ => True) (start "node" {} : Station Empty)
      (opening ++ [.read { topic := "t", conflict := true,
                           sourceWriteHandlerIdentifier := "other" }])).map fun s =>
        match s.phase with | .failed .noLastMessage => true | _ => false) = some true := by decide
  obtain ⟨s, run, failed⟩ := Option.map_eq_some_iff.mp ran
  refine all s (.of_execBy run) .noLastMessage ?_
  split at failed
  · assumption
  · cases failed

end Station
end Dmn.DMesgNet
