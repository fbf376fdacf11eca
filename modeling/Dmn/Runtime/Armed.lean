import Dmn.Runtime.Timer

/-!
# When the timer is armed

While the main loop is entered, a timed job comes with a timer that is armed in
time, or with a `SIGALRM` that is on its way to the hook. `exitMainLoop`
disarms the timer and swallows a `SIGALRM`, and `enterMainLoop` does not arm it
again: the timed jobs of an earlier round wait for the next insertion.
-/

namespace Dmn.Runtime.Timer

open Dmn.Lib

/-- Part of the start or of the end of a main loop. -/
def Pc.owns : Pc → Bool
  | .clear | .spawn | .unenter | .wake | .join | .disarm true => true
  | _ => false

def Pc.starting : Pc → Bool
  | .clear | .spawn => true
  | _ => false

/-- In `exitMainLoop`, after the main loop has ended. -/
def Pc.left : Pc → Bool
  | .wake | .join | .disarm true => true
  | _ => false

theorem Pc.owns_of_left {p : Pc} (h : p.left) : p.owns := by
  cases p with
  | wake | join => rfl
  | disarm first =>
    cases first with
    | true => rfl
    | false => cases h
  | _ => cases h

/-- Between the two flags. -/
def Pc.turning : Pc → Bool
  | .clear | .unenter => true
  | _ => false

/-- The time that the hook has read. -/
def ExecPc.read? : ExecPc → Option Int
  | .loop tp => some tp
  | _ => none

/-- No call is part-way. -/
def Pc.settled : Pc → Bool
  | .idle | .wait => true
  | _ => false

namespace State

variable {ι : Type} {s s' : State ι} {t : ι} {p : Pc}

/-- The main loop is entered, and no call is starting or ending it. -/
def Open (s : State ι) : Prop := s.mainEnter ∧ s.mainExit = false ∧ ∀ t, (s.pc t).starting = false

instance [Fintype ι] : Decidable s.Open := inferInstanceAs (Decidable (_ ∧ _ ∧ _))

/-- No timed job waits, the timer is armed in time, or a `SIGALRM` is on its way to the hook. -/
def Alert (s : State ι) : Prop :=
  s.timedQueue = [] ∨ (∃ armed ∈ s.timer, ∀ job ∈ s.timedQueue, armed.target ≤ job.due) ∨ s.pending ∨
    s.signalWaitProc = .got ∨ Task.alarm ∈ s.tasks ∨ s.exec ≠ .idle

instance : Decidable s.Alert := inferInstanceAs (Decidable (_ ∨ _ ∨ _ ∨ _ ∨ _ ∨ _))

/-- The start of a main loop finds its timed jobs looked after, no late call of `exitMainLoop` takes
the timer from them, and the hook does not come to a job that `addJob` does not take. -/
def InTime (s : State ι) : Action ι → Prop
  | .run t => (s.pc t = .spawn → ({ s with signalWaitProc := .waiting } : State ι).Alert) ∧
      ∀ first, s.pc t = .disarm first → s.Open → ({ s with timer := none } : State ι).Alert
  | .exec => ∀ tp ∈ s.exec.read?, ∀ job ∈ s.timedQueue.head?, job.due ≤ tp → job.priority ≠ .kSched
  | _ => True

instance [Fintype ι] [DecidableEq ι] : ∀ x : Action ι, Decidable (s.InTime x)
  | .run _ => inferInstanceAs (Decidable ((_ → _) ∧ ∀ _ : Bool, _ → _ → _))
  | .exec => inferInstanceAs (Decidable (∀ tp ∈ s.exec.read?, ∀ job ∈ s.timedQueue.head?, _ → _))
  | .tick _ | .addTimedJob .. | .enterMainLoop _ | .exitMainLoop _ | .expire | .signal => isTrue trivial

structure Kept (s : State ι) : Prop where
  owned : Owned s.owner fun t => (s.pc t).owns
  left : ∀ t, (s.pc t).left → s.mainEnter = false
  turning : s.mainEnter → s.mainExit → ∃ t, (s.pc t).turning
  sorted : s.timedQueue.Pairwise fun a b => a.due ≤ b.due
  arming : ∀ tp, (s.exec = .arm tp ∨ ∃ diff, s.exec = .settime tp diff) → ∀ job ∈ s.timedQueue, tp ≤ job.due
  alert : s.Open → s.Alert
  waits : s.Open → s.signalWaitProc = .waiting ∨ s.signalWaitProc = .got

-- ---------------------------------------------------------------------------
-- A caller moves
-- ---------------------------------------------------------------------------

theorem Alert.mono (h : s.Alert) (hqueue : s'.timedQueue = s.timedQueue) (htimer : s'.timer = s.timer)
    (hpending : s'.pending = s.pending) (hwaits : s.signalWaitProc = .got → s'.signalWaitProc = .got)
    (htasks : s.tasks ⊆ s'.tasks) (hexec : s'.exec = s.exec) : s'.Alert := by
  unfold Alert at h ⊢
  rw [hqueue, htimer, hpending, hexec]
  rcases h with h | h | h | h | h | h
  · exact .inl h
  · exact .inr (.inl h)
  · exact .inr (.inr (.inl h))
  · exact .inr (.inr (.inr (.inl (hwaits h))))
  · exact .inr (.inr (.inr (.inr (.inl (htasks h)))))
  · exact .inr (.inr (.inr (.inr (.inr h))))

/-- What the callers leave to the other threads. -/
structure SameTimed (s s' : State ι) : Prop where
  clock : s'.clock = s.clock
  pending : s'.pending = s.pending
  exec : s'.exec = s.exec
  timedQueue : s'.timedQueue = s.timedQueue
  moved : s'.moved = s.moved

theorem Open.of_moves [DecidableEq ι] (h : s'.Open) (hpc : s'.pc = Function.update s.pc t p)
    (henter : s'.mainEnter = s.mainEnter) (hexit : s'.mainExit = s.mainExit)
    (ht : (s.pc t).starting = false) : s.Open := by
  refine ⟨henter ▸ h.1, hexit ▸ h.2.1, fun u => ?_⟩
  by_cases hu : u = t
  · rw [hu]
    exact ht
  · have hother := h.2.2 u
    rwa [hpc, Function.update_of_ne hu] at hother

section
variable [DecidableEq ι]

/-- What is kept of the places when one thread moves. -/
theorem left_moves (h : ∀ u, (s.pc u).left → s.mainEnter = false) (hp : p.left → s'.mainEnter = false)
    (hpc : s'.pc = Function.update s.pc t p) (henter : s.mainEnter = false → s'.mainEnter = false) (u : ι)
    (hu : (s'.pc u).left) : s'.mainEnter = false := by
  rw [hpc] at hu
  by_cases hut : u = t
  · subst hut
    rw [Function.update_self] at hu
    exact hp hu
  · rw [Function.update_of_ne hut] at hu
    exact henter (h u hu)

theorem turning_moves (h : ∃ u, (s.pc u).turning) (ht : (s.pc t).turning = false)
    (hpc : s'.pc = Function.update s.pc t p) : ∃ u, (s'.pc u).turning := by
  obtain ⟨u, hu⟩ := h
  have hut : u ≠ t := fun heq => by
    rw [heq, ht] at hu
    cases hu
  exact ⟨u, by rw [hpc, Function.update_of_ne hut]; exact hu⟩

/-- A caller moves and changes no flag. -/
theorem Kept.moves (h : s.Kept) (hsame : s.SameTimed s') (hpc : s'.pc = Function.update s.pc t p)
    (henter : s'.mainEnter = s.mainEnter) (hexit : s'.mainExit = s.mainExit) (howner : s'.owner = s.owner)
    (hwaits : s'.signalWaitProc = s.signalWaitProc) (htimer : s'.timer = s.timer) (htasks : s.tasks ⊆ s'.tasks)
    (howns : p.owns = (s.pc t).owns) (hp : p.left = false) (hturning : (s.pc t).turning = false)
    (hstarting : (s.pc t).starting = false) : s'.Kept where
  owned := by
    rw [howner, hpc]
    exact h.owned.move howns
  left := left_moves h.left (by simp [hp]) hpc (henter ▸ id)
  turning h₁ h₂ := turning_moves (h.turning (henter ▸ h₁) (hexit ▸ h₂)) hturning hpc
  sorted := hsame.timedQueue ▸ h.sorted
  arming := by
    rw [hsame.exec, hsame.timedQueue]
    exact h.arming
  alert hopen := (h.alert (hopen.of_moves hpc henter hexit hstarting)).mono hsame.timedQueue htimer
    hsame.pending (fun hgot => hwaits.trans hgot) htasks hsame.exec
  waits hopen := by
    rw [hwaits]
    exact h.waits (hopen.of_moves hpc henter hexit hstarting)

theorem Kept.run (h : s.Kept) (hok : s.InTime (.run t)) (hs : s.run t = some s') : s'.Kept := by
  simp only [State.run] at hs
  split at hs
  · cases hs
  · rename_i priority due hpc
    obtain rfl := Option.some.inj hs
    exact h.moves (t := t) ⟨rfl, rfl, rfl, rfl, rfl⟩ rfl rfl rfl rfl rfl rfl (List.subset_append_left _ _)
      (by rw [hpc]; rfl) rfl (by rw [hpc]; rfl) (by rw [hpc]; rfl)
  · rename_i hpc
    split at hs
    · cases hs
    · rename_i howner
      obtain rfl := Option.some.inj hs
      split
      · exact h.moves (t := t) ⟨rfl, rfl, rfl, rfl, rfl⟩ rfl rfl rfl rfl rfl rfl (List.Subset.refl _)
          (by rw [hpc]; rfl) rfl (by rw [hpc]; rfl) (by rw [hpc]; rfl)
      · have hstarting : ¬({ s with mainEnter := true, owner := some t }.goto t .clear : State ι).Open :=
          fun hopen => by simpa [goto, Pc.starting] using hopen.2.2 t
        refine ⟨h.owned.moveTake howner rfl, fun u hu => ?_, fun _ _ => ⟨t, ?_⟩, h.sorted, h.arming,
          fun hopen => absurd hopen hstarting, fun hopen => absurd hopen hstarting⟩
        · -- Nobody has the mutex, so nobody is leaving.
          exfalso
          have hne : u ≠ t := fun heq => by
            subst heq
            simp [goto, Pc.left] at hu
          simp only [goto, Function.update_of_ne hne] at hu
          exact h.owned.free howner (Pc.owns_of_left hu)
        · simp [goto, Pc.turning]
  · rename_i hpc
    obtain rfl := Option.some.inj hs
    have hstarting : ¬({ s with mainExit := false }.goto t .spawn : State ι).Open :=
      fun hopen => by simpa [goto, Pc.starting] using hopen.2.2 t
    exact ⟨h.owned.move (by rw [hpc]; rfl), left_moves (t := t) h.left (by simp [Pc.left]) rfl id,
      (fun _ hexit => by cases hexit), h.sorted, h.arming, fun hopen => absurd hopen hstarting,
      fun hopen => absurd hopen hstarting⟩
  · rename_i hpc
    obtain rfl := Option.some.inj hs
    refine ⟨h.owned.moveDrop (by simp [hpc, Pc.owns]) rfl, left_moves (t := t) h.left (by
      simp [Pc.left]) rfl id,
      fun h₁ h₂ => turning_moves (t := t) (h.turning h₁ h₂) (by rw [hpc]; rfl) rfl, h.sorted, h.arming,
      fun _ => (hok.1 hpc).mono rfl rfl rfl id (List.Subset.refl _) rfl, fun _ => .inl rfl⟩
  · rename_i hpc
    split at hs
    · obtain rfl := Option.some.inj hs
      exact h.moves (t := t) ⟨rfl, rfl, rfl, rfl, rfl⟩ rfl rfl rfl rfl rfl rfl (List.Subset.refl _)
        (by rw [hpc]; rfl) rfl (by rw [hpc]; rfl) (by rw [hpc]; rfl)
    · cases hs
  · rename_i hpc
    split at hs
    · obtain rfl := Option.some.inj hs
      exact h.moves (t := t) ⟨rfl, rfl, rfl, rfl, rfl⟩ rfl rfl rfl rfl rfl rfl (List.Subset.refl _)
        (by rw [hpc]; rfl) rfl (by rw [hpc]; rfl) (by rw [hpc]; rfl)
    · split at hs
      · cases hs
      · rename_i howner
        obtain rfl := Option.some.inj hs
        exact ⟨h.owned.moveTake howner rfl, left_moves (t := t) h.left (by simp [Pc.left]) rfl id,
          fun _ _ => ⟨t, by simp [goto, Pc.turning]⟩, h.sorted, h.arming, (fun hopen => by cases hopen.2.1),
          (fun hopen => by cases hopen.2.1)⟩
  · rename_i hpc
    obtain rfl := Option.some.inj hs
    exact ⟨h.owned.move (by rw [hpc]; rfl), fun _ _ => rfl, nofun, h.sorted, h.arming,
      (fun hopen => by cases hopen.1), (fun hopen => by cases hopen.1)⟩
  · rename_i hpc
    obtain rfl := Option.some.inj hs
    have hleft : s.mainEnter = false := h.left t (by rw [hpc]; rfl)
    have hclosed : ¬((s.setNextTimer (s.clock + 10000) 10000).goto t .join).Open := fun hopen => by
      have henter : s.mainEnter = true := hopen.1
      rw [hleft] at henter
      cases henter
    exact ⟨h.owned.move (by rw [hpc]; rfl), left_moves (t := t) h.left (fun _ => hleft) rfl id,
      fun h₁ h₂ => turning_moves (t := t) (h.turning h₁ h₂) (by rw [hpc]; rfl) rfl, h.sorted, h.arming,
      fun hopen => absurd hopen hclosed, fun hopen => absurd hopen hclosed⟩
  · rename_i hpc
    have hleft : s.mainEnter = false := h.left t (by rw [hpc]; rfl)
    have hjoin : some ({ s with signalWaitProc := .none }.goto t (.disarm true)) = some s' → s'.Kept :=
      fun hs => by
      obtain rfl := Option.some.inj hs
      have hclosed : ¬({ s with signalWaitProc := .none }.goto t (.disarm true) : State ι).Open :=
        fun hopen => by
        have henter : s.mainEnter = true := hopen.1
        rw [hleft] at henter
        cases henter
      exact ⟨h.owned.move (by rw [hpc]; rfl), left_moves (t := t) h.left (fun _ => hleft) rfl id,
        fun h₁ h₂ => turning_moves (t := t) (h.turning h₁ h₂) (by rw [hpc]; rfl) rfl, h.sorted, h.arming,
        fun hopen => absurd hopen hclosed, fun hopen => absurd hopen hclosed⟩
    split at hs
    · exact hjoin hs
    · exact hjoin hs
    · cases hs
    · cases hs
  · rename_i first hpc
    obtain rfl := Option.some.inj hs
    have hstarting : (s.pc t).starting = false := by rw [hpc]; rfl
    refine ⟨?_, left_moves (t := t) h.left (by simp [Pc.left]) rfl id,
      fun h₁ h₂ => turning_moves (t := t) (h.turning h₁ h₂) (by rw [hpc]; rfl) rfl, h.sorted, h.arming,
      fun hopen => ?_, fun hopen => h.waits (hopen.of_moves (t := t) rfl rfl rfl hstarting)⟩
    · cases first with
      | true => exact h.owned.moveDrop (by rw [hpc]; rfl) rfl
      | false => exact h.owned.move (by rw [hpc]; rfl)
    · exact (hok.2 first hpc (hopen.of_moves (t := t) rfl rfl rfl hstarting)).mono rfl rfl rfl id
        (List.Subset.refl _) rfl

end

-- ---------------------------------------------------------------------------
-- The other threads move
-- ---------------------------------------------------------------------------

theorem Kept.threads (h : s.Kept) (hpc : s'.pc = s.pc) (henter : s'.mainEnter = s.mainEnter)
    (hexit : s'.mainExit = s.mainExit) (howner : s'.owner = s.owner)
    (hsorted : s'.timedQueue.Pairwise fun a b => a.due ≤ b.due)
    (harming : ∀ tp, (s'.exec = .arm tp ∨ ∃ diff, s'.exec = .settime tp diff) → ∀ job ∈ s'.timedQueue,
    tp ≤ job.due)
    (halert : s.Alert → s'.Alert)
    (hwaits : s.signalWaitProc = .waiting ∨ s.signalWaitProc = .got →
      s'.signalWaitProc = .waiting ∨ s'.signalWaitProc = .got ∨ s.mainExit) : s'.Kept := by
  have hopen : s'.Open → s.Open := fun hopen => ⟨henter ▸ hopen.1, hexit ▸ hopen.2.1, hpc ▸ hopen.2.2⟩
  refine ⟨by rw [howner, hpc]; exact h.owned, by rw [hpc, henter]; exact h.left,
    by rw [hpc, henter, hexit]; exact h.turning, hsorted, harming, fun h' => halert (h.alert (hopen h')),
    fun h' => ?_⟩
  rcases hwaits (h.waits (hopen h')) with hw | hw | hw
  · exact .inl hw
  · exact .inr hw
  · rw [(hopen h').2.1] at hw
    cases hw

theorem Kept.expire (h : s.Kept) (hs : s.expire = some s') : s'.Kept := by
  unfold State.expire at hs
  split at hs
  · split at hs
    · obtain rfl := Option.some.inj hs
      exact h.threads rfl rfl rfl rfl h.sorted h.arming (fun _ => .inr (.inr (.inl rfl)))
        (fun hw => hw.imp_right .inl)
    · cases hs
  · cases hs

theorem Kept.signal (h : s.Kept) (hs : s.signal = some s') : s'.Kept := by
  unfold State.signal at hs
  split at hs
  · rename_i hwaits
    split at hs
    · obtain rfl := Option.some.inj hs
      exact h.threads rfl rfl rfl rfl h.sorted h.arming (fun _ => .inr (.inr (.inr (.inl rfl))))
        (fun _ => .inr (.inl rfl))
    · cases hs
  · rename_i hgot
    obtain rfl := Option.some.inj hs
    split
    · rename_i hexit
      refine ⟨h.owned, h.left, h.turning, h.sorted, h.arming, fun hopen => ?_, fun hopen => ?_⟩
      all_goals
        have hfalse : s.mainExit = false := hopen.2.1
        rw [hfalse] at hexit
        cases hexit
    · exact h.threads rfl rfl rfl rfl h.sorted h.arming
        (fun _ => .inr (.inr (.inr (.inr (.inl (List.mem_append_right _ (List.mem_singleton_self _)))))))
        (fun _ => .inl rfl)
  · cases hs
  · cases hs

theorem pushTimed_ne_nil (job : TimedJob) (queue : List TimedJob) : pushTimed job queue ≠ [] := fun hnil => by
  have hmem := (List.perm_orderedInsert (fun a b : TimedJob => a.due ≤ b.due) job queue).length_eq
  rw [show queue.orderedInsert (fun a b => a.due ≤ b.due) job = [] from hnil] at hmem
  cases hmem

theorem sorted_pushTimed (job : TimedJob) {queue : List TimedJob}
    (h : queue.Pairwise fun a b => a.due ≤ b.due) : (pushTimed job queue).Pairwise fun a b => a.due ≤
    b.due := by
  have : Std.Total fun a b : TimedJob => a.due ≤ b.due := ⟨fun a b => le_total a.due b.due⟩
  have : IsTrans TimedJob fun a b => a.due ≤ b.due := ⟨fun _ _ _ => le_trans⟩
  exact h.orderedInsert job queue

theorem Kept.exec (h : s.Kept) (hok : s.InTime .exec) (hs : s.execTask = some s') : s'.Kept := by
  unfold execTask at hs
  split at hs
  · split at hs
    · cases hs
    · rename_i job tasks htasks
      obtain rfl := Option.some.inj hs
      have hsorted := sorted_pushTimed job h.sorted
      split
      · rename_i top rest hqueue
        refine h.threads rfl rfl rfl rfl hsorted (fun tp htp => ?_)
          (fun _ => .inr (.inr (.inr (.inr (.inr (by simp)))))) (fun hw => hw.imp_right .inl)
        obtain rfl : top.due = tp := by simpa using htp
        intro job' hjob'
        rw [hqueue] at hsorted hjob'
        rcases List.mem_cons.mp hjob' with rfl | hjob'
        · exact le_rfl
        · exact (List.pairwise_cons.mp hsorted).1 job' hjob'
      · rename_i hqueue
        exact absurd hqueue (pushTimed_ne_nil _ _)
    · rename_i tasks htasks
      obtain rfl := Option.some.inj hs
      exact h.threads rfl rfl rfl rfl h.sorted (by simp) (fun _ => .inr (.inr (.inr (.inr (.inr (by simp))))))
        (fun hw => hw.imp_right .inl)
  · obtain rfl := Option.some.inj hs
    by_cases hempty : s.timedQueue = []
    · exact h.threads rfl rfl rfl rfl h.sorted (by simp [hempty]) (fun _ => .inl hempty)
        (fun hw => hw.imp_right .inl)
    · refine h.threads rfl rfl rfl rfl h.sorted (by simp [hempty])
        (fun _ => .inr (.inr (.inr (.inr (.inr ?_))))) (fun hw => hw.imp_right .inl)
      simp [hempty]
  · rename_i tp hexec
    obtain rfl := Option.some.inj hs
    split
    · rename_i hqueue
      exact h.threads rfl rfl rfl rfl h.sorted (by simp) (fun _ => .inl hqueue) (fun hw => hw.imp_right .inl)
    · rename_i job timedQueue hqueue
      have hsorted := h.sorted
      rw [hqueue] at hsorted
      split
      · rename_i hdue
        have hpriority : job.priority ≠ .kSched := hok tp (by rw [hexec]; rfl) job (by rw [hqueue]; rfl) hdue
        rw [if_neg hpriority]
        exact h.threads rfl rfl rfl rfl (List.pairwise_cons.mp hsorted).2 (by simp [hexec])
          (fun _ => .inr (.inr (.inr (.inr (.inr (by simp [hexec])))))) (fun hw => hw.imp_right .inl)
      · refine h.threads rfl rfl rfl rfl h.sorted (fun tp' htp' => ?_)
          (fun _ => .inr (.inr (.inr (.inr (.inr (by simp)))))) (fun hw => hw.imp_right .inl)
        obtain rfl : job.due = tp' := by simpa using htp'
        intro job' hjob'
        rw [show ({ s with exec := .arm job.due } : State ι).timedQueue = s.timedQueue from rfl,
          hqueue] at hjob'
        rcases List.mem_cons.mp hjob' with rfl | hjob'
        · exact le_rfl
        · exact (List.pairwise_cons.mp hsorted).1 job' hjob'
  · rename_i tp hexec
    obtain rfl := Option.some.inj hs
    refine h.threads rfl rfl rfl rfl h.sorted (fun tp' htp' => ?_)
      (fun _ => .inr (.inr (.inr (.inr (.inr (by simp)))))) (fun hw => hw.imp_right .inl)
    obtain rfl : tp = tp' := by simpa using htp'
    exact h.arming tp (.inl hexec)
  · rename_i tp diff hexec
    obtain rfl := Option.some.inj hs
    exact h.threads rfl rfl rfl rfl h.sorted (by simp)
      (fun _ => .inr (.inl ⟨_, rfl, h.arming tp (.inr ⟨diff, hexec⟩)⟩)) (fun hw => hw.imp_right .inl)

theorem Kept.empty : ({} : State ι).Kept :=
  ⟨fun t => by simp [Pc.owns], nofun, nofun, .nil, nofun, fun _ => .inl rfl, fun hopen => by cases hopen.1⟩

theorem Kept.step [DecidableEq ι] {x : Action ι} (h : s.Kept) (hok : s.InTime x) (hs : s.step x = some s') :
    s'.Kept := by
  have hcall : ∀ {t p}, s.pc t = .idle → p.owns = false → p.left = false → (s.goto t p).Kept :=
    fun {t p} hpc howns hleft => h.moves (t := t) ⟨rfl, rfl, rfl, rfl, rfl⟩ rfl rfl rfl rfl rfl rfl
      (List.Subset.refl _) (by rw [hpc]; exact howns) hleft (by rw [hpc]; rfl) (by rw [hpc]; rfl)
  cases x with
  | tick elapsed =>
    obtain rfl := Option.some.inj hs
    exact h.threads rfl rfl rfl rfl h.sorted h.arming id (fun hw => hw.imp_right .inl)
  | addTimedJob t priority duration =>
    simp only [State.step] at hs
    split at hs
    · rename_i hpc
      obtain rfl := Option.some.inj hs
      exact hcall hpc rfl rfl
    · cases hs
  | enterMainLoop t =>
    simp only [State.step] at hs
    split at hs
    · rename_i hpc
      obtain rfl := Option.some.inj hs
      exact hcall hpc rfl rfl
    · cases hs
  | exitMainLoop t =>
    simp only [State.step] at hs
    split at hs
    · rename_i hpc
      obtain rfl := Option.some.inj hs
      exact hcall hpc rfl rfl
    · cases hs
  | run t => exact h.run hok hs
  | expire => exact h.expire hs
  | signal => exact h.signal hs
  | exec => exact h.exec hok hs

-- ---------------------------------------------------------------------------
-- Where the jobs are
-- ---------------------------------------------------------------------------

/-- The jobs that wait for their insertion. -/
def inserts (tasks : List Task) : List TimedJob :=
  tasks.filterMap fun
    | .insert job => some job
    | .alarm => none

@[simp] theorem inserts_nil : inserts [] = [] := rfl

@[simp] theorem inserts_append (tasks tasks' : List Task) : inserts (tasks ++ tasks') = inserts tasks ++
    inserts tasks' :=
  List.filterMap_append

@[simp] theorem inserts_insert (job : TimedJob) (tasks : List Task) : inserts (.insert job :: tasks) =
    job :: inserts tasks :=
  rfl

@[simp] theorem inserts_alarm (tasks : List Task) : inserts (.alarm :: tasks) = inserts tasks := rfl

structure Accounted (s : State ι) : Prop where
  numbers : s.added.map TimedJob.number = List.range s.added.length
  places : s.added.Perm (inserts s.tasks ++ s.timedQueue ++ s.moved.map Prod.fst)
  read : ∀ tp, s.exec = .loop tp → tp ≤ s.clock
  due : ∀ move ∈ s.moved, move.1.due ≤ move.2 ∧ move.2 ≤ s.clock

theorem Accounted.same (h : s.Accounted) (hsame : s.SameTimed s') (hadded : s'.added = s.added)
    (hinserts : inserts s'.tasks = inserts s.tasks) : s'.Accounted := by
  refine ⟨hadded ▸ h.numbers, ?_, ?_, ?_⟩
  · rw [hadded, hinserts, hsame.timedQueue, hsame.moved]
    exact h.places
  · rw [hsame.exec, hsame.clock]
    exact h.read
  · rw [hsame.moved, hsame.clock]
    exact h.due

/-- A caller leaves the jobs alone, or adds one and posts its insertion. -/
theorem run_does [DecidableEq ι] (hs : s.run t = some s') :
    s.SameTimed s' ∧ (s'.tasks = s.tasks ∧ s'.added = s.added ∨
      ∃ job, job.number = s.added.length ∧ s'.tasks = s.tasks ++ [.insert job] ∧ s'.added = s.added ++
        [job]) := by
  simp only [State.run] at hs
  split at hs
  · cases hs
  · obtain rfl := Option.some.inj hs
    exact ⟨⟨rfl, rfl, rfl, rfl, rfl⟩, .inr ⟨_, rfl, rfl, rfl⟩⟩
  · split at hs
    · cases hs
    · obtain rfl := Option.some.inj hs
      split <;> exact ⟨⟨rfl, rfl, rfl, rfl, rfl⟩, .inl ⟨rfl, rfl⟩⟩
  · obtain rfl := Option.some.inj hs
    exact ⟨⟨rfl, rfl, rfl, rfl, rfl⟩, .inl ⟨rfl, rfl⟩⟩
  · obtain rfl := Option.some.inj hs
    exact ⟨⟨rfl, rfl, rfl, rfl, rfl⟩, .inl ⟨rfl, rfl⟩⟩
  · split at hs
    · obtain rfl := Option.some.inj hs
      exact ⟨⟨rfl, rfl, rfl, rfl, rfl⟩, .inl ⟨rfl, rfl⟩⟩
    · cases hs
  · split at hs
    · obtain rfl := Option.some.inj hs
      exact ⟨⟨rfl, rfl, rfl, rfl, rfl⟩, .inl ⟨rfl, rfl⟩⟩
    · split at hs
      · cases hs
      · obtain rfl := Option.some.inj hs
        exact ⟨⟨rfl, rfl, rfl, rfl, rfl⟩, .inl ⟨rfl, rfl⟩⟩
  · obtain rfl := Option.some.inj hs
    exact ⟨⟨rfl, rfl, rfl, rfl, rfl⟩, .inl ⟨rfl, rfl⟩⟩
  · obtain rfl := Option.some.inj hs
    exact ⟨⟨rfl, rfl, rfl, rfl, rfl⟩, .inl ⟨rfl, rfl⟩⟩
  · split at hs
    · obtain rfl := Option.some.inj hs
      exact ⟨⟨rfl, rfl, rfl, rfl, rfl⟩, .inl ⟨rfl, rfl⟩⟩
    · obtain rfl := Option.some.inj hs
      exact ⟨⟨rfl, rfl, rfl, rfl, rfl⟩, .inl ⟨rfl, rfl⟩⟩
    · cases hs
    · cases hs
  · obtain rfl := Option.some.inj hs
    exact ⟨⟨rfl, rfl, rfl, rfl, rfl⟩, .inl ⟨rfl, rfl⟩⟩

theorem Accounted.run [DecidableEq ι] (h : s.Accounted) (hs : s.run t = some s') : s'.Accounted := by
  obtain ⟨hsame, ⟨htasks, hadded⟩ | ⟨job, hnumber, htasks, hadded⟩⟩ := run_does hs
  · exact h.same hsame hadded (congrArg inserts htasks)
  · refine ⟨?_, ?_, ?_, ?_⟩
    · rw [hadded, List.map_append, h.numbers, List.length_append, List.length_singleton, List.range_succ,
        List.map_singleton, hnumber]
    · rw [hadded, htasks, hsame.timedQueue, hsame.moved, inserts_append]
      refine List.perm_iff_count.mpr fun a => ?_
      have hcount := h.places.count_eq a
      simp only [List.count_append, inserts_insert, inserts_nil] at hcount ⊢
      omega
    · rw [hsame.exec, hsame.clock]
      exact h.read
    · rw [hsame.moved, hsame.clock]
      exact h.due

theorem Accounted.exec (h : s.Accounted) (hs : s.execTask = some s') : s'.Accounted := by
  have hkeep : ∀ {s'' : State ι}, s''.added = s.added → inserts s''.tasks = inserts s.tasks →
      s''.timedQueue = s.timedQueue → s''.moved = s.moved → s''.clock = s.clock →
      (∀ tp, s''.exec = .loop tp → tp ≤ s.clock) → s''.Accounted := by
    intro s'' h₁ h₂ h₃ h₄ h₅ h₆
    exact ⟨h₁ ▸ h.numbers, by rw [h₁, h₂, h₃, h₄]; exact h.places, by rw [h₅]; exact h₆,
      by rw [h₄, h₅]; exact h.due⟩
  unfold execTask at hs
  split at hs
  · split at hs
    · cases hs
    · rename_i job tasks htasks
      obtain rfl := Option.some.inj hs
      refine ⟨h.numbers, ?_, fun tp htp => ?_, h.due⟩
      · refine List.perm_iff_count.mpr fun a => ?_
        have hcount := h.places.count_eq a
        have hpush := (List.perm_orderedInsert (fun a b : TimedJob => a.due ≤ b.due) job
          s.timedQueue).count_eq a
        simp only [htasks, List.count_append, inserts_insert, List.count_cons, pushTimed] at hcount hpush ⊢
        omega
      · dsimp only at htp
        split at htp <;> cases htp
    · rename_i tasks htasks
      obtain rfl := Option.some.inj hs
      exact hkeep rfl (by rw [htasks]; rfl) rfl rfl rfl nofun
  · obtain rfl := Option.some.inj hs
    refine hkeep rfl rfl rfl rfl rfl fun tp htp => ?_
    dsimp only at htp
    split at htp
    · cases htp
    · cases htp
      exact le_rfl
  · rename_i tp hexec
    obtain rfl := Option.some.inj hs
    split
    · exact hkeep rfl rfl rfl rfl rfl nofun
    · rename_i job timedQueue hqueue
      split
      · rename_i hdue
        split
        · exact hkeep rfl rfl rfl rfl rfl nofun
        · refine ⟨h.numbers, ?_, h.read, fun move hmove => ?_⟩
          · refine List.perm_iff_count.mpr fun a => ?_
            have hcount := h.places.count_eq a
            simp only [hqueue, List.count_append, List.count_cons, List.map_append, List.map_cons, List.map_nil,
              List.count_nil] at hcount ⊢
            omega
          · rcases List.mem_append.mp hmove with hmove | hmove
            · exact h.due move hmove
            · obtain rfl := List.mem_singleton.mp hmove
              exact ⟨hdue, h.read tp hexec⟩
      · exact hkeep rfl rfl rfl rfl rfl nofun
  · obtain rfl := Option.some.inj hs
    exact hkeep rfl rfl rfl rfl rfl nofun
  · obtain rfl := Option.some.inj hs
    exact hkeep rfl rfl rfl rfl rfl nofun

theorem Accounted.step [DecidableEq ι] {x : Action ι} (h : s.Accounted) (hs : s.step x = some s') :
    s'.Accounted := by
  have hcall : ∀ {t p}, (s.goto t p).Accounted := h.same ⟨rfl, rfl, rfl, rfl, rfl⟩ rfl rfl
  cases x with
  | tick elapsed =>
    obtain rfl := Option.some.inj hs
    have hclock : s.clock ≤ s.clock + elapsed := by omega
    exact ⟨h.numbers, h.places, fun tp htp => (h.read tp htp).trans hclock,
      fun move hmove => ⟨(h.due move hmove).1, (h.due move hmove).2.trans hclock⟩⟩
  | addTimedJob t priority duration =>
    simp only [State.step] at hs
    split at hs
    · obtain rfl := Option.some.inj hs
      exact hcall
    · cases hs
  | enterMainLoop t =>
    simp only [State.step] at hs
    split at hs
    · obtain rfl := Option.some.inj hs
      exact hcall
    · cases hs
  | exitMainLoop t =>
    simp only [State.step] at hs
    split at hs
    · obtain rfl := Option.some.inj hs
      exact hcall
    · cases hs
  | run t => exact h.run hs
  | expire =>
    simp only [State.step, State.expire] at hs
    split at hs
    · split at hs
      · obtain rfl := Option.some.inj hs
        exact ⟨h.numbers, h.places, h.read, h.due⟩
      · cases hs
    · cases hs
  | signal =>
    simp only [State.step, State.signal] at hs
    split at hs
    · split at hs
      · obtain rfl := Option.some.inj hs
        exact ⟨h.numbers, h.places, h.read, h.due⟩
      · cases hs
    · obtain rfl := Option.some.inj hs
      split
      · exact ⟨h.numbers, h.places, h.read, h.due⟩
      · exact ⟨h.numbers, by simpa using h.places, h.read, h.due⟩
    · cases hs
    · cases hs
  | exec => exact h.exec hs

theorem Accounted.empty : ({} : State ι).Accounted := ⟨rfl, .nil, nofun, nofun⟩

-- ---------------------------------------------------------------------------
-- Runs
-- ---------------------------------------------------------------------------

theorem accounted [DecidableEq ι] (h : Reaches step ({} : State ι) s) : s.Accounted :=
  h.invariant (I := Accounted) .empty fun hI _ hs => hI.step hs

theorem kept [DecidableEq ι] (h : ReachesBy step InTime ({} : State ι) s) : s.Kept :=
  h.invariant (I := Kept) .empty fun hI hok hs => hI.step hok hs

/-- With no call part-way the main loop is open. -/
theorem Kept.isOpen (h : s.Kept) (henter : s.mainEnter) (hsettled : ∀ t, (s.pc t).settled) : s.Open := by
  have hplace : ∀ t, (s.pc t).starting = false ∧ (s.pc t).turning = false := fun t => by
    have ht := hsettled t
    cases hpc : s.pc t <;> simp_all [Pc.settled, Pc.starting, Pc.turning]
  refine ⟨henter, ?_, fun t => (hplace t).1⟩
  cases hexit : s.mainExit with
  | false => rfl
  | true =>
    obtain ⟨t, ht⟩ := h.turning henter hexit
    rw [(hplace t).2] at ht
    cases ht

/-- Either another thread goes on, or the timer has not gone off yet. -/
def Progresses [DecidableEq ι] (s : State ι) : Prop :=
  (s.step .expire).isSome ∨ (s.step .signal).isSome ∨ (s.step .exec).isSome ∨ ∃ armed ∈ s.timer,
    s.clock < armed.fires

theorem Kept.progresses [DecidableEq ι] (h : s.Kept) (hopen : s.Open) (hjob : s.timedQueue ≠ []) :
    s.Progresses := by
  have hexec : s.exec ≠ .idle → (s.step .exec).isSome := fun hne => by
    simp only [State.step, execTask]
    split
    · exact absurd ‹_› hne
    all_goals rfl
  rcases h.alert hopen with halert | ⟨armed, htimer, -⟩ | halert | halert | halert | halert
  · exact absurd halert hjob
  · by_cases hfires : armed.fires ≤ s.clock
    · refine .inl ?_
      simp [State.step, State.expire, Option.mem_def.mp htimer, hfires]
    · exact .inr (.inr (.inr ⟨armed, htimer, by omega⟩))
  · refine .inr (.inl ?_)
    rcases h.waits hopen with hwaits | hwaits <;> simp [State.step, State.signal, hwaits, halert]
  · refine .inr (.inl ?_)
    simp [State.step, State.signal, halert]
  · refine .inr (.inr (.inl ?_))
    by_cases hidle : s.exec = .idle
    · cases htasks : s.tasks with
      | nil =>
        rw [htasks] at halert
        cases halert
      | cons task tasks => cases task <;> simp [State.step, execTask, hidle, htasks]
    · exact hexec hidle
  · exact .inr (.inr (.inl (hexec halert)))

theorem armed [DecidableEq ι] (h : ReachesBy step InTime ({} : State ι) s) :
    (s.mainEnter → (∀ t, (s.pc t).settled) → s.timedQueue ≠ [] →
      ((∃ armed ∈ s.timer, ∀ job ∈ s.timedQueue, armed.target ≤ job.due) ∨ s.pending ∨ s.signalWaitProc = .got ∨
        Task.alarm ∈ s.tasks ∨ s.exec ≠ .idle) ∧ s.Progresses) ∧
    (s.added.map TimedJob.number).Nodup ∧
      s.added.Perm (inserts s.tasks ++ s.timedQueue ++ s.moved.map Prod.fst) ∧
      ∀ move ∈ s.moved, move.1.due ≤ move.2 ∧ move.2 ≤ s.clock := by
  have haccounted := accounted h.reaches
  refine ⟨fun henter hsettled hjob => ?_, haccounted.numbers ▸ List.nodup_range, haccounted.places,
    haccounted.due⟩
  have hopen := (kept h).isOpen henter hsettled
  exact ⟨((kept h).alert hopen).resolve_left hjob, (kept h).progresses hopen hjob⟩

/-- A job is moved, and another one comes after it. -/
theorem armed_moved :
    ∃ s : State (Fin 2), ReachesBy step InTime {} s ∧ s.moved.length = 1 ∧ s.timedQueue.length = 1 ∧
      s.timer = some ⟨30000, 30000⟩ ∧ ∀ move ∈ s.moved, move.1.due ≤ move.2 ∧ move.2 ≤ s.clock := by
  let calls : List (Action (Fin 2)) :=
    [.enterMainLoop 1, .run 1, .run 1, .run 1, .addTimedJob 0 .kLow 30000, .run 0, .exec, .exec, .exec,
      .addTimedJob 0 .kHigh 20000, .run 0, .exec, .exec, .exec, .tick 20000, .expire, .signal, .signal,
      .exec, .exec, .exec, .exec, .exec, .exec]
  have h : ReachesBy step InTime ({} : State (Fin 2)) ((execBy step InTime {} calls).getD {}) :=
    .of_isSome_by calls (by decide)
  exact ⟨_, h, by decide, by decide, by decide, (armed h).2.2.2⟩

/-- A timed job is in the queue when a round ends and the next one starts. -/
theorem timer_disarmed :
    ∃ s : State (Fin 2), Reaches step {} s ∧ s.mainEnter ∧ (∀ t, (s.pc t).settled) ∧ s.timedQueue ≠ [] ∧
      s.timer = none ∧ s.pending = false ∧ s.signalWaitProc ≠ .got ∧ s.tasks = [] ∧ s.exec = .idle := by
  let calls : List (Action (Fin 2)) :=
    [.enterMainLoop 1, .run 1, .run 1, .run 1, .addTimedJob 0 .kMedium 30000, .run 0, .exec, .exec, .exec,
      .exitMainLoop 0, .run 0, .run 0, .run 0, .tick 10000, .expire, .signal, .signal, .run 0, .run 0, .run 1,
      .enterMainLoop 1, .run 1, .run 1, .run 1]
  have h : Reaches step ({} : State (Fin 2)) ((Lib.exec step {} calls).getD {}) :=
    .of_isSome calls (by decide)
  exact ⟨_, h, by decide⟩

end State
end Dmn.Runtime.Timer
