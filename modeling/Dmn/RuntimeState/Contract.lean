import Dmn.RuntimeState.Submission

/-!
# The contract of a runtime state

What a caller of `run`, `cancel` and `shutdown` can rely on while every posting
succeeds: one outcome and its hook, one callback a dispatch, no second
submission, a job for every retained state, and a `shutdown` that waits for
what it has found.
-/

namespace Dmn.RuntimeState

open Dmn.Lib

variable {σ : Type}

/-- In the clean-up after a posting that has failed. -/
def ExecPc.undoes : ExecPc σ → Bool
  | .unretain _ | .reset _ => true
  | _ => false

theorem ExecPc.reset?_of_undoes {p : ExecPc σ} (h : p.undoes = false) : p.reset? = none := by
  cases p with
  | reset x => cases h
  | _ => rfl

/-- In the first half of `shutdown`: what it then waits for. -/
def Pc.cancelling : Pc σ → Option (List σ)
  | .cancels _ pending | .complete _ _ pending | .hook _ _ _ pending => pending
  | _ => none

namespace State

variable {ι : Type} [DecidableEq σ] {s s' : State ι σ} {t : ι} {p : Pc σ} {x y : σ} {callbacks next : σ → Nat}

-- ---------------------------------------------------------------------------
-- Frames
-- ---------------------------------------------------------------------------

/-- A caller leaves the async thread and the other callers alone, and takes no outcome back. -/
structure Calls (s s' : State ι σ) (t : ι) : Prop where
  exec : s'.exec = s.exec
  dispatches : s'.dispatches = s.dispatches
  others : ∀ u ≠ t, s'.pc u = s.pc u
  lasts : ∀ y, (s.life y).terminal → (s'.life y).terminal

omit [DecidableEq σ] in
theorem Calls.goto [DecidableEq ι] (hexec : s'.exec = s.exec) (hdispatches : s'.dispatches = s.dispatches)
    (hpc : s'.pc = Function.update s.pc t p) (hlasts : ∀ y, (s.life y).terminal → (s'.life y).terminal) :
    s.Calls s' t :=
  ⟨hexec, hdispatches, fun u hu => by rw [hpc, Function.update_of_ne hu], hlasts⟩

theorem thread_calls [DecidableEq ι] {throws : Bool} (hs : s.thread t throws = some s') : s.Calls s' t := by
  have hlife : ∀ {x l}, (s.life x).Becomes l → ∀ y, (s.life y).terminal → ((s.setLife x l).life y).terminal :=
    fun h y => (becomes_setLife s h y).terminal
  simp only [State.thread] at hs
  split at hs
  · cases hs
  · obtain rfl := Option.some.inj hs
    split
    · exact .goto rfl rfl rfl fun _ => id
    · rename_i l hl
      exact .goto rfl rfl rfl (hlife (Life.submit_becomes hl))
  · obtain rfl := Option.some.inj hs
    split
    · exact .goto rfl rfl rfl fun _ => id
    · rename_i s'' henqueue
      rcases enqueueState_eq henqueue with ⟨-, rfl⟩ | ⟨-, -, rfl⟩ <;> exact .goto rfl rfl rfl fun _ => id
  · obtain rfl := Option.some.inj hs
    split <;> exact .goto rfl rfl rfl fun _ => id
  · obtain rfl := Option.some.inj hs
    exact .goto rfl rfl rfl fun _ => id
  · obtain rfl := Option.some.inj hs
    exact .goto rfl rfl rfl (hlife (Life.reset_becomes _))
  · obtain rfl := Option.some.inj hs
    exact .goto rfl rfl rfl fun _ => id
  · obtain rfl := Option.some.inj hs
    exact .goto rfl rfl rfl fun _ => id
  · obtain rfl := Option.some.inj hs
    split
    · exact .goto rfl rfl rfl fun _ => id
    · rename_i l completeNow hl
      exact .goto rfl rfl rfl (hlife (Life.cancel_becomes hl))
  · obtain rfl := Option.some.inj hs
    split
    · exact .goto rfl rfl rfl fun _ => id
    · rename_i l o hl
      exact .goto rfl rfl rfl (hlife (Life.complete_becomes hl))
  · obtain rfl := Option.some.inj hs
    exact .goto rfl rfl rfl fun _ => id
  · obtain rfl := Option.some.inj hs
    exact .goto rfl rfl rfl fun _ => id
  · split at hs
    · obtain rfl := Option.some.inj hs
      exact .goto rfl rfl rfl fun _ => id
    · cases hs

/-- The async thread leaves the callers alone, and takes no outcome back. -/
theorem executeStateStep_keeps {throws : Bool} {next : Nat} (hs : s.executeStateStep throws next = some s') :
    s'.pc = s.pc ∧ ∀ y, (s.life y).terminal → (s'.life y).terminal := by
  have hlife : ∀ {x l}, (s.life x).Becomes l → ∀ y, (s.life y).terminal → ((s.setLife x l).life y).terminal :=
    fun h y => (becomes_setLife s h y).terminal
  simp only [State.executeStateStep] at hs
  split at hs
  · cases hs
  · obtain rfl := Option.some.inj hs
    split
    · exact ⟨rfl, fun _ => id⟩
    · rename_i l hl
      obtain ⟨-, -, rfl, -⟩ := Life.beginStep_eq hl
      exact ⟨rfl, hlife (.same rfl rfl rfl)⟩
    · rename_i l hl
      obtain ⟨-, -, rfl, -⟩ := Life.beginStep_eq hl
      exact ⟨rfl, hlife (.same rfl rfl rfl)⟩
  · obtain rfl := Option.some.inj hs
    exact ⟨rfl, fun _ => id⟩
  · rename_i x hexec
    obtain rfl := Option.some.inj hs
    obtain ⟨hcancelled, hterminal, hqueued, -⟩ := Life.runNext_same (s.life x)
    obtain ⟨hpc, -, -, hcall⟩ := call_same (s.setLife x (s.life x).runNext.1) x (s.life x).runNext.2
    refine ⟨hpc, ?_⟩
    dsimp only
    rw [hcall]
    exact hlife (.same hcancelled hterminal hqueued)
  · rename_i x hexec
    split at hs
    · cases hs
    · split at hs
      · obtain rfl := Option.some.inj hs
        exact ⟨rfl, hlife (.same rfl rfl rfl)⟩
      · obtain rfl := Option.some.inj hs
        obtain ⟨hcancelled, hterminal, hqueued, -⟩ := Life.runNextReturn_same (s.life x) next
        exact ⟨rfl, hlife (.same hcancelled hterminal hqueued)⟩
  · rename_i x hexec
    obtain rfl := Option.some.inj hs
    obtain ⟨hcancelled, hterminal, hqueued, -⟩ := Life.runNext_same (s.life x).setEnd
    rw [Life.runNext_setEnd]
    exact ⟨rfl, hlife (.same hcancelled hterminal hqueued)⟩
  · obtain rfl := Option.some.inj hs
    split
    · exact ⟨rfl, fun _ => id⟩
    · rename_i l o hl
      exact ⟨rfl, hlife (Life.complete_becomes hl)⟩
  · obtain rfl := Option.some.inj hs
    exact ⟨rfl, fun _ => id⟩
  · obtain rfl := Option.some.inj hs
    exact ⟨rfl, fun _ => id⟩
  · obtain rfl := Option.some.inj hs
    split
    · exact ⟨rfl, fun _ => id⟩
    · rename_i s'' henqueue
      rcases enqueueState_eq henqueue with ⟨-, rfl⟩ | ⟨-, -, rfl⟩ <;> exact ⟨rfl, fun _ => id⟩
  · obtain rfl := Option.some.inj hs
    split <;> exact ⟨rfl, fun _ => id⟩
  · obtain rfl := Option.some.inj hs
    exact ⟨rfl, fun _ => id⟩
  · obtain rfl := Option.some.inj hs
    exact ⟨rfl, hlife (Life.reset_becomes _)⟩

theorem step_lasts [DecidableEq ι] {a : Action ι σ} (hs : s.step a = some s') (hy : (s.life y).terminal) :
    (s'.life y).terminal := by
  cases a with
  | run t x | cancel t x | shutdown t =>
    simp only [State.step] at hs
    split at hs
    · obtain rfl := Option.some.inj hs
      exact hy
    · cases hs
  | thread t throws => exact (thread_calls hs).lasts y hy
  | dispatch x =>
    simp only [State.step] at hs
    split at hs
    · split at hs
      · obtain rfl := Option.some.inj hs
        exact hy
      · cases hs
    · cases hs
  | exec throws next => exact (executeStateStep_keeps hs).2 y hy

-- ---------------------------------------------------------------------------
-- Postings
-- ---------------------------------------------------------------------------

theorem undoes_step [DecidableEq ι] {a : Action ι σ} (h : s.exec.undoes = false) (hposts : s.Posts a)
    (hs : s.step a = some s') : s'.exec.undoes = false := by
  cases a with
  | run t y | cancel t y | shutdown t =>
    simp only [State.step] at hs
    split at hs
    · obtain rfl := Option.some.inj hs
      exact h
    · cases hs
  | thread t throws =>
    rw [(thread_calls hs).exec]
    exact h
  | dispatch y =>
    simp only [State.step] at hs
    split at hs
    · split at hs
      · obtain rfl := Option.some.inj hs
        rfl
      · cases hs
    · cases hs
  | exec throws next =>
    simp only [State.step, State.executeStateStep] at hs
    split at hs
    · cases hs
    · obtain rfl := Option.some.inj hs
      split <;> rfl
    · obtain rfl := Option.some.inj hs
      cases throws <;> rfl
    · obtain rfl := Option.some.inj hs
      dsimp only
      split <;> rfl
    · split at hs
      · cases hs
      · split at hs
        · obtain rfl := Option.some.inj hs
          rfl
        · obtain rfl := Option.some.inj hs
          dsimp only
          split <;> rfl
    · obtain rfl := Option.some.inj hs
      rfl
    · obtain rfl := Option.some.inj hs
      split
      · dsimp only
        split <;> rfl
      · rfl
    · obtain rfl := Option.some.inj hs
      dsimp only
      split <;> rfl
    · obtain rfl := Option.some.inj hs
      rfl
    · obtain rfl := Option.some.inj hs
      split <;> rfl
    · rename_i x hexec
      obtain rfl := Option.some.inj hs
      rw [if_neg (by rw [hposts (by rw [hexec]; rfl)]; rintro ⟨⟩)]
      rfl
    · rename_i x hexec
      rw [hexec] at h
      cases h
    · rename_i x hexec
      rw [hexec] at h
      cases h

/-- Without a clean-up there is nothing to observe. -/
theorem observed_of_posts [DecidableEq ι] (h : ReachesBy State.step Posts
    (State.init callbacks next : State ι σ) s) :
    ReachesBy State.step Observed (State.init callbacks next) s ∧ s.exec.undoes = false := by
  induction h with
  | refl => exact ⟨.refl, rfl⟩
  | tail a _ hposts hs ih =>
    obtain ⟨hreach, hundoes⟩ := ih
    refine ⟨hreach.tail a ?_ hs, undoes_step hundoes hposts hs⟩
    cases a with
    | exec throws next =>
      intro x hx
      rw [ExecPc.reset?_of_undoes hundoes] at hx
      cases hx
    | run | cancel | shutdown | thread | dispatch => trivial

-- ---------------------------------------------------------------------------
-- Dispatches
-- ---------------------------------------------------------------------------

structure Dispatched (s : State ι σ) : Prop where
  all : ∀ d ∈ s.dispatches, d.callbacks ≤ 1 ∧ (d.cancelled → d.callbacks = 0)
  begun : ∀ x, s.exec.begun = some x → ∃ ds, s.dispatches = ⟨x, false, 0⟩ :: ds

omit [DecidableEq σ] in
theorem Dispatched.keeps (h : s.Dispatched) (hdispatches : s'.dispatches = s.dispatches)
    (hexec : s'.exec.begun = none ∨ s'.exec.begun = s.exec.begun) : s'.Dispatched where
  all := hdispatches ▸ h.all
  begun x hx := by
    rw [hdispatches]
    rcases hexec with hnone | hsame
    · rw [hnone] at hx
      cases hx
    · exact h.begun x (hsame ▸ hx)

omit [DecidableEq σ] in
/-- A dispatch is entered. -/
theorem Dispatched.begins {p : ExecPc σ} {cancelled : Bool} (h : s.Dispatched)
    (hdispatches : s'.dispatches = ⟨x, cancelled, 0⟩ :: s.dispatches) (hexec : s'.exec = p)
    (hbegun : p.begun = none ∨ p.begun = some x ∧ cancelled = false) : s'.Dispatched where
  all d hd := by
    rw [hdispatches] at hd
    rcases List.mem_cons.mp hd with rfl | hd
    · exact ⟨Nat.zero_le _, fun _ => rfl⟩
    · exact h.all d hd
  begun y hy := by
    rw [hexec] at hy
    rcases hbegun with hnone | ⟨hsome, rfl⟩
    · rw [hnone] at hy
      cases hy
    · obtain rfl : x = y := Option.some.inj (hsome.symm.trans hy)
      exact ⟨_, hdispatches⟩

theorem Dispatched.executeStateStep {throws : Bool} {next : Nat} (h : s.Dispatched)
    (hs : s.executeStateStep throws next = some s') : s'.Dispatched := by
  simp only [State.executeStateStep] at hs
  split at hs
  · cases hs
  · rename_i x hexec
    obtain rfl := Option.some.inj hs
    split
    · exact h.begins rfl rfl (.inl rfl)
    · rename_i l hl
      exact h.begins rfl rfl (.inr ⟨rfl, (Life.beginStep_eq hl).2.1⟩)
    · rename_i l hl
      exact h.begins rfl rfl (.inr ⟨rfl, (Life.beginStep_eq hl).2.1⟩)
  · rename_i x hexec
    obtain rfl := Option.some.inj hs
    cases throws
    · exact h.keeps rfl (.inr (by rw [hexec]; rfl))
    · exact h.keeps rfl (.inl rfl)
  · rename_i x hexec
    obtain rfl := Option.some.inj hs
    cases hcalled : (s.life x).runNext.2 with
    | false => exact h.keeps rfl (.inl rfl)
    | true =>
      obtain ⟨ds, hds⟩ := h.begun x (by rw [hexec]; rfl)
      have hall := h.all
      have hdispatches : ((s.setLife x (s.life x).runNext.1).call x true).dispatches = ⟨x, false, 1⟩ :: ds := by
        rw [State.call, if_pos rfl]
        dsimp only [setLife]
        rw [hds]
      refine ⟨fun d hd => ?_, by rintro _ ⟨⟩⟩
      rw [hds] at hall
      rcases List.mem_cons.mp (hdispatches ▸ hd) with rfl | hd
      · exact ⟨le_rfl, by rintro ⟨⟩⟩
      · exact hall d (List.mem_cons_of_mem _ hd)
  · split at hs
    · cases hs
    · split at hs
      · obtain rfl := Option.some.inj hs
        exact h.keeps rfl (.inl rfl)
      · obtain rfl := Option.some.inj hs
        refine h.keeps rfl (.inl ?_)
        dsimp only
        split <;> rfl
  · obtain rfl := Option.some.inj hs
    rw [Life.runNext_setEnd]
    exact h.keeps rfl (.inl rfl)
  · obtain rfl := Option.some.inj hs
    split
    · refine h.keeps rfl (.inl ?_)
      dsimp only
      split <;> rfl
    · exact h.keeps rfl (.inl rfl)
  · obtain rfl := Option.some.inj hs
    refine h.keeps rfl (.inl ?_)
    dsimp only
    split <;> rfl
  · obtain rfl := Option.some.inj hs
    exact h.keeps rfl (.inl rfl)
  · obtain rfl := Option.some.inj hs
    split
    · exact h.keeps rfl (.inl rfl)
    · rename_i s'' henqueue
      rcases enqueueState_eq henqueue with ⟨-, rfl⟩ | ⟨-, -, rfl⟩ <;> exact h.keeps rfl (.inl rfl)
  · obtain rfl := Option.some.inj hs
    split <;> exact h.keeps rfl (.inl rfl)
  · obtain rfl := Option.some.inj hs
    exact h.keeps rfl (.inl rfl)
  · obtain rfl := Option.some.inj hs
    refine h.keeps rfl (.inl ?_)
    dsimp only
    split <;> rfl

theorem Dispatched.step [DecidableEq ι] {a : Action ι σ} (h : s.Dispatched) (hs : s.step a = some s') :
    s'.Dispatched := by
  cases a with
  | run t x | cancel t x | shutdown t =>
    simp only [State.step] at hs
    split at hs
    · obtain rfl := Option.some.inj hs
      exact h.keeps rfl (.inr rfl)
    · cases hs
  | thread t throws =>
    have hcalls := thread_calls hs
    exact h.keeps hcalls.dispatches (.inr (by rw [hcalls.exec]))
  | dispatch x =>
    simp only [State.step] at hs
    split at hs
    · split at hs
      · obtain rfl := Option.some.inj hs
        exact h.keeps rfl (.inl rfl)
      · cases hs
    · cases hs
  | exec throws next => exact h.executeStateStep hs

-- ---------------------------------------------------------------------------
-- Shutdown
-- ---------------------------------------------------------------------------

/-- A `shutdown` that has found these states goes through them, waits for the rest of them, or is over and all
of them have an outcome. -/
def Awaits (s : State ι σ) (t : ι) (pending : List σ) : Prop :=
  (s.pc t).cancelling = some pending ∨
    (∃ xs, s.pc t = .waits xs pending ∧ ∀ y ∈ pending, y ∈ xs ∨ (s.life y).terminal) ∨
      ∀ y ∈ pending, (s.life y).terminal

omit [DecidableEq σ] in
/-- Others move. -/
theorem Awaits.keeps {pending : List σ} (h : s.Awaits t pending) (hpc : s'.pc t = s.pc t)
    (hlasts : ∀ y, (s.life y).terminal → (s'.life y).terminal) : s'.Awaits t pending := by
  rcases h with hcancelling | ⟨xs, hxs, hrest⟩ | hall
  · exact .inl (hpc ▸ hcancelling)
  · exact .inr (.inl ⟨xs, hpc ▸ hxs, fun y hy => (hrest y hy).imp_right (hlasts y)⟩)
  · exact .inr (.inr fun y hy => hlasts y (hall y hy))

theorem Awaits.thread [DecidableEq ι] {pending : List σ} {throws : Bool} (h : s.Awaits t pending)
    (hs : s.thread t throws = some s') : s'.Awaits t pending := by
  have hlasts := (thread_calls hs).lasts
  rcases h with hcancelling | ⟨xs, hxs, hrest⟩ | hall
  · have hgoto : ∀ {s'' : State ι σ} {p}, p.cancelling = some pending → (s''.goto t p).Awaits t pending :=
      fun {s'' p} hp => by
        refine .inl ?_
        show (Function.update s''.pc t p t).cancelling = some pending
        rw [Function.update_self, hp]
    cases hpc : s.pc t with
    | cancels xs k =>
      obtain rfl : k = some pending := by rwa [hpc] at hcancelling
      cases xs with
      | nil =>
        simp only [State.thread, hpc] at hs
        obtain rfl := Option.some.inj hs
        exact .inr (.inl ⟨pending, Function.update_self .., fun y => .inl⟩)
      | cons x xs =>
        simp only [State.thread, hpc] at hs
        obtain rfl := Option.some.inj hs
        split
        · exact hgoto rfl
        · exact hgoto (by split <;> rfl)
    | complete x xs k =>
      obtain rfl : k = some pending := by rwa [hpc] at hcancelling
      simp only [State.thread, hpc] at hs
      obtain rfl := Option.some.inj hs
      split <;> exact hgoto rfl
    | hook x o xs k =>
      obtain rfl : k = some pending := by rwa [hpc] at hcancelling
      simp only [State.thread, hpc] at hs
      obtain rfl := Option.some.inj hs
      exact hgoto rfl
    | _ =>
      rw [hpc] at hcancelling
      cases hcancelling
  · cases xs with
    | nil =>
      exact .inr (.inr fun y hy => hlasts y ((hrest y hy).resolve_left List.not_mem_nil))
    | cons x xs =>
      simp only [State.thread, hxs] at hs
      split at hs
      · rename_i hterminal
        obtain rfl := Option.some.inj hs
        refine .inr (.inl ⟨xs, Function.update_self .., fun y hy => ?_⟩)
        rcases hrest y hy with hmem | hy
        · rcases List.mem_cons.mp hmem with rfl | hmem
          · exact .inr hterminal
          · exact .inl hmem
        · exact .inr hy
      · cases hs
  · exact .inr (.inr fun y hy => hlasts y (hall y hy))

omit [DecidableEq σ] in
/-- The call has returned. -/
theorem Awaits.over {pending : List σ} (h : s.Awaits t pending) (hpc : s.pc t = .idle) :
    ∀ y ∈ pending, (s.life y).terminal := by
  rcases h with hcancelling | ⟨xs, hxs, -⟩ | hall
  · rw [hpc] at hcancelling
    cases hcancelling
  · rw [hpc] at hxs
    cases hxs
  · exact hall

theorem Awaits.step [DecidableEq ι] {pending : List σ} {a : Action ι σ} (h : s.Awaits t pending)
    (hs : s.step a = some s') : s'.Awaits t pending := by
  have hlasts : ∀ y, (s.life y).terminal → (s'.life y).terminal := fun y => step_lasts hs
  have hentered : ∀ {u p}, s.pc u = .idle → s'.pc = Function.update s.pc u p → s'.Awaits t pending := by
    intro u p hidle hpc
    by_cases hut : t = u
    · subst hut
      exact .inr (.inr fun y hy => hlasts y (h.over hidle y hy))
    · exact h.keeps (by rw [hpc, Function.update_of_ne hut]) hlasts
  cases a with
  | run u x | cancel u x | shutdown u =>
    simp only [State.step] at hs
    split at hs
    · rename_i hidle
      obtain rfl := Option.some.inj hs
      exact hentered hidle rfl
    · cases hs
  | thread u throws =>
    by_cases hut : t = u
    · subst hut
      exact h.thread hs
    · exact h.keeps ((thread_calls hs).others t hut) hlasts
  | dispatch x =>
    simp only [State.step] at hs
    split at hs
    · split at hs
      · obtain rfl := Option.some.inj hs
        exact h.keeps rfl hlasts
      · cases hs
    · cases hs
  | exec throws next => exact h.keeps (by rw [(executeStateStep_keeps hs).1]) hlasts

/-- `shutdown` returns after what it has found. -/
theorem shutdown_waits [DecidableEq ι] {ok : State ι σ → Action ι σ → Prop} {s₁ s₂ : State ι σ}
    (hs : s.step (.shutdown t) = some s₁) (h : ReachesBy State.step ok s₁ s₂) (hpc : s₂.pc t = .idle) :
    ∀ y ∈ s.pendingStates, (s₂.life y).terminal := by
  have hbegun : s₁.Awaits t s.pendingStates := by
    simp only [State.step] at hs
    split at hs
    · obtain rfl := Option.some.inj hs
      refine .inl ?_
      show (Function.update s.pc t _ t).cancelling = _
      rw [Function.update_self]
      rfl
    · cases hs
  exact (h.invariant (I := fun s' : State ι σ => s'.Awaits t s.pendingStates) hbegun fun h _ hs =>
    h.step hs).over hpc

-- ---------------------------------------------------------------------------
-- Contract
-- ---------------------------------------------------------------------------

structure Contract (s : State ι σ) (x : σ) : Prop where
  -- The promise is set as the outcome is chosen.
  once : (outcomes (s.log x)).length = (s.life x).terminal.toNat
  completed : .kCompleted ∈ outcomes (s.log x) → (s.life x).cancelled = false
  hooks : RuntimeState.hooks (s.log x) <+: outcomes (s.log x)
  hooked : s.Settled → RuntimeState.hooks (s.log x) = outcomes (s.log x)
  onStarted : (s.log x).count .onStarted ≤ 1
  startsFirst : StartsFirst (s.log x)
  -- There is no dispatch after the outcome.
  noDispatch : (s.life x).terminal → x ∉ s.jobs ∧ s.exec.holding ≠ some x
  pending : s.Settled → (x ∈ s.pendingStates ↔ s.submissions x = 1 ∧ (s.life x).terminal = false)
  job : s.Settled → x ∈ s.pendingStates → s.jobs.count x = 1
  submitted : s.submissions x ≤ 1

/-- The hooks that have been called are those of the outcomes that have been chosen. -/
theorem Lived.hooks_prefix [Fintype ι] (h : s.Lived x) : RuntimeState.hooks (s.log x) <+: outcomes
    (s.log x) := by
  have honce : (outcomes (s.log x)).length ≤ 1 := h.once ▸ Bool.toNat_le _
  have hhooked := h.hooked
  rcases hhooks : RuntimeState.hooks (s.log x) with _ | ⟨o, rest⟩
  · exact List.nil_prefix
  · rw [hhooks, List.length_cons] at hhooked
    obtain rfl : rest = [] := List.eq_nil_of_length_eq_zero (by omega)
    have hmem : o ∈ outcomes (s.log x) := mem_outcomes.mpr
      (h.hook o (mem_hooks.mp (hhooks ▸ List.mem_singleton_self o)))
    obtain ⟨o', ho'⟩ := List.length_eq_one_iff.mp (le_antisymm honce (List.length_pos_of_mem hmem))
    rw [ho'] at hmem ⊢
    rw [List.mem_singleton.mp hmem]

theorem Lived.hooks_eq [Fintype ι] (h : s.Lived x) (hsettled : s.Settled) :
    RuntimeState.hooks (s.log x) = outcomes (s.log x) := by
  have hcalls : ∀ t, (s.pc t).hook? = none := fun t => by
    have hpc := hsettled.1 t
    cases hp : s.pc t <;> first | rfl | (rw [hp] at hpc; cases hpc)
  have hexec : s.exec.hook? = none := by
    have hidle := hsettled.2
    cases hp : s.exec <;> first | rfl | (rw [hp] at hidle; cases hidle)
  have hzero : s.hookers x = 0 := by
    unfold hookers
    rw [hexec, show census (fun p : Pc σ => hand (p.hook?.map Prod.fst) x) s.pc = 0 from
      Finset.sum_eq_zero fun t _ => by dsimp only; rw [hcalls t]; rfl]
    rfl
  have hhooked := h.hooked
  exact h.hooks_prefix.eq_of_length (by omega)

theorem contract_of_served [Fintype ι] (hheld : s.Held x) (hserved : s.Served x) (hlived : s.Lived x) :
    s.Contract x := by
  have hqueued : s.Settled → (x ∈ s.pendingStates ↔ (s.life x).queued) := fun hsettled => by
    obtain ⟨hjobs, hpending⟩ := hheld.settled hsettled
    rw [← List.count_pos_iff, hpending, hjobs]
    cases (s.life x).queued <;> simp
  have hjob : s.Settled → x ∈ s.pendingStates → s.jobs.count x = 1 := fun hsettled hmem => by
    rw [(hheld.settled hsettled).1, (hqueued hsettled).mp hmem]
    rfl
  refine ⟨hlived.once, fun ho => hlived.completed (mem_outcomes.mp ho), hlived.hooks_prefix, hlived.hooks_eq,
    hlived.started ▸ Bool.toNat_le _, hlived.first, fun hterminal => ?_, fun hsettled => ?_, hjob, hserved.once⟩
  · have htoken := hheld.token
    rw [hheld.terminal hterminal, Bool.toNat_false] at htoken
    refine ⟨List.count_eq_zero.mp (by omega), fun hholding => ?_⟩
    rw [hholding, hand_self] at htoken
    omega
  · rw [hqueued hsettled]
    constructor
    · intro hq
      have hcount := hjob hsettled ((hqueued hsettled).mpr hq)
      refine ⟨hserved.posted (by omega), ?_⟩
      cases hterminal : (s.life x).terminal with
      | false => rfl
      | true =>
        rw [hheld.terminal hterminal] at hq
        cases hq
    · rintro ⟨hone, hterminal⟩
      rcases hserved.served with h | h | h | h
      · omega
      · exact h
      · rw [hterminal] at h
        cases h
      · have hidle := hsettled.2
        cases hexec : s.exec with
        | idle => rw [hexec] at h; cases h
        | _ => rw [hexec] at hidle; cases hidle

/-- As long as every posting succeeds. -/
theorem lifeCycle [Fintype ι] [DecidableEq ι] (h : ReachesBy State.step Posts (State.init callbacks next) s) :
    (∀ x, s.Contract x) ∧ (∀ d ∈ s.dispatches, d.callbacks ≤ 1 ∧ (d.cancelled → d.callbacks = 0)) ∧
      ∀ t s₁ s₂, s.step (.shutdown t) = some s₁ → ReachesBy State.step Posts s₁ s₂ → s₂.pc t = .idle →
        ∀ y ∈ s.pendingStates, (s₂.life y).terminal := by
  have hdispatched : s.Dispatched :=
    h.invariant (I := Dispatched) ⟨nofun, nofun⟩ fun hdispatched _ hs => hdispatched.step hs
  refine ⟨fun x => ?_, hdispatched.all, fun t s₁ s₂ hs hreach hpc => shutdown_waits hs hreach hpc⟩
  obtain ⟨hheld, hserved⟩ := served_of_reaches (observed_of_posts h).1 x
  exact contract_of_served hheld hserved (lived_of_reaches h x)

/-- The first callback selects another one, and `cancel` comes before the second dispatch. -/
theorem lifeCycle_cancelled :
    ∃ s : State Unit Unit, ReachesBy State.step Posts (State.init (fun _ => 2) fun _ => 0) s ∧
      s.log () = [.onStarted, .callback, .outcome .kCancelled, .hook .kCancelled] ∧ s.dispatches.length = 2 ∧
        s.Contract () :=
  have h : ReachesBy State.step Posts (State.init (fun _ => 2) fun _ => 0 : State Unit Unit) _ :=
    .of_isSome_by [.run () (), .thread () false, .thread () false, .thread () false, .dispatch (),
      .exec false 0,
      .exec false 0, .exec false 0, .exec false 2, .exec false 0, .exec false 0, .cancel () (),
        .thread () false,
      .thread () false, .dispatch (), .exec false 0, .exec false 0, .exec false 0, .exec false 0, .exec false 0]
      (by decide +kernel)
  ⟨_, h, by decide +kernel, by decide +kernel, (lifeCycle h).1 ()⟩

end State
end Dmn.RuntimeState
