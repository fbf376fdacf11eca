import Dmn.RuntimeState.Lifecycle

/-!
# What becomes of a submitted state

A state for which `run` has returned true has a job or reaches an outcome, as
long as no posting fails in the middle of its life. The clean-up for a failed
first submission is also used there: it releases the state and takes its
`m_queued` back, and nobody submits it again.
-/

namespace Dmn.RuntimeState

open Dmn.Lib

variable {σ : Type}

/-- At the reset after a posting that has failed in a dispatch. -/
def ExecPc.reset? : ExecPc σ → Option σ
  | .reset x => some x
  | _ => none

def Pc.posts : Pc σ → Bool
  | .post _ => true
  | _ => false

def ExecPc.posts : ExecPc σ → Bool
  | .post _ => true
  | _ => false

/-- No call is part-way. -/
def Pc.settled : Pc σ → Bool
  | .idle | .waits .. => true
  | _ => false

def ExecPc.isIdle : ExecPc σ → Bool
  | .idle => true
  | _ => false

namespace State

variable {ι : Type} [DecidableEq σ] {s s' : State ι σ} {t : ι} {p : Pc σ} {x y : σ}

/-- A posting that fails in a dispatch finds the state cancelled when it resets `m_queued`. -/
def Observed (s : State ι σ) : Action ι σ → Prop
  | .exec .. => ∀ x ∈ s.exec.reset?, (s.life x).cancelled
  | _ => True

/-- `addJob` does not throw. -/
def Posts (s : State ι σ) : Action ι σ → Prop
  | .thread t throws => (s.pc t).posts → throws = false
  | .exec throws _ => s.exec.posts → throws = false
  | _ => True

def Settled (s : State ι σ) : Prop := (∀ t, (s.pc t).settled) ∧ s.exec.isIdle

instance (s : State ι σ) (a : Action ι σ) : Decidable (s.Observed a) :=
  match a with
  | .exec .. => inferInstanceAs (Decidable (∀ x ∈ s.exec.reset?, (s.life x).cancelled))
  | .run .. | .cancel .. | .shutdown _ | .thread .. | .dispatch _ => .isTrue trivial

instance (s : State ι σ) (a : Action ι σ) : Decidable (s.Posts a) :=
  match a with
  | .thread t throws => inferInstanceAs (Decidable ((s.pc t).posts → throws = false))
  | .exec throws _ => inferInstanceAs (Decidable (s.exec.posts → throws = false))
  | .run .. | .cancel .. | .shutdown _ | .dispatch _ => .isTrue trivial

instance [Fintype ι] (s : State ι σ) : Decidable s.Settled := inferInstanceAs (Decidable (_ ∧ _))

structure Served (s : State ι σ) (x : σ) : Prop where
  served : s.submissions x = 0 ∨ (s.life x).queued ∨ (s.life x).terminal ∨ s.exec.resetting = some x
  calls : ∀ t, (s.pc t).submitting = some x → s.submissions x = 0
  posted : 0 < s.jobs.count x + hand s.exec.holding x → s.submissions x = 1
  once : s.submissions x ≤ 1

-- ---------------------------------------------------------------------------
-- Steps of a caller
-- ---------------------------------------------------------------------------

theorem Held.submitting_unique [Fintype ι] [DecidableEq ι] {u : ι} (h : s.Held x)
    (ht : (s.pc t).submitting = some x)
    (hu : (s.pc u).submitting = some x) : u = t := by
  by_contra hne
  have htoken := h.token
  have hqueued : (s.life x).queued.toNat ≤ 1 := Bool.toNat_le _
  have hcensus := census_update (fun p => hand p.submitting x) s.pc t .idle
  have hother := le_census (f := fun p => hand p.submitting x) (Function.update s.pc t .idle) u
  have ht1 : hand (s.pc t).submitting x = 1 := by rw [ht, hand_self]
  have hu1 : hand (Function.update s.pc t .idle u).submitting x = 1 := by
    rw [Function.update_of_ne hne, hu, hand_self]
  have hidle : hand (Pc.idle : Pc σ).submitting x = 0 := rfl
  omega

theorem Held.queued_of_submitting [Fintype ι] (h : s.Held x) (ht : (s.pc t).submitting = some x) :
    (s.life x).queued := by
  have htoken := h.token
  have hle := le_census (f := fun p => hand p.submitting x) s.pc t
  have ht1 : hand (s.pc t).submitting x = 1 := by rw [ht, hand_self]
  cases hqueued : (s.life x).queued with
  | true => rfl
  | false =>
    rw [hqueued] at htoken
    simp only [Bool.toNat_false] at htoken
    omega

theorem Served.moves [DecidableEq ι] (h : s.Served x) (hpc : s'.pc = Function.update s.pc t p)
    (hexec : s'.exec = s.exec) (hsub : s'.submissions x = s.submissions x) (hjobs : s'.jobs = s.jobs)
    (hlife : s.submissions x = 0 ∨ ((s.life x).queued ∨ (s.life x).terminal → (s'.life x).queued ∨
    (s'.life x).terminal))
    (hp : p.submitting = some x → s.submissions x = 0) : s'.Served x where
  served := by
    rw [hsub, hexec]
    rcases hlife with hlife | hlife
    · exact .inl hlife
    · rcases h.served with h | h | h | h
      · exact .inl h
      · exact .inr ((hlife (.inl h)).imp_right .inl)
      · exact .inr ((hlife (.inr h)).imp_right .inl)
      · exact .inr (.inr (.inr h))
  calls u hu := by
    rw [hsub]
    rw [hpc] at hu
    by_cases hut : u = t
    · subst hut
      rw [Function.update_self] at hu
      exact hp hu
    · rw [Function.update_of_ne hut] at hu
      exact h.calls u hu
  posted := by
    rw [hsub, hexec, hjobs]
    exact h.posted
  once := hsub ▸ h.once

/-- A section keeps a state queued or ends it. -/
theorem lasts_setLife (s : State ι σ) {l : Life} (h : (s.life x).queued ∨ (s.life x).terminal →
    l.queued ∨ l.terminal)
    (y : σ) (hy : (s.life y).queued ∨ (s.life y).terminal) :
    ((s.setLife x l).life y).queued ∨ ((s.setLife x l).life y).terminal := by
  by_cases hyx : y = x
  · subst hyx
    rw [setLife_self]
    exact h hy
  · rw [setLife_ne s l hyx]
    exact hy

theorem Served.thread [Fintype ι] [DecidableEq ι] {throws : Bool} (h : s.Served y) (hheld : s.Held y)
    (hs : s.thread t throws = some s') : s'.Served y := by
  simp only [State.thread] at hs
  split at hs
  · cases hs
  · rename_i x hpc
    obtain rfl := Option.some.inj hs
    split
    · exact h.moves (t := t) rfl rfl rfl rfl (.inr id) (by rintro ⟨⟩)
    · rename_i l hl
      obtain ⟨hterminal, hcancelled, hqueued, rfl⟩ := Life.submit_eq hl
      refine h.moves (t := t) rfl rfl rfl rfl (.inr (lasts_setLife s (fun _ => .inl rfl) y)) fun hp => ?_
      obtain rfl : x = y := Option.some.inj hp
      rcases h.served with h | h | h | h
      · exact h
      · rw [hqueued] at h
        cases h
      · rw [hterminal] at h
        cases h
      · rw [(hheld.resetting h).1] at hcancelled
        cases hcancelled
  · rename_i x hpc
    obtain rfl := Option.some.inj hs
    have hp : ∀ {z}, some x = some z → (s.pc t).submitting = some z := fun hz => by rw [hpc]; exact hz
    split
    · exact h.moves (t := t) rfl rfl rfl rfl (.inr id) fun hx => h.calls t (hp hx)
    · rename_i s'' henqueue
      rcases enqueueState_eq henqueue with ⟨-, rfl⟩ | ⟨-, -, rfl⟩
      · exact h.moves (t := t) rfl rfl rfl rfl (.inr id) fun hx => h.calls t (hp hx)
      · exact h.moves (t := t) rfl rfl rfl rfl (.inr id) fun hx => h.calls t (hp hx)
  · rename_i x hpc
    obtain rfl := Option.some.inj hs
    have hp : (s.pc t).submitting = some x := by rw [hpc]; rfl
    split
    · exact h.moves (t := t) rfl rfl rfl rfl (.inr id) fun hx => h.calls t (by rw [hpc]; exact hx)
    · by_cases hy : y = x
      · subst hy
        have hzero := h.calls t hp
        have hone :
          ({ s.addJob y with submissions := Function.update s.submissions y (s.submissions y + 1) }.goto t
            .idle : State ι σ).submissions y = 1 := by
          show Function.update s.submissions y (s.submissions y + 1) y = 1
          rw [Function.update_self, hzero]
        refine ⟨.inr (.inl (hheld.queued_of_submitting hp)), fun u hu => ?_, fun _ => hone, hone.le⟩
        have hut : u ≠ t := fun heq => by
          subst heq
          simp [goto, Pc.submitting] at hu
        simp only [goto, addJob, Function.update_of_ne hut] at hu
        exact absurd (hheld.submitting_unique hp hu) hut
      · refine Served.moves (s := { s with jobs := s.jobs ++ [x] }) (t := t) (p := .idle) ?_ rfl rfl
          (Function.update_of_ne hy ..) rfl (.inr id) (by rintro ⟨⟩)
        refine ⟨h.served, h.calls, fun hpos => h.posted ?_, h.once⟩
        show 0 < s.jobs.count y + _
        have hcount : (s.jobs ++ [x]).count y = s.jobs.count y := by
          rw [List.count_append, count_singleton, hand_ne (Ne.symm hy)]
          rfl
        rwa [← hcount]
  · rename_i x hpc
    obtain rfl := Option.some.inj hs
    exact h.moves (t := t) rfl rfl rfl rfl (.inr id) fun hx => h.calls t (by rw [hpc]; exact hx)
  · rename_i x hpc
    obtain rfl := Option.some.inj hs
    refine h.moves (t := t) rfl rfl rfl rfl ?_ ?_
    · by_cases hy : y = x
      · subst hy
        exact .inl (h.calls t (by rw [hpc]; rfl))
      · refine .inr fun hlast => ?_
        rw [show ((s.setLife x _).goto t _).life y = s.life y from setLife_ne s _ hy]
        exact hlast
    · split <;> rintro ⟨⟩
  · obtain rfl := Option.some.inj hs
    exact h.moves (t := t) rfl rfl rfl rfl (.inr id) (by rintro ⟨⟩)
  · obtain rfl := Option.some.inj hs
    exact h.moves (t := t) rfl rfl rfl rfl (.inr id) (by rintro ⟨⟩)
  · rename_i x xs pending hpc
    obtain rfl := Option.some.inj hs
    split
    · exact h.moves (t := t) rfl rfl rfl rfl (.inr id) (by rintro ⟨⟩)
    · rename_i l completeNow hl
      obtain ⟨-, -, rfl, -⟩ := Life.cancel_eq hl
      refine h.moves (t := t) rfl rfl rfl rfl (.inr (lasts_setLife s (l :=
        { s.life x with cancelled := true }) id y)) ?_
      split <;> rintro ⟨⟩
  · rename_i x xs pending hpc
    obtain rfl := Option.some.inj hs
    split
    · exact h.moves (t := t) rfl rfl rfl rfl (.inr id) (by rintro ⟨⟩)
    · rename_i l o hl
      exact h.moves (t := t) rfl rfl rfl rfl
        (.inr (lasts_setLife s (fun _ => .inr (Life.complete_completes hl).terminal) y)) (by rintro ⟨⟩)
  · obtain rfl := Option.some.inj hs
    exact h.moves (t := t) rfl rfl rfl rfl (.inr id) (by rintro ⟨⟩)
  · obtain rfl := Option.some.inj hs
    exact h.moves (t := t) rfl rfl rfl rfl (.inr id) (by rintro ⟨⟩)
  · split at hs
    · obtain rfl := Option.some.inj hs
      exact h.moves (t := t) rfl rfl rfl rfl (.inr id) (by rintro ⟨⟩)
    · cases hs

-- ---------------------------------------------------------------------------
-- Steps of the async thread
-- ---------------------------------------------------------------------------

theorem Served.execs (h : s.Served y) (hpc : s'.pc = s.pc) (hsub : s'.submissions = s.submissions)
    (hheld : s'.jobs.count y + hand s'.exec.holding y ≤ s.jobs.count y + hand s.exec.holding y)
    (hlife : (s.life y).queued ∨ (s.life y).terminal →
      (s'.life y).queued ∨ (s'.life y).terminal ∨ s'.exec.resetting = some y)
    (hresetting : s.exec.resetting = some y → (s'.life y).terminal) : s'.Served y where
  served := by
    rw [hsub]
    rcases h.served with h | h | h | h
    · exact .inl h
    · exact .inr (hlife (.inl h))
    · exact .inr (hlife (.inr h))
    · exact .inr (.inr (.inl (hresetting h)))
  calls u hu := by
    rw [hsub]
    exact h.calls u (hpc ▸ hu)
  posted hpos := by
    rw [hsub]
    exact h.posted (by omega)
  once := hsub ▸ h.once

/-- The dispatch goes on, or returns. -/
theorem Served.goes {p : ExecPc σ} (h : s.Served y) (hpc : s'.pc = s.pc) (hsub : s'.submissions = s.submissions)
    (hjobs : s'.jobs = s.jobs) (hexec : s'.exec = p) (hholding : p.holding = s.exec.holding ∨ p.holding = none)
    (hlife : (s.life y).queued ∨ (s.life y).terminal → (s'.life y).queued ∨ (s'.life y).terminal)
    (hresetting : s.exec.resetting = some y → (s'.life y).terminal) : s'.Served y := by
  refine h.execs hpc hsub ?_ (fun hlast => (hlife hlast).imp_right .inl) hresetting
  rw [hjobs, hexec]
  rcases hholding with hsame | hnone
  · rw [hsame]
  · rw [hnone, hand_none]
    omega

/-- What the async thread holds is queued, so it has no outcome yet. -/
theorem Held.open_of_holding [Fintype ι] (h : s.Held x) (hexec : s.exec.holding = some x) :
    (s.life x).terminal = false := by
  have htoken := h.token
  rw [hexec, hand_self] at htoken
  cases hterminal : (s.life x).terminal with
  | false => rfl
  | true =>
    rw [h.terminal hterminal] at htoken
    simp only [Bool.toNat_false] at htoken
    omega

theorem Served.executeStateStep [Fintype ι] {throws : Bool} {next : Nat} (h : s.Served y) (hheld : s.Held y)
    (hobserved : ∀ x ∈ s.exec.reset?, (s.life x).cancelled) (hs : s.executeStateStep throws next = some s') :
    s'.Served y := by
  simp only [State.executeStateStep] at hs
  split at hs
  · cases hs
  · rename_i x hexec
    obtain rfl := Option.some.inj hs
    split
    · exact h.goes rfl rfl rfl rfl (.inl (by rw [hexec]; rfl)) id (by rw [hexec]; rintro ⟨⟩)
    · rename_i l hl
      obtain ⟨-, -, rfl, -⟩ := Life.beginStep_eq hl
      exact h.goes rfl rfl rfl rfl (.inl (by rw [hexec]; rfl))
        (lasts_setLife s (x := x) (l := { s.life x with running := true, started := true }) id y)
        (by rw [hexec]; rintro ⟨⟩)
    · rename_i l hl
      obtain ⟨-, -, rfl, -⟩ := Life.beginStep_eq hl
      exact h.goes rfl rfl rfl rfl (.inl (by rw [hexec]; rfl))
        (lasts_setLife s (x := x) (l := { s.life x with running := true, started := true }) id y)
        (by rw [hexec]; rintro ⟨⟩)
  · rename_i x hexec
    obtain rfl := Option.some.inj hs
    refine h.goes rfl rfl rfl rfl (.inl ?_) id (by rw [hexec]; rintro ⟨⟩)
    rw [hexec]
    cases throws <;> rfl
  · rename_i x hexec
    obtain rfl := Option.some.inj hs
    obtain ⟨-, hterminal, hqueued, -⟩ := Life.runNext_same (s.life x)
    have hcall := call_same (s.setLife x (s.life x).runNext.1) x (s.life x).runNext.2
    refine h.goes hcall.1 ?_ hcall.2.1 rfl (.inl ?_) ?_ (by rw [hexec]; rintro ⟨⟩)
    · dsimp only
      unfold call
      split <;> rfl
    · rw [hexec]
      split <;> rfl
    · dsimp only
      rw [hcall.2.2.2]
      exact lasts_setLife s (by rw [hterminal, hqueued]; exact id) y
  · rename_i x hexec
    split at hs
    · cases hs
    · split at hs
      · obtain rfl := Option.some.inj hs
        exact h.goes rfl rfl rfl rfl (.inl (by rw [hexec]; rfl))
          (lasts_setLife s (x := x) (l := { s.life x with next }) id y) (by rw [hexec]; rintro ⟨⟩)
      · obtain rfl := Option.some.inj hs
        obtain ⟨-, hterminal, hqueued, -⟩ := Life.runNextReturn_same (s.life x) next
        refine h.goes rfl rfl rfl rfl (.inl ?_) (lasts_setLife s (by rw [hterminal, hqueued]; exact id) y)
          (by rw [hexec]; rintro ⟨⟩)
        rw [hexec]
        split <;> rfl
  · rename_i x hexec
    obtain rfl := Option.some.inj hs
    obtain ⟨-, hterminal, hqueued, -⟩ := Life.runNext_same (s.life x).setEnd
    rw [Life.runNext_setEnd]
    exact h.goes rfl rfl rfl rfl (.inl (by rw [hexec]; rfl))
      (lasts_setLife s (x := x) (by rw [hterminal, hqueued]; exact id) y) (by rw [hexec]; rintro ⟨⟩)
  · rename_i x o releases hexec
    obtain rfl := Option.some.inj hs
    split
    · rename_i hnone
      refine h.goes rfl rfl rfl rfl (.inr ?_) id fun hr => ?_
      · cases releases <;> rfl
      · rw [hexec] at hr
        cases releases <;> cases hr
        exact Life.terminal_of_complete hnone
    · rename_i l o' hl
      have hterminal := (Life.complete_completes hl).terminal
      refine h.goes rfl rfl rfl rfl (.inr rfl) (lasts_setLife s (fun _ => .inr hterminal) y) fun hr => ?_
      rw [hexec] at hr
      cases releases <;> cases hr
      show ((s.setLife y l).life y).terminal = true
      rw [setLife_self, hterminal]
  · rename_i x o releases hexec
    obtain rfl := Option.some.inj hs
    refine h.goes rfl rfl rfl rfl (.inr ?_) id (by rw [hexec]; rintro ⟨⟩)
    cases releases <;> rfl
  · rename_i x hexec
    obtain rfl := Option.some.inj hs
    exact h.goes rfl rfl rfl rfl (.inr rfl) id (by rw [hexec]; rintro ⟨⟩)
  · rename_i x hexec
    obtain rfl := Option.some.inj hs
    split
    · exact h.goes rfl rfl rfl rfl (.inr rfl) id (by rw [hexec]; rintro ⟨⟩)
    · rename_i s'' henqueue
      rcases enqueueState_eq henqueue with ⟨-, rfl⟩ | ⟨-, -, rfl⟩
      · exact h.goes rfl rfl rfl rfl (.inl (by rw [hexec]; rfl)) id (by rw [hexec]; rintro ⟨⟩)
      · exact h.goes rfl rfl rfl rfl (.inl (by rw [hexec]; rfl)) id (by rw [hexec]; rintro ⟨⟩)
  · rename_i x hexec
    obtain rfl := Option.some.inj hs
    cases throws
    · refine h.execs rfl rfl ?_ (fun hlast => hlast.imp_right .inl) (by rw [hexec]; rintro ⟨⟩)
      rw [hexec]
      show (s.jobs ++ [x]).count y + 0 ≤ s.jobs.count y + hand (some x) y
      rw [List.count_append, count_singleton]
      exact le_rfl
    · exact h.goes rfl rfl rfl rfl (.inl (by rw [hexec]; rfl)) id (by rw [hexec]; rintro ⟨⟩)
  · rename_i x hexec
    obtain rfl := Option.some.inj hs
    exact h.goes rfl rfl rfl rfl (.inl (by rw [hexec]; rfl)) id (by rw [hexec]; rintro ⟨⟩)
  · rename_i x hexec
    obtain rfl := Option.some.inj hs
    have hcancelled := hobserved x (by rw [hexec]; rfl)
    by_cases hy : y = x
    · subst hy
      -- The state is cancelled and has no outcome, so it gets one now.
      have hnow : (s.life y).resetQueuedAfterSubmission.2 = true := by
        simp only [Life.resetQueuedAfterSubmission, hcancelled, hheld.open_of_holding (by rw [hexec]; rfl)]
        rfl
      rw [hnow, if_pos rfl]
      exact h.execs rfl rfl (Nat.add_le_add_left (Nat.zero_le _) _) (fun _ => .inr (.inr rfl))
        (by rw [hexec]; rintro ⟨⟩)
    · have hother : (s.setLife x (s.life x).resetQueuedAfterSubmission.1).life y = s.life y := setLife_ne s _ hy
      refine h.goes rfl rfl rfl rfl (.inr ?_) (fun hlast => ?_) (by rw [hexec]; rintro ⟨⟩)
      · split <;> rfl
      · show ((s.setLife x _).life y).queued = true ∨ ((s.setLife x _).life y).terminal = true
        rw [hother]
        exact hlast

theorem Served.init (callbacks next : σ → Nat) (x : σ) : (init callbacks next : State ι σ).Served x where
  served := .inl rfl
  calls _ _ := rfl
  posted := nofun
  once := Nat.zero_le _

theorem Served.step [Fintype ι] [DecidableEq ι] {a : Action ι σ} (h : s.Served x) (hheld : s.Held x)
    (hobserved : s.Observed a) (hs : s.step a = some s') : s'.Served x := by
  cases a with
  | run t y =>
    simp only [State.step] at hs
    split at hs
    · obtain rfl := Option.some.inj hs
      exact h.moves (t := t) rfl rfl rfl rfl (.inr id) (by rintro ⟨⟩)
    · cases hs
  | cancel t y =>
    simp only [State.step] at hs
    split at hs
    · obtain rfl := Option.some.inj hs
      exact h.moves (t := t) rfl rfl rfl rfl (.inr id) (by rintro ⟨⟩)
    · cases hs
  | shutdown t =>
    simp only [State.step] at hs
    split at hs
    · obtain rfl := Option.some.inj hs
      exact h.moves (t := t) rfl rfl rfl rfl (.inr id) (by rintro ⟨⟩)
    · cases hs
  | thread t throws => exact h.thread hheld hs
  | dispatch y =>
    simp only [State.step] at hs
    split at hs
    · rename_i hexec
      split at hs
      · rename_i hmem
        obtain rfl := Option.some.inj hs
        refine h.execs rfl rfl ?_ (fun hlast => hlast.imp_right .inl) (by rw [hexec]; rintro ⟨⟩)
        have hcount := count_erase s.jobs y x
        show (s.jobs.erase y).count x + hand (some y) x ≤ s.jobs.count x + _
        by_cases hyx : y = x
        · subst hyx
          have hpos := List.count_pos_iff.mpr hmem
          rw [hand_self] at hcount ⊢
          omega
        · rw [hand_ne hyx] at hcount ⊢
          omega
      · cases hs
    · cases hs
  | exec throws next => exact h.executeStateStep hheld hobserved hs

-- ---------------------------------------------------------------------------
-- Outcomes
-- ---------------------------------------------------------------------------

variable {callbacks next : σ → Nat}

theorem lived_of_reaches [Fintype ι] [DecidableEq ι] {ok : State ι σ → Action ι σ → Prop}
    (h : ReachesBy State.step ok (State.init callbacks next) s) (x : σ) : s.Lived x :=
  h.invariant (I := fun s => s.Lived x) (.init callbacks next x) fun hlived _ hs => hlived.step hs

theorem served_of_reaches [Fintype ι] [DecidableEq ι]
    (h : ReachesBy State.step Observed (State.init callbacks next) s)
    (x : σ) : s.Held x ∧ s.Served x :=
  h.invariant (I := fun s => s.Held x ∧ s.Served x) ⟨.init callbacks next x, .init callbacks next x⟩
    fun ⟨hheld, hserved⟩ hobserved hs => ⟨hheld.step hs, hserved.step hheld hobserved hs⟩

/-- With no call part-way, a state is queued if and only if it has a job. -/
theorem Held.settled [Fintype ι] (h : s.Held x) (hsettled : s.Settled) :
    s.jobs.count x = (s.life x).queued.toNat ∧ s.pendingStates.count x = s.jobs.count x := by
  have hexec : s.exec = .idle := by
    have hidle := hsettled.2
    cases hexec : s.exec <;> first | rfl | (rw [hexec] at hidle; cases hidle)
  have hcalls : ∀ t, (s.pc t).submitting = none ∧ (s.pc t).retaining = none := fun t => by
    have hpc := hsettled.1 t
    cases hp : s.pc t <;> first | exact ⟨rfl, rfl⟩ | (rw [hp] at hpc; cases hpc)
  have htoken := h.token
  have hretained := h.retained
  have hzero : ∀ f : Pc σ → Option σ, (∀ t, f (s.pc t) = none) → census (fun p => hand (f p) x) s.pc = 0 :=
    fun f hf => Finset.sum_eq_zero fun t _ => by
      dsimp only
      rw [hf t, hand_none]
  rw [hzero _ fun t => (hcalls t).1, hexec] at htoken
  rw [hzero _ fun t => (hcalls t).2, hexec] at hretained
  have hholding : hand (ExecPc.idle : ExecPc σ).holding x = 0 := rfl
  have hretaining : hand (ExecPc.idle : ExecPc σ).retaining x = 0 := rfl
  omega

/-- A submitted state that has no job has an outcome. -/
theorem ends [Fintype ι] [DecidableEq ι] (h : ReachesBy State.step Observed (State.init callbacks next) s)
    (hsettled : s.Settled) (hsubmitted : 0 < s.submissions x) (hjobs : s.jobs.count x = 0) :
    (s.life x).terminal ∧ ∃ terminalState, outcomes (s.log x) = [terminalState] := by
  obtain ⟨hheld, hserved⟩ := served_of_reaches h x
  have hlived := lived_of_reaches h x
  have hqueued := (hheld.settled hsettled).1
  have hterminal : (s.life x).terminal := by
    rcases hserved.served with hzero | hq | hterminal | hresetting
    · omega
    · rw [hq, hjobs] at hqueued
      cases hqueued
    · exact hterminal
    · have hidle := hsettled.2
      cases hexec : s.exec with
      | idle => rw [hexec] at hresetting; cases hresetting
      | _ => rw [hexec] at hidle; cases hidle
  have honce := hlived.once
  rw [hterminal] at honce
  exact ⟨hterminal, List.length_eq_one_iff.mp honce⟩

/-- A state with one callback. -/
theorem ends_completed :
    ∃ s : State Unit Unit, ReachesBy State.step Observed (State.init (fun _ => 1) fun _ => 0) s ∧
      outcomes (s.log ()) = [.kCompleted] ∧ (s.life ()).terminal ∧
        ∃ terminalState, outcomes (s.log ()) = [terminalState] :=
  have h : ReachesBy State.step Observed (State.init (fun _ => 1) fun _ => 0 : State Unit Unit) _ :=
    .of_isSome_by [.run () (), .thread () false, .thread () false, .thread () false, .dispatch (),
      .exec false 0,
      .exec false 0, .exec false 0, .exec false 2, .exec false 0, .exec false 0, .exec false 0] (by
        decide +kernel)
  ⟨_, h, by decide +kernel, ends h (by decide +kernel) (by decide +kernel) (by decide +kernel)⟩

/-- The first callback selects another one, and then `addJob` throws: the state is released, and has neither a
job nor an outcome. -/
theorem released_unended :
    ∃ s : State Unit Unit, Reaches State.step (State.init (fun _ => 2) fun _ => 0) s ∧ s.Settled ∧
      s.submissions () = 1 ∧ s.jobs = [] ∧ s.pendingStates = [] ∧ (s.life ()).terminal = false ∧
        outcomes (s.log ()) = [] :=
  have h : Reaches State.step (State.init (fun _ => 2) fun _ => 0 : State Unit Unit) _ :=
    .of_isSome [.run () (), .thread () false, .thread () false, .thread () false, .dispatch (), .exec false 0,
      .exec false 0, .exec false 0, .exec false 2, .exec false 0, .exec true 0, .exec false 0, .exec false 0]
      (by decide +kernel)
  ⟨_, h, by decide +kernel⟩

end State
end Dmn.RuntimeState
