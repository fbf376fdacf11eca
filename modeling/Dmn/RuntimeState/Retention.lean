import Dmn.Lib.Census
import Dmn.RuntimeState.Machine

/-!
# Who has a state

A state that has been submitted is in one hand at a time: in a call of `run`,
in a posted job or in a dispatch. `m_queued` says that there is such a hand,
and `m_pendingStates` holds the state from `enqueueState` to `releaseState`.
-/

namespace Dmn.RuntimeState

open Dmn.Lib

variable {σ : Type}

/-- `run` is past its first section. -/
def Pc.submitting : Pc σ → Option σ
  | .retain x | .post x | .unretain x | .reset x => some x
  | _ => none

def Pc.retaining : Pc σ → Option σ
  | .post x | .unretain x => some x
  | _ => none

/-- In a dispatch, before its outcome or its next job. -/
def ExecPc.holding : ExecPc σ → Option σ
  | .begin x | .onStarted x | .runNext x | .callback x | .setEnd x | .complete x _ true | .retain x | .post x
  | .unretain x | .reset x => some x
  | _ => none

def ExecPc.retaining : ExecPc σ → Option σ
  | .begin x | .onStarted x | .runNext x | .callback x | .setEnd x | .complete x _ true | .hook x _ true
  | .release x | .retain x | .post x | .unretain x => some x
  | _ => none

/-- Past `complete`. -/
def ExecPc.ended : ExecPc σ → Option σ
  | .hook x .. | .release x => some x
  | _ => none

/-- In the `complete` of `resetQueuedAfterSubmission`. -/
def ExecPc.resetting : ExecPc σ → Option σ
  | .complete x _ false => some x
  | _ => none

theorem Pc.submitting_of_retaining {p : Pc σ} {x : σ} (h : p.retaining = some x) : p.submitting = some x := by
  cases p <;> simp_all [retaining, submitting]

theorem ExecPc.holding_or_ended {p : ExecPc σ} {x : σ} (h : p.retaining = some x) :
    p.holding = some x ∨ p.ended = some x := by
  cases p with
  | complete y o releases => cases releases <;> simp_all [retaining, holding]
  | hook y o releases => cases releases <;> simp_all [retaining, ended]
  | _ => simp_all [retaining, holding, ended]

-- ---------------------------------------------------------------------------
-- Sections
-- ---------------------------------------------------------------------------

/-- What no section of a state takes back. -/
structure Life.Becomes (l l' : Life) : Prop where
  cancelled : l.cancelled → l'.cancelled
  terminal : l.terminal → l'.terminal
  closed : (l.terminal → l.queued = false) → l'.terminal → l'.queued = false
  stays : l.cancelled → l.queued = false → l'.queued = false

namespace Life

variable {l l' : Life} {b : Bool} {o o' : TerminalState}

theorem Becomes.refl (l : Life) : l.Becomes l := ⟨id, id, id, fun _ => id⟩

theorem Becomes.same (hcancelled : l'.cancelled = l.cancelled) (hterminal : l'.terminal = l.terminal)
    (hqueued : l'.queued = l.queued) : l.Becomes l' :=
  ⟨hcancelled ▸ id, hterminal ▸ id, by rw [hterminal, hqueued]; exact id, by rw [hqueued]; exact fun _ => id⟩

theorem submit_eq (h : l.submit = some l') :
    l.terminal = false ∧ l.cancelled = false ∧ l.queued = false ∧ l' = { l with queued := true } := by
  unfold submit at h
  split at h
  · cases h
  · split at h
    · cases h
    · rename_i hnone
      obtain rfl := Option.some.inj h
      simp only [Bool.or_eq_true, not_or, Bool.not_eq_true] at hnone
      exact ⟨hnone.1.1, hnone.1.2, hnone.2, rfl⟩

theorem submit_becomes (h : l.submit = some l') : l.Becomes l' := by
  obtain ⟨hterminal, hcancelled, -, rfl⟩ := submit_eq h
  refine ⟨id, id, fun _ ht => ?_, fun hc => ?_⟩
  · have ht' : l.terminal = true := ht
    rw [hterminal] at ht'
    cases ht'
  · rw [hcancelled] at hc
    cases hc

theorem cancel_eq (h : l.cancel = some (l', b)) :
    l.terminal = false ∧ l.cancelled = false ∧ l' = { l with cancelled := true } ∧ b = !l.queued := by
  unfold cancel at h
  split at h
  · cases h
  · rename_i hnone
    cases h
    simp only [Bool.or_eq_true, not_or, Bool.not_eq_true] at hnone
    exact ⟨hnone.1, hnone.2, rfl, rfl⟩

theorem cancel_becomes (h : l.cancel = some (l', b)) : l.Becomes l' := by
  obtain ⟨-, -, rfl, -⟩ := cancel_eq h
  exact ⟨fun _ => rfl, id, id, fun _ => id⟩

theorem beginStep_eq (h : l.beginStep = some (l', b)) :
    l.terminal = false ∧ l.cancelled = false ∧ l' = { l with running := true, started := true } ∧
      b = !l.started := by
  unfold beginStep at h
  split at h
  · cases h
  · rename_i hnone
    cases h
    simp only [Bool.or_eq_true, not_or, Bool.not_eq_true] at hnone
    exact ⟨hnone.1, hnone.2, rfl, rfl⟩

/-- The outcome that is chosen, and its flag. -/
structure Completes (l l' : Life) (o o' : TerminalState) : Prop where
  open_ : l.terminal = false
  terminal : l'.terminal
  queued : l'.queued = false
  started : l'.started = l.started
  cancelled : l'.cancelled = (l.cancelled || decide (o' = .kCancelled))
  completed : l'.completed = (l.completed || decide (o' = .kCompleted))
  failed : l'.failed = (l.failed || decide (o' = .kFailed))
  chosen : o' = if o = .kCompleted ∧ l.cancelled then .kCancelled else o

theorem complete_completes (h : l.complete o = some (l', o')) : l.Completes l' o o' := by
  unfold complete at h
  split at h
  · cases h
  · rename_i hopen
    have hopen' : l.terminal = false := by simpa using hopen
    obtain h := Option.some.inj h
    generalize hchosen : (if o = .kCompleted ∧ l.cancelled = true then TerminalState.kCancelled else o) =
      chosen at h
    cases chosen <;> cases h <;> exact ⟨hopen', rfl, rfl, rfl, by simp, by simp, by simp, hchosen.symm⟩

theorem terminal_of_complete (h : l.complete o = none) : l.terminal := by
  unfold complete at h
  split at h
  · assumption
  · cases h

theorem complete_becomes (h : l.complete o = some (l', o')) : l.Becomes l' := by
  have hc := complete_completes h
  refine ⟨fun hcancelled => ?_, fun _ => hc.terminal, fun _ _ => hc.queued, fun _ _ => hc.queued⟩
  rw [hc.cancelled, hcancelled]
  rfl

theorem reset_becomes (l : Life) : l.Becomes l.resetQueuedAfterSubmission.1 :=
  ⟨id, id, fun _ _ => rfl, fun _ _ => rfl⟩

/-- `runNext` only touches the members of `Dmn_State`. -/
theorem runNext_same (l : Life) : l.runNext.1.cancelled = l.cancelled ∧ l.runNext.1.terminal = l.terminal ∧
    l.runNext.1.queued = l.queued ∧ l.runNext.1.started = l.started := by
  unfold runNext
  split
  · exact ⟨rfl, rfl, rfl, rfl⟩
  · split
    · exact ⟨rfl, rfl, rfl, rfl⟩
    · dsimp only
      generalize hinit : (if l.initialized = true then l else l.init) = m
      have hsame : m.cancelled = l.cancelled ∧ m.terminal = l.terminal ∧ m.queued = l.queued ∧
        m.started = l.started := by
        subst hinit
        cases l.initialized <;> exact ⟨rfl, rfl, rfl, rfl⟩
      split <;> exact hsame

theorem runNextReturn_same (l : Life) (next : Nat) : (l.runNextReturn next).1.cancelled = l.cancelled ∧
    (l.runNextReturn next).1.terminal = l.terminal ∧ (l.runNextReturn next).1.queued = l.queued ∧
    (l.runNextReturn next).1.started = l.started := by
  unfold runNextReturn
  dsimp only
  split <;> exact ⟨rfl, rfl, rfl, rfl⟩

/-- After `setEnd` no callback is called. -/
theorem runNext_setEnd (l : Life) : l.setEnd.runNext.2 = false := by
  unfold runNext
  split
  · rfl
  · rw [if_pos (by exact le_rfl)]

end Life

-- ---------------------------------------------------------------------------
-- Hands
-- ---------------------------------------------------------------------------

section
variable [DecidableEq σ]

def hand (o : Option σ) (x : σ) : Nat := if o = some x then 1 else 0

@[simp] theorem hand_none (x : σ) : hand none x = 0 := rfl

@[simp] theorem hand_self (x : σ) : hand (some x) x = 1 := if_pos rfl

theorem hand_ne {x y : σ} (h : y ≠ x) : hand (some y) x = 0 := if_neg fun heq => h (Option.some.inj heq)

theorem hand_eq_zero {o : Option σ} {x : σ} (h : o ≠ some x) : hand o x = 0 := if_neg h

end

namespace State

variable {ι : Type} [DecidableEq σ] {s s' : State ι σ} {t : ι} {p : Pc σ} {x y : σ}

structure Held [Fintype ι] (s : State ι σ) (x : σ) : Prop where
  token : census (fun p => hand p.submitting x) s.pc + s.jobs.count x + hand s.exec.holding x =
    (s.life x).queued.toNat
  retained : s.pendingStates.count x =
    census (fun p => hand p.retaining x) s.pc + s.jobs.count x + hand s.exec.retaining x
  terminal : (s.life x).terminal → (s.life x).queued = false
  ended : s.exec.ended = some x → (s.life x).terminal
  completing : ∀ t xs k, s.pc t = .complete x xs k → (s.life x).cancelled ∧ (s.life x).queued = false
  resetting : s.exec.resetting = some x → (s.life x).cancelled ∧ (s.life x).queued = false

/-- A caller moves. -/
theorem Held.moves [Fintype ι] [DecidableEq ι] (h : s.Held x) (hpc : s'.pc = Function.update s.pc t p)
    (hexec : s'.exec = s.exec) (hlife : (s.life x).Becomes (s'.life x))
    (htoken : hand p.submitting x + s'.jobs.count x + (s.life x).queued.toNat =
      hand (s.pc t).submitting x + s.jobs.count x + (s'.life x).queued.toNat)
    (hretained : s'.pendingStates.count x + hand (s.pc t).retaining x + s.jobs.count x =
      s.pendingStates.count x + hand p.retaining x + s'.jobs.count x)
    (hcompleting : ∀ xs k, p = .complete x xs k → (s'.life x).cancelled ∧ (s'.life x).queued = false) :
    s'.Held x where
  token := by
    have hcensus := census_update (fun p => hand p.submitting x) s.pc t p
    have hold := h.token
    rw [hpc, hexec]
    omega
  retained := by
    have hcensus := census_update (fun p => hand p.retaining x) s.pc t p
    have hold := h.retained
    rw [hpc, hexec]
    omega
  terminal := hlife.closed h.terminal
  ended hended := hlife.terminal (h.ended (hexec ▸ hended))
  completing u xs k hu := by
    rw [hpc] at hu
    by_cases hut : u = t
    · subst hut
      rw [Function.update_self] at hu
      exact hcompleting xs k hu
    · rw [Function.update_of_ne hut] at hu
      obtain ⟨hcancelled, hqueued⟩ := h.completing u xs k hu
      exact ⟨hlife.cancelled hcancelled, hlife.stays hcancelled hqueued⟩
  resetting hresetting := by
    obtain ⟨hcancelled, hqueued⟩ := h.resetting (hexec ▸ hresetting)
    exact ⟨hlife.cancelled hcancelled, hlife.stays hcancelled hqueued⟩

/-- The async thread moves. -/
theorem Held.execs [Fintype ι] (h : s.Held x) (hpc : s'.pc = s.pc) (hlife : (s.life x).Becomes (s'.life x))
    (htoken : hand s'.exec.holding x + s'.jobs.count x + (s.life x).queued.toNat =
      hand s.exec.holding x + s.jobs.count x + (s'.life x).queued.toNat)
    (hretained : s'.pendingStates.count x + hand s.exec.retaining x + s.jobs.count x =
      s.pendingStates.count x + hand s'.exec.retaining x + s'.jobs.count x)
    (hended : s'.exec.ended = some x → (s'.life x).terminal)
    (hresetting : s'.exec.resetting = some x → (s'.life x).cancelled ∧ (s'.life x).queued = false) :
    s'.Held x where
  token := by
    have hold := h.token
    rw [hpc]
    omega
  retained := by
    have hold := h.retained
    rw [hpc]
    omega
  terminal := hlife.closed h.terminal
  ended := hended
  completing u xs k hu := by
    obtain ⟨hcancelled, hqueued⟩ := h.completing u xs k (hpc ▸ hu)
    exact ⟨hlife.cancelled hcancelled, hlife.stays hcancelled hqueued⟩
  resetting := hresetting

-- ---------------------------------------------------------------------------
-- Steps of a caller
-- ---------------------------------------------------------------------------

theorem setLife_self (s : State ι σ) (x : σ) (l : Life) : (s.setLife x l).life x = l := Function.update_self ..

theorem setLife_ne (s : State ι σ) (l : Life) (h : y ≠ x) : (s.setLife x l).life y = s.life y :=
  Function.update_of_ne h ..

/-- Only the life of one state changes. -/
theorem becomes_setLife (s : State ι σ) {l : Life} (h : (s.life x).Becomes l) (y : σ) :
    (s.life y).Becomes ((s.setLife x l).life y) := by
  by_cases hy : y = x
  · subst hy
    rw [setLife_self]
    exact h
  · rw [setLife_ne s l hy]
    exact .refl _

/-- A section that leaves `m_queued` alone. -/
theorem queued_setLife (s : State ι σ) {l : Life} (h : l.queued = (s.life x).queued) (y : σ) :
    ((s.setLife x l).life y).queued = (s.life y).queued := by
  by_cases hy : y = x
  · subst hy
    rw [setLife_self, h]
  · rw [setLife_ne s l hy]

theorem enqueueState_eq (h : s.enqueueState x = some s') :
    (x ∈ s.pendingStates ∧ s' = s) ∨
      (x ∉ s.pendingStates ∧ s.shutdown = false ∧ s' = { s with pendingStates := s.pendingStates ++ [x] }) := by
  unfold enqueueState at h
  split at h
  · rename_i hmem
    exact .inl ⟨hmem, (Option.some.inj h).symm⟩
  · rename_i hmem
    split at h
    · cases h
    · rename_i hshutdown
      exact .inr ⟨hmem, by simpa using hshutdown, (Option.some.inj h).symm⟩

theorem count_erase (l : List σ) (x y : σ) : (l.erase x).count y = l.count y - hand (some x) y := by
  simp [List.count_erase, hand]

theorem count_singleton (x y : σ) : [x].count y = hand (some x) y := by
  simp [List.count_singleton, hand]

/-- The call has the state, so nobody else has. -/
theorem Held.notMem_pendingStates [Fintype ι] [DecidableEq ι] (h : s.Held x) (hpc : s.pc t = .retain x) :
    x ∉ s.pendingStates := by
  have htoken := h.token
  have hretained := h.retained
  have hqueued : (s.life x).queued.toNat ≤ 1 := Bool.toNat_le _
  have hothers := census_update (fun p => hand p.submitting x) s.pc t .idle
  have hself : hand (s.pc t).submitting x = 1 := by
    rw [hpc]
    exact hand_self x
  have hidle : hand (Pc.idle : Pc σ).submitting x = 0 := rfl
  have hretaining : census (fun p => hand p.retaining x) s.pc ≤
      census (fun p => hand p.submitting x) (Function.update s.pc t .idle) :=
    Finset.sum_le_sum fun u _ => by
      dsimp only
      by_cases hut : u = t
      · rw [hut, hpc, Function.update_self]
        exact le_rfl
      · rw [Function.update_of_ne hut]
        by_cases hret : (s.pc u).retaining = some x
        · rw [hret, Pc.submitting_of_retaining hret]
        · rw [hand_eq_zero hret]
          exact Nat.zero_le _
  have hexec : hand s.exec.retaining x ≤ hand s.exec.holding x ∨ (s.life x).queued.toNat = 0 := by
    by_cases hret : s.exec.retaining = some x
    · rcases ExecPc.holding_or_ended hret with hholding | hended
      · rw [hret, hholding]
        exact .inl le_rfl
      · rw [h.terminal (h.ended hended)]
        exact .inr rfl
    · rw [hand_eq_zero hret]
      exact .inl (Nat.zero_le _)
  exact List.count_eq_zero.mp (by omega)

theorem Held.thread [Fintype ι] [DecidableEq ι] {throws : Bool} (h : s.Held y)
    (hs : s.thread t throws = some s') :
    s'.Held y := by
  simp only [State.thread] at hs
  split at hs
  · cases hs
  · rename_i x hpc
    obtain rfl := Option.some.inj hs
    split
    · exact h.moves (t := t) rfl rfl (.refl _) (by rw [hpc]; rfl) (by rw [hpc]; rfl) nofun
    · rename_i l hl
      refine h.moves (t := t) rfl rfl (becomes_setLife s (Life.submit_becomes hl) y) ?_ (by rw [hpc]; rfl) nofun
      obtain ⟨-, -, hqueued, rfl⟩ := Life.submit_eq hl
      rw [hpc]
      show hand (some x) y + s.jobs.count y + _ = 0 + s.jobs.count y + ((s.setLife x _).life y).queued.toNat
      by_cases hy : y = x
      · subst hy
        rw [setLife_self, hand_self, hqueued]
        show 1 + s.jobs.count y + 0 = 0 + s.jobs.count y + 1
        omega
      · rw [setLife_ne s _ hy, hand_ne (Ne.symm hy)]
  · rename_i x hpc
    obtain rfl := Option.some.inj hs
    split
    · exact h.moves (t := t) rfl rfl (.refl _) (by rw [hpc]; rfl) (by rw [hpc]; rfl) nofun
    · rename_i s'' henqueue
      rcases enqueueState_eq henqueue with ⟨hmem, rfl⟩ | ⟨-, -, rfl⟩
      · refine h.moves (t := t) rfl rfl (.refl _) (by rw [hpc]; rfl) ?_ nofun
        rw [hpc]
        by_cases hy : y = x
        · subst hy
          exact absurd hmem (h.notMem_pendingStates hpc)
        · show s''.pendingStates.count y + 0 + _ = s''.pendingStates.count y + hand (some x) y + _
          rw [hand_ne (Ne.symm hy)]
          rfl
      · refine h.moves (t := t) rfl rfl (.refl _) (by rw [hpc]; rfl) ?_ nofun
        rw [hpc]
        show (s.pendingStates ++ [x]).count y + 0 + s.jobs.count y =
          s.pendingStates.count y + hand (some x) y + s.jobs.count y
        rw [List.count_append, count_singleton]
        rfl
  · rename_i x hpc
    obtain rfl := Option.some.inj hs
    split
    · exact h.moves (t := t) rfl rfl (.refl _) (by rw [hpc]; rfl) (by rw [hpc]; rfl) nofun
    · refine h.moves (t := t) rfl rfl (.refl _) ?_ ?_ nofun
      · rw [hpc]
        show 0 + (s.jobs ++ [x]).count y + _ = hand (some x) y + s.jobs.count y + (s.life y).queued.toNat
        rw [List.count_append, count_singleton]
        show 0 + _ + (s.life y).queued.toNat = _
        omega
      · rw [hpc]
        show s.pendingStates.count y + hand (some x) y + s.jobs.count y =
          s.pendingStates.count y + 0 + (s.jobs ++ [x]).count y
        rw [List.count_append, count_singleton]
        omega
  · rename_i x hpc
    obtain rfl := Option.some.inj hs
    refine h.moves (t := t) rfl rfl (.refl _) (by rw [hpc]; rfl) ?_ nofun
    rw [hpc]
    show (s.pendingStates.erase x).count y + hand (some x) y + s.jobs.count y =
      s.pendingStates.count y + 0 + s.jobs.count y
    have hle := le_census (f := fun p => hand p.retaining y) s.pc t
    have hself : hand (s.pc t).retaining y = hand (some x) y := by rw [hpc]; rfl
    have hretained := h.retained
    rw [count_erase]
    omega
  · rename_i x hpc
    obtain rfl := Option.some.inj hs
    refine h.moves (t := t) rfl rfl (becomes_setLife s (Life.reset_becomes _) y) ?_
      (by rw [hpc]; show _ + hand none y + _ = _ + _ + _; split <;> rfl) fun xs k hp => ?_
    · have hnone : hand (if (s.life x).resetQueuedAfterSubmission.2 then Pc.complete x [] none else
        .idle).submitting y = 0 := by
        split <;> rfl
      rw [hpc, hnone]
      show 0 + s.jobs.count y + (s.life y).queued.toNat =
        hand (some x) y + s.jobs.count y + ((s.setLife x _).life y).queued.toNat
      by_cases hy : y = x
      · subst hy
        have htoken := h.token
        have hle := le_census (f := fun p => hand p.submitting y) s.pc t
        have hself : hand (s.pc t).submitting y = 1 := by rw [hpc]; exact hand_self y
        have hqueued : (s.life y).queued.toNat ≤ 1 := Bool.toNat_le _
        rw [setLife_self, hand_self]
        show 0 + s.jobs.count y + (s.life y).queued.toNat = 1 + s.jobs.count y + 0
        omega
      · rw [setLife_ne s _ hy, hand_ne (Ne.symm hy)]
    · split at hp
      · rename_i hnow
        cases hp
        have hcancelled : (s.life y).cancelled = true := by
          simp only [Life.resetQueuedAfterSubmission, Bool.and_eq_true] at hnow
          exact hnow.1
        exact ⟨by rw [show (((s.setLife y _).goto t _).life y) = _ from setLife_self s y _]; exact hcancelled,
          by rw [show (((s.setLife y _).goto t _).life y) = _ from setLife_self s y _]; rfl⟩
      · cases hp
  · rename_i hpc
    obtain rfl := Option.some.inj hs
    exact h.moves (t := t) rfl rfl (.refl _) (by rw [hpc]; rfl) (by rw [hpc]; rfl) nofun
  · rename_i pending hpc
    obtain rfl := Option.some.inj hs
    exact h.moves (t := t) rfl rfl (.refl _) (by rw [hpc]; rfl) (by rw [hpc]; rfl) nofun
  · rename_i x xs pending hpc
    obtain rfl := Option.some.inj hs
    split
    · exact h.moves (t := t) rfl rfl (.refl _) (by rw [hpc]; rfl) (by rw [hpc]; rfl) nofun
    · rename_i l completeNow hl
      have hbecomes := Life.cancel_becomes hl
      obtain ⟨-, -, rfl, rfl⟩ := Life.cancel_eq hl
      have hplace : ∀ f : Pc σ → Option σ, (∀ x xs k, f (.complete x xs k) = none) → (∀ xs k,
        f (.cancels xs k) = none) →
          hand (f (if (!(s.life x).queued) = true then .complete x xs pending else .cancels xs pending)) y =
            0 :=
        fun f hf hf' => by split <;> simp [hf, hf']
      refine h.moves (t := t) rfl rfl (becomes_setLife s hbecomes y) ?_ ?_ fun xs' k hp => ?_
      · rw [hplace _ (fun _ _ _ => rfl) fun _ _ => rfl, hpc]
        show _ = 0 + s.jobs.count y + ((s.setLife x _).life y).queued.toNat
        rw [queued_setLife (x := x) (l := { s.life x with cancelled := true }) s rfl]
        rfl
      · rw [hplace _ (fun _ _ _ => rfl) fun _ _ => rfl, hpc]
        rfl
      · split at hp
        · rename_i hnow
          cases hp
          rw [show ((s.setLife y _).goto t _).life y = _ from setLife_self s y _]
          exact ⟨rfl, by simpa using hnow⟩
        · cases hp
  · rename_i x xs pending hpc
    obtain rfl := Option.some.inj hs
    split
    · exact h.moves (t := t) rfl rfl (.refl _) (by rw [hpc]; rfl) (by rw [hpc]; rfl) nofun
    · rename_i l terminalState hl
      refine h.moves (t := t) rfl rfl (becomes_setLife s (Life.complete_becomes hl) y) ?_ (by
        rw [hpc]; rfl) nofun
      rw [hpc]
      show 0 + s.jobs.count y + _ = 0 + s.jobs.count y + ((s.setLife x l).life y).queued.toNat
      by_cases hy : y = x
      · subst hy
        rw [setLife_self, (h.completing t xs pending hpc).2, (Life.complete_completes hl).queued]
      · rw [setLife_ne s _ hy]
  · rename_i x terminalState xs pending hpc
    obtain rfl := Option.some.inj hs
    exact h.moves (t := t) rfl rfl (.refl _) (by rw [hpc]; rfl) (by rw [hpc]; rfl) nofun
  · rename_i pending hpc
    obtain rfl := Option.some.inj hs
    exact h.moves (t := t) rfl rfl (.refl _) (by rw [hpc]; rfl) (by rw [hpc]; rfl) nofun
  · rename_i x xs pending hpc
    split at hs
    · obtain rfl := Option.some.inj hs
      exact h.moves (t := t) rfl rfl (.refl _) (by rw [hpc]; rfl) (by rw [hpc]; rfl) nofun
    · cases hs

-- ---------------------------------------------------------------------------
-- Steps of the async thread
-- ---------------------------------------------------------------------------

/-- The dispatch goes on, and leaves `m_queued` alone. -/
theorem Held.dispatch_goes [Fintype ι] {l : Life} {p : ExecPc σ} (h : s.Held y) (hpc : s'.pc = s.pc)
    (hexec : s'.exec = p) (hjobs : s'.jobs = s.jobs) (hpending : s'.pendingStates = s.pendingStates)
    (hlife : s'.life = Function.update s.life x l) (hcancelled : l.cancelled = (s.life x).cancelled)
    (hterminal : l.terminal = (s.life x).terminal) (hqueued : l.queued = (s.life x).queued)
    (hholding : p.holding = s.exec.holding) (hretaining : p.retaining = s.exec.retaining)
    (hended : p.ended = none)
    (hresetting : p.resetting = none) : s'.Held y := by
  have hlife' : s'.life y = (s.setLife x l).life y := congrFun hlife y
  refine h.execs hpc ?_ ?_ ?_ ?_ ?_
  · rw [hlife']
    exact becomes_setLife s (.same hcancelled hterminal hqueued) y
  · rw [hlife', queued_setLife s hqueued, hexec, hjobs, hholding]
  · rw [hexec, hjobs, hpending, hretaining]
  · rw [hexec, hended]
    exact nofun
  · rw [hexec, hresetting]
    exact nofun

theorem call_same (s : State ι σ) (x : σ) (called : Bool) :
    (s.call x called).pc = s.pc ∧ (s.call x called).jobs = s.jobs ∧
      (s.call x called).pendingStates = s.pendingStates ∧ (s.call x called).life = s.life := by
  unfold call
  split <;> exact ⟨rfl, rfl, rfl, rfl⟩

/-- The dispatch goes on with the same life. -/
theorem Held.dispatch_keeps [Fintype ι] {p : ExecPc σ} (h : s.Held y) (hpc : s'.pc = s.pc) (hexec : s'.exec = p)
    (hjobs : s'.jobs = s.jobs) (hpending : s'.pendingStates = s.pendingStates) (hlife : s'.life = s.life)
    (hholding : p.holding = s.exec.holding) (hretaining : p.retaining = s.exec.retaining)
    (hended : p.ended = some y → s.exec.ended = some y) (hresetting : p.resetting = none) : s'.Held y := by
  have hlife' : s'.life y = s.life y := congrFun hlife y
  refine h.execs hpc (hlife' ▸ .refl _) ?_ ?_ ?_ ?_
  · rw [hlife', hexec, hjobs, hholding]
  · rw [hexec, hjobs, hpending, hretaining]
  · rw [hexec, hlife']
    exact fun he => h.ended (hended he)
  · rw [hexec, hresetting]
    exact nofun

/-- A dispatch completes a state that it holds, or one that is past its last job. -/
theorem Held.completes [Fintype ι] {o o' : TerminalState} {releases : Bool} {l : Life} (h : s.Held y)
    (hexec : s.exec = .complete x o releases) (hl : (s.life x).complete o = some (l, o')) (hpc : s'.pc = s.pc)
    (hexec' : s'.exec = .hook x o' releases) (hjobs : s'.jobs = s.jobs)
    (hpending : s'.pendingStates = s.pendingStates) (hlife : s'.life = Function.update s.life x l) :
    s'.Held y := by
  have hlife' : s'.life y = (s.setLife x l).life y := congrFun hlife y
  have hc := Life.complete_completes hl
  refine h.execs hpc ?_ ?_ ?_ ?_ ?_
  · rw [hlife']
    exact becomes_setLife s (Life.complete_becomes hl) y
  · rw [hlife', hexec, hexec', hjobs]
    by_cases hy : y = x
    · subst hy
      rw [setLife_self, hc.queued]
      cases releases with
      | true =>
        have htoken := h.token
        have hqueued : (s.life y).queued.toNat ≤ 1 := Bool.toNat_le _
        have hself : hand s.exec.holding y = 1 := by rw [hexec]; exact hand_self y
        show 0 + s.jobs.count y + (s.life y).queued.toNat = hand (some y) y + s.jobs.count y + 0
        rw [hand_self]
        omega
      | false =>
        rw [(h.resetting (by rw [hexec]; rfl)).2]
        rfl
    · have hnone : hand (ExecPc.complete x o releases).holding y = 0 := by
        cases releases
        · rfl
        · exact hand_ne (Ne.symm hy)
      rw [setLife_ne s _ hy, hnone]
      rfl
  · rw [hexec, hexec', hjobs, hpending]
    cases releases <;> rfl
  · rw [hlife', hexec']
    intro he
    obtain rfl : x = y := Option.some.inj he
    rw [setLife_self]
    exact hc.terminal
  · rw [hexec']
    exact nofun

/-- What the async thread holds is retained. -/
theorem Held.retained_pos [Fintype ι] (h : s.Held x) (hexec : s.exec.retaining = some x) :
    0 < s.pendingStates.count x := by
  rw [h.retained, hexec, hand_self]
  omega

theorem Held.executeStateStep [Fintype ι] {throws : Bool} {next : Nat} (h : s.Held y)
    (hs : s.executeStateStep throws next = some s') : s'.Held y := by
  simp only [State.executeStateStep] at hs
  split at hs
  · cases hs
  · rename_i x hexec
    obtain rfl := Option.some.inj hs
    split
    · exact h.dispatch_keeps rfl rfl rfl rfl rfl (by rw [hexec]; rfl) (by rw [hexec]; rfl) nofun rfl
    · rename_i l hl
      obtain ⟨-, -, rfl, -⟩ := Life.beginStep_eq hl
      exact h.dispatch_goes (p := .onStarted x) rfl rfl rfl rfl rfl rfl rfl rfl (by rw [hexec]; rfl) (by
        rw [hexec]; rfl)
        rfl rfl
    · rename_i l hl
      obtain ⟨-, -, rfl, -⟩ := Life.beginStep_eq hl
      exact h.dispatch_goes (p := .runNext x) rfl rfl rfl rfl rfl rfl rfl rfl (by rw [hexec]; rfl) (by
        rw [hexec]; rfl)
        rfl rfl
  · rename_i x hexec
    obtain rfl := Option.some.inj hs
    cases throws
    · exact h.dispatch_keeps (p := .runNext x) rfl rfl rfl rfl rfl (by rw [hexec]; rfl) (by
        rw [hexec]; rfl) nofun rfl
    · exact h.dispatch_keeps (p := .complete x .kFailed true) rfl rfl rfl rfl rfl (by rw [hexec]; rfl)
        (by rw [hexec]; rfl) nofun rfl
  · rename_i x hexec
    obtain rfl := Option.some.inj hs
    obtain ⟨hcancelled, hterminal, hqueued, -⟩ := Life.runNext_same (s.life x)
    obtain ⟨hpc, hjobs, hpending, hlife⟩ := call_same (s.setLife x (s.life x).runNext.1) x (s.life x).runNext.2
    refine h.dispatch_goes hpc rfl hjobs hpending hlife hcancelled hterminal hqueued ?_ ?_ ?_ ?_
    all_goals
      try rw [hexec]
      split <;> rfl
  · rename_i x hexec
    split at hs
    · cases hs
    · split at hs
      · obtain rfl := Option.some.inj hs
        exact h.dispatch_goes (p := .complete x .kFailed true) rfl rfl rfl rfl rfl rfl rfl rfl (by
          rw [hexec]; rfl)
          (by rw [hexec]; rfl) rfl rfl
      · obtain rfl := Option.some.inj hs
        obtain ⟨hcancelled, hterminal, hqueued, -⟩ := Life.runNextReturn_same (s.life x) next
        refine h.dispatch_goes rfl rfl rfl rfl rfl hcancelled hterminal hqueued ?_ ?_ ?_ ?_
        all_goals
          try rw [hexec]
          split <;> rfl
  · rename_i x hexec
    obtain rfl := Option.some.inj hs
    obtain ⟨hcancelled, hterminal, hqueued, -⟩ := Life.runNext_same (s.life x).setEnd
    obtain ⟨hpc, hjobs, hpending, hlife⟩ :=
      call_same (s.setLife x (s.life x).setEnd.runNext.1) x (s.life x).setEnd.runNext.2
    exact h.dispatch_goes (p := .complete x .kCancelled true) hpc rfl hjobs hpending hlife hcancelled
      hterminal hqueued
      (by rw [hexec]; rfl) (by rw [hexec]; rfl) rfl rfl
  · rename_i x o releases hexec
    obtain rfl := Option.some.inj hs
    split
    · rename_i hnone
      have hterminal := Life.terminal_of_complete hnone
      by_cases hy : y = x
      · subst hy
        cases releases with
        | true =>
          -- A state that is held is not terminal.
          have htoken := h.token
          rw [hexec, h.terminal hterminal] at htoken
          simp [ExecPc.holding] at htoken
        | false =>
          exact h.dispatch_keeps (p := .idle) rfl rfl rfl rfl rfl (by rw [hexec]; rfl) (by rw [hexec]; rfl)
            nofun rfl
      · refine h.execs rfl (.refl _) ?_ ?_ (fun he => ?_) fun hr => ?_
        · rw [hexec]
          cases releases
          · rfl
          · show 0 + _ + _ = hand (some x) y + _ + _
            rw [hand_ne (Ne.symm hy)]
        · rw [hexec]
          cases releases <;> rfl
        · cases releases with
          | false => cases he
          | true => exact absurd (Option.some.inj he).symm hy
        · cases releases <;> cases hr
    · rename_i l o' hl
      exact h.completes hexec hl rfl rfl rfl rfl rfl
  · rename_i x o releases hexec
    obtain rfl := Option.some.inj hs
    cases releases
    · exact h.dispatch_keeps (p := .idle) rfl rfl rfl rfl rfl (by rw [hexec]; rfl) (by
        rw [hexec]; rfl) nofun rfl
    · exact h.dispatch_keeps (p := .release x) rfl rfl rfl rfl rfl (by rw [hexec]; rfl) (by rw [hexec]; rfl)
        (by rw [hexec]; exact id) rfl
  · rename_i x hexec
    obtain rfl := Option.some.inj hs
    refine h.execs rfl (.refl _) (by rw [hexec]; rfl) ?_ nofun nofun
    rw [hexec]
    show (s.pendingStates.erase x).count y + hand (some x) y + s.jobs.count y = s.pendingStates.count y +
      0 + s.jobs.count y
    have hretained := h.retained
    rw [hexec] at hretained
    have hself : hand (ExecPc.release x).retaining y = hand (some x) y := rfl
    rw [count_erase]
    omega
  · rename_i x hexec
    obtain rfl := Option.some.inj hs
    have hmem : y = x → x ∈ s.pendingStates := fun hy => by
      subst hy
      exact List.count_pos_iff.mp (h.retained_pos (by rw [hexec]; rfl))
    split
    · rename_i hnone
      have hne : y ≠ x := fun hy => by simp [enqueueState, hmem hy] at hnone
      refine h.execs rfl (.refl _) ?_ ?_ nofun nofun
      · rw [hexec]
        show 0 + _ + _ = hand (some x) y + _ + _
        rw [hand_ne (Ne.symm hne)]
      · rw [hexec]
        show s.pendingStates.count y + hand (some x) y + _ = _ + 0 + _
        rw [hand_ne (Ne.symm hne)]
    · rename_i s'' henqueue
      rcases enqueueState_eq henqueue with ⟨-, rfl⟩ | ⟨hnot, -, rfl⟩
      · exact h.dispatch_keeps (p := .post x) rfl rfl rfl rfl rfl (by rw [hexec]; rfl) (by
          rw [hexec]; rfl) nofun rfl
      · have hne : y ≠ x := fun hy => hnot (hmem hy)
        refine h.execs rfl (.refl _) (by rw [hexec]; rfl) ?_ nofun nofun
        rw [hexec]
        show (s.pendingStates ++ [x]).count y + _ + _ = _
        rw [List.count_append, count_singleton, hand_ne (Ne.symm hne)]
        rfl
  · rename_i x hexec
    obtain rfl := Option.some.inj hs
    cases throws
    · refine h.execs rfl (.refl _) ?_ ?_ nofun nofun
      · rw [hexec]
        show 0 + (s.jobs ++ [x]).count y + (s.life y).queued.toNat = hand (some x) y + s.jobs.count y +
          (s.life y).queued.toNat
        rw [List.count_append, count_singleton]
        omega
      · rw [hexec]
        show s.pendingStates.count y + hand (some x) y + s.jobs.count y = s.pendingStates.count y +
          0 + (s.jobs ++ [x]).count y
        rw [List.count_append, count_singleton]
        omega
    · exact h.dispatch_keeps (p := .unretain x) rfl rfl rfl rfl rfl (by rw [hexec]; rfl) (by
        rw [hexec]; rfl) nofun rfl
  · rename_i x hexec
    obtain rfl := Option.some.inj hs
    refine h.execs rfl (.refl _) (by rw [hexec]; rfl) ?_ nofun nofun
    rw [hexec]
    show (s.pendingStates.erase x).count y + hand (some x) y + s.jobs.count y = s.pendingStates.count y +
      0 + s.jobs.count y
    have hretained := h.retained
    rw [hexec] at hretained
    have hself : hand (ExecPc.unretain x).retaining y = hand (some x) y := rfl
    rw [count_erase]
    omega
  · rename_i x hexec
    obtain rfl := Option.some.inj hs
    have hnone : ∀ f : ExecPc σ → Option σ, f .idle = none → f (.complete x .kCancelled false) = none →
        f (if (s.life x).resetQueuedAfterSubmission.2 = true then .complete x .kCancelled false else .idle) =
          none :=
      fun f hf hf' => by split <;> assumption
    refine h.execs rfl (becomes_setLife s (Life.reset_becomes _) y) ?_ ?_ ?_ fun hr => ?_
    · show hand (ExecPc.holding (if (s.life x).resetQueuedAfterSubmission.2 = true then _ else _)) y +
        s.jobs.count y +
        (s.life y).queued.toNat = hand s.exec.holding y + s.jobs.count y + ((s.setLife x _).life y).queued.toNat
      rw [hnone ExecPc.holding rfl rfl, hexec]
      show 0 + _ + _ = hand (some x) y + _ + _
      by_cases hy : y = x
      · subst hy
        have htoken := h.token
        have hself : hand s.exec.holding y = 1 := by rw [hexec]; exact hand_self y
        have hqueued : (s.life y).queued.toNat ≤ 1 := Bool.toNat_le _
        rw [setLife_self, hand_self]
        show 0 + s.jobs.count y + (s.life y).queued.toNat = 1 + s.jobs.count y + 0
        omega
      · rw [setLife_ne s _ hy, hand_ne (Ne.symm hy)]
    · show _ + hand s.exec.retaining y + _ =
        _ + hand (ExecPc.retaining (if (s.life x).resetQueuedAfterSubmission.2 = true then _ else _)) y + _
      rw [hnone ExecPc.retaining rfl rfl, hexec]
      rfl
    · show ExecPc.ended (if (s.life x).resetQueuedAfterSubmission.2 = true then _ else _) = some y → _
      rw [hnone ExecPc.ended rfl rfl]
      exact nofun
    · have hnow : (s.life x).resetQueuedAfterSubmission.2 = true ∧ x = y := by
        dsimp only at hr
        split at hr
        · rename_i hnow
          exact ⟨hnow, Option.some.inj hr⟩
        · cases hr
      obtain ⟨hnow, rfl⟩ := hnow
      simp only [Life.resetQueuedAfterSubmission, Bool.and_eq_true] at hnow
      show ((s.setLife x _).life x).cancelled = true ∧ ((s.setLife x _).life x).queued = false
      rw [setLife_self]
      exact ⟨hnow.1, rfl⟩

theorem Held.init [Fintype ι] (callbacks next : σ → Nat) (x : σ) :
    (init callbacks next : State ι σ).Held x where
  token := by simp [State.init, census, Pc.submitting, ExecPc.holding]
  retained := by simp [State.init, census, Pc.retaining, ExecPc.retaining]
  terminal := nofun
  ended := nofun
  completing := nofun
  resetting := nofun

theorem Held.step [Fintype ι] [DecidableEq ι] {a : Action ι σ} (h : s.Held x) (hs : s.step a = some s') :
    s'.Held x := by
  have hcall : ∀ {s'' : State ι σ} {t p}, s.pc t = .idle → s''.pc = Function.update s.pc t p →
    s''.exec = s.exec →
      s''.life = s.life → s''.jobs = s.jobs → s''.pendingStates = s.pendingStates → p.submitting = none →
      p.retaining = none → (∀ y xs k, p ≠ .complete y xs k) → s''.Held x := by
    intro s'' t p hidle hpc hexec hlife hjobs hpending hsubmitting hretaining hcomplete
    have hlife' : s''.life x = s.life x := congrFun hlife x
    exact h.moves hpc hexec (hlife' ▸ .refl _) (by rw [hlife', hjobs, hidle, hsubmitting]; rfl)
      (by rw [hjobs, hpending, hidle, hretaining]; rfl) fun xs k hp => absurd hp (hcomplete x xs k)
  cases a with
  | run t y =>
    simp only [State.step] at hs
    split at hs
    · rename_i hpc
      obtain rfl := Option.some.inj hs
      exact hcall hpc rfl rfl rfl rfl rfl rfl rfl nofun
    · cases hs
  | cancel t y =>
    simp only [State.step] at hs
    split at hs
    · rename_i hpc
      obtain rfl := Option.some.inj hs
      exact hcall hpc rfl rfl rfl rfl rfl rfl rfl nofun
    · cases hs
  | shutdown t =>
    simp only [State.step] at hs
    split at hs
    · rename_i hpc
      obtain rfl := Option.some.inj hs
      exact hcall hpc rfl rfl rfl rfl rfl rfl rfl nofun
    · cases hs
  | thread t throws => exact h.thread hs
  | dispatch y =>
    simp only [State.step] at hs
    split at hs
    · rename_i hexec
      split at hs
      · rename_i hmem
        obtain rfl := Option.some.inj hs
        have hpos : y = x → 0 < s.jobs.count x := fun hy => List.count_pos_iff.mpr (hy ▸ hmem)
        have hcount := count_erase s.jobs y x
        have hhand : hand (some y) x ≤ s.jobs.count x := by
          by_cases hy : y = x
          · rw [hy, hand_self]
            exact hpos hy
          · rw [hand_ne hy]
            exact Nat.zero_le _
        refine h.execs rfl (.refl _) ?_ ?_ nofun nofun
        · rw [hexec]
          show hand (some y) x + (s.jobs.erase y).count x + (s.life x).queued.toNat = 0 +
            s.jobs.count x + (s.life x).queued.toNat
          omega
        · rw [hexec]
          show s.pendingStates.count x + 0 + s.jobs.count x = s.pendingStates.count x +
            hand (some y) x + (s.jobs.erase y).count x
          omega
      · cases hs
    · cases hs
  | exec throws next => exact h.executeStateStep hs

end State
end Dmn.RuntimeState
