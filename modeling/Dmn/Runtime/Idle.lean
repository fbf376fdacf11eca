import Dmn.Runtime.Awake

/-!
# The assertions of the idle branch

A dispatch that takes the count from one or zero asserts that the stacks are
empty and that the count is zero. Producers break both parts: a job is taken
before its producer has counted it, and a job is counted between the
decrement and the assertion.
-/

namespace Dmn.Runtime.State

open Dmn.Lib

variable {ι : Type} [Fintype ι] {s s' : State ι} {t : ι}

/-- The last count: the next step of the executor takes it down and goes on to the assertions. -/
def Last (s : State ι) : Prop := s.exec = .done ∧ s.moreJobs = false

instance : Decidable s.Last := inferInstanceAs (Decidable (_ ∧ _))

/-- At the last count no more producers are between push and count than there are jobs in the
queues, and none counts between the last count and the assertions. -/
def Punctual (s : State ι) : Action ι → Prop
  | .exec => s.Last → census Pc.counting s.pc ≤ s.queued.length
  | .run t => s.exec = .check → (s.pc t).counting = 0
  | _ => True

instance : ∀ x : Action ι, Decidable (s.Punctual x)
  | .exec | .run _ => inferInstanceAs (Decidable (_ → _))
  | .addJob .. | .enterMainLoop _ | .exitMainLoop _ => isTrue trivial

structure Passing (s : State ι) : Prop where
  counted : s.Counted
  idle : s.exec = .check → s.schedJob = [] ∧ s.jobsCount = 0
  failed : s.history.failed = false

/-- Every job on the stack and every job in a queue but those of late producers is counted. -/
theorem Counted.last (h : s.Counted) (hlast : s.Last) (hok : census Pc.counting s.pc ≤ s.queued.length) :
    s.schedJob = [] ∧ s.jobsCount = 1 := by
  obtain ⟨hexec, hmore⟩ := hlast
  have hcount := h.count
  have hle : ¬(s.jobsCount < 0 ∨ 1 < s.jobsCount) := of_decide_eq_false hmore
  rw [hexec] at hcount
  simp only [ExecPc.pending] at hcount
  have hlength : s.schedJob.length = 0 := by omega
  exact ⟨List.length_eq_zero_iff.mp hlength, by omega⟩

-- ---------------------------------------------------------------------------
-- Steps
-- ---------------------------------------------------------------------------

theorem Passing.run [DecidableEq ι] (h : s.Passing) (hok : s.Punctual (.run t)) (hs : s.run t = some s') :
    s'.Passing := by
  refine ⟨h.counted.run hs, ?_, ?_⟩
  · rcases run_cases hs with ⟨job, hpc, rfl⟩ | ⟨number, hpc, rfl⟩ | ⟨p, -, -, -, hsame⟩
    · have hsame := push_same s job
      show (s.push job).exec = .check → (s.push job).schedJob = [] ∧ (s.push job).jobsCount = 0
      rw [hsame.exec, hsame.schedJob, hsame.jobsCount]
      exact h.idle
    · intro hexec
      have hcounting := hok hexec
      rw [hpc] at hcounting
      cases hcounting
    · rw [hsame.exec, hsame.schedJob, hsame.jobsCount]
      exact h.idle
  · rcases run_cases hs with ⟨job, hpc, rfl⟩ | ⟨number, hpc, rfl⟩ | ⟨p, -, -, -, hsame⟩
    · exact (push_same s job).failed.trans h.failed
    · exact h.failed
    · rw [hsame.history]
      exact h.failed

omit [Fintype ι] in
theorem addToContext_exec (s : State ι) (entry : Entry) : (s.addToContext entry).exec ≠ .check := by
  unfold addToContext
  dsimp only
  split <;> simp

omit [Fintype ι] in
theorem addToContext_failed (s : State ι) (entry : Entry) :
    (s.addToContext entry).history.failed = s.history.failed := by
  unfold addToContext
  dsimp only
  split <;> rfl

theorem Passing.exec (h : s.Passing) (hok : s.Punctual .exec) (hs : s.execRuntimeJobInternal = some s') :
    s'.Passing := by
  suffices hnext : (s'.exec = .check → s'.schedJob = [] ∧ s'.jobsCount = 0) ∧ s'.history.failed = false from
    ⟨h.counted.exec hs, hnext.1, hnext.2⟩
  simp only [execRuntimeJobInternal] at hs
  split at hs
  · split at hs
    · obtain rfl := Option.some.inj hs
      refine ⟨fun hexec => ?_, h.failed⟩
      dsimp only at hexec
      split at hexec <;> cases hexec
    · cases hs
  · obtain rfl := Option.some.inj hs
    split
    · exact ⟨fun hexec => absurd hexec (addToContext_exec _ _), (addToContext_failed _ _).trans h.failed⟩
    · refine ⟨fun hexec => ?_, h.failed⟩
      dsimp only at hexec
      split at hexec <;> cases hexec
  · obtain rfl := Option.some.inj hs
    split
    · exact ⟨fun hexec => absurd hexec (addToContext_exec _ _), (addToContext_failed _ _).trans h.failed⟩
    · refine ⟨fun hexec => ?_, h.failed⟩
      dsimp only at hexec
      split at hexec <;> cases hexec
  · obtain rfl := Option.some.inj hs
    split
    · exact ⟨fun hexec => absurd hexec (addToContext_exec _ _), (addToContext_failed _ _).trans h.failed⟩
    · exact ⟨by rintro ⟨⟩, h.failed⟩
  · obtain rfl := Option.some.inj hs
    split
    · unfold resume
      dsimp only
      split <;> exact ⟨by rintro ⟨⟩, h.failed⟩
    · exact ⟨by rintro ⟨⟩, h.failed⟩
  · rename_i hexec
    obtain rfl := Option.some.inj hs
    refine ⟨fun hnext => ?_, h.failed⟩
    cases hmore : s.moreJobs with
    | true => simp [hmore] at hnext
    | false =>
      obtain ⟨hjob, hcount⟩ := h.counted.last ⟨hexec, hmore⟩ (hok ⟨hexec, hmore⟩)
      exact ⟨hjob, by show s.jobsCount - 1 = 0; omega⟩
  · obtain rfl := Option.some.inj hs
    exact ⟨by rintro ⟨⟩, h.failed⟩
  · rename_i hexec
    obtain rfl := Option.some.inj hs
    obtain ⟨hjob, hcount⟩ := h.idle hexec
    have htask : s.schedTask = [] := by
      have haligned := h.counted.aligned
      rw [hjob] at haligned
      exact List.map_eq_nil_iff.mp haligned
    refine ⟨by rintro ⟨⟩, ?_⟩
    simp [h.failed, hjob, htask, hcount]
  · obtain rfl := Option.some.inj hs
    refine ⟨fun hexec => ?_, h.failed⟩
    dsimp only at hexec
    split at hexec <;> cases hexec

theorem Passing.step [DecidableEq ι] {x : Action ι} (h : s.Passing) (hok : s.Punctual x)
    (hs : s.step x = some s') : s'.Passing := by
  rcases call_cases hs with ⟨t, rfl, hs⟩ | ⟨rfl, hs⟩ | rfl | ⟨t, p, hpc, rfl, hp⟩
  · exact h.run hok hs
  · exact h.exec hok hs
  · exact h
  · exact ⟨h.counted.step hs, h.idle, h.failed⟩

-- ---------------------------------------------------------------------------
-- Runs
-- ---------------------------------------------------------------------------

theorem assertions [DecidableEq ι] (h : ReachesBy step Punctual ({} : State ι) s) : s.history.failed = false :=
  (h.invariant (I := Passing) ⟨.empty, nofun, rfl⟩ fun hI hok hs => hI.step hok hs).failed

/-- A job is suspended and preempted, and its thread ends in the idle branch. -/
theorem assertions_preempted :
    ∃ s : State (Fin 2), ReachesBy step Punctual {} s ∧ s.history.finished.length = 2 ∧ s.exec = .idle ∧
      s.history.failed = false := by
  let calls : List (Action (Fin 2)) :=
    [.enterMainLoop 1, .run 1, .run 1, .run 1, .addJob 0 { suspensions := 1 }, .run 0, .run 0, .run 0, .run 0,
      .exec, .exec, .exec, .exec, .exec, .addJob 0 { priority := .kHigh }, .run 0, .run 0,
      .exec, .exec, .exec, .exec, .exec, .exec, .exec, .exec, .exec, .exec]
  have h : ReachesBy step Punctual ({} : State (Fin 2)) ((execBy step Punctual {} calls).getD {}) :=
    .of_isSome_by calls (by decide)
  exact ⟨_, h, by decide, by decide, assertions h⟩

/-- A job is counted after the decrement that found one job, and before the assertions. -/
theorem assertion_fails : ∃ s : State (Fin 2), Reaches step {} s ∧ s.history.failed := by
  let calls : List (Action (Fin 2)) :=
    [.enterMainLoop 1, .run 1, .run 1, .run 1, .addJob 0 {}, .run 0, .run 0, .run 0, .run 0,
      .exec, .exec, .exec, .exec, .exec, .addJob 0 {}, .run 0, .run 0, .exec]
  have h : Reaches step ({} : State (Fin 2)) ((Lib.exec step {} calls).getD {}) :=
    .of_isSome calls (by decide)
  exact ⟨_, h, by decide⟩

end Dmn.Runtime.State
