import Mathlib

/-!
# Transition systems

A system is a partial step function on states and actions: `none` means that
the action is not enabled. `exec` runs a schedule; `ReachesBy ok` is
reachability by steps that all meet a condition, and carries the invariant
rules.
-/

namespace Dmn.Lib

-- Runs are tried on a few threads: the numerals of these types.
instance (priority := 2000) neZeroOne : NeZero 1 := ⟨Nat.succ_ne_zero 0⟩
instance (priority := 2000) neZeroTwo : NeZero 2 := ⟨Nat.succ_ne_zero 1⟩
instance (priority := 2000) neZeroThree : NeZero 3 := ⟨Nat.succ_ne_zero 2⟩
instance (priority := 2000) neZeroFour : NeZero 4 := ⟨Nat.succ_ne_zero 3⟩

section
variable {σ α : Type*} (step : σ → α → Option σ)

/-- The state a schedule leads to. -/
def exec : σ → List α → Option σ
  | s, [] => some s
  | s, a :: as => (step s a).bind fun s' => exec s' as

theorem exec_append (s : σ) (as bs : List α) :
    exec step s (as ++ bs) = (exec step s as).bind fun s' => exec step s' bs := by
  induction as generalizing s with
  | nil => rfl
  | cons a as ih => simp only [List.cons_append, exec, ih, Option.bind_assoc]

/-- Every step of a schedule meets a condition, checked where it is taken. -/
def execBy (ok : σ → α → Prop) [∀ s a, Decidable (ok s a)] : σ → List α → Option σ
  | s, [] => some s
  | s, a :: as => if ok s a then (step s a).bind fun s' => execBy ok s' as else none

/-- Reachability by steps that meet a condition. -/
inductive ReachesBy (ok : σ → α → Prop) (s : σ) : σ → Prop
  | refl : ReachesBy ok s s
  | tail {t t' : σ} (a : α) : ReachesBy ok s t → ok t a → step t a = some t' → ReachesBy ok s t'

abbrev Reaches (s t : σ) : Prop := ReachesBy step (fun _ _ => True) s t

end

namespace ReachesBy

variable {σ α : Type*} {step : σ → α → Option σ} {ok : σ → α → Prop} {s t u : σ}

/-- What holds at the start and is kept by the steps holds in every reached state. -/
theorem invariant {I : σ → Prop} (h : ReachesBy step ok s t) (hinit : I s)
    (hstep : ∀ {t a t'}, I t → ok t a → step t a = some t' → I t') : I t := by
  induction h with
  | refl => exact hinit
  | tail a _ hok ha ih => exact hstep ih hok ha

theorem mono {ok' : σ → α → Prop} (h : ReachesBy step ok s t) (himp : ∀ t a, ok t a → ok' t a) :
    ReachesBy step ok' s t := by
  induction h with
  | refl => exact .refl
  | tail a _ hok ha ih => exact ih.tail a (himp _ _ hok) ha

theorem reaches (h : ReachesBy step ok s t) : Reaches step s t := h.mono fun _ _ _ => trivial

theorem trans (h : ReachesBy step ok s t) (h' : ReachesBy step ok t u) : ReachesBy step ok s u := by
  induction h' with
  | refl => exact h
  | tail a _ hok ha ih => exact ih.tail a hok ha

theorem head (hok : ok s a) (ha : step s a = some t) (h : ReachesBy step ok t u) :
    ReachesBy step ok s u :=
  (ReachesBy.refl.tail a hok ha).trans h

/-- A schedule that runs to its end reaches the state it ends in. -/
theorem of_exec (h : exec step s as = some t) : Reaches step s t := by
  induction as generalizing s with
  | nil => exact Option.some.inj h ▸ .refl
  | cons a as ih =>
    obtain ⟨s', hs', h⟩ := Option.bind_eq_some_iff.mp h
    exact head trivial hs' (ih h)

theorem of_execBy [∀ s a, Decidable (ok s a)] (h : execBy step ok s as = some t) :
    ReachesBy step ok s t := by
  induction as generalizing s with
  | nil => exact Option.some.inj h ▸ .refl
  | cons a as ih =>
    rw [execBy] at h
    split at h
    · rename_i hok
      obtain ⟨s', hs', h⟩ := Option.bind_eq_some_iff.mp h
      exact head hok hs' (ih h)
    · cases h

/-- The state at the end of a schedule that does run to its end. -/
theorem of_isSome (as : List α) (h : (exec step s as).isSome) : Reaches step s ((exec step s as).getD s) := by
  obtain ⟨t, ht⟩ := Option.isSome_iff_exists.mp h
  rw [ht]
  exact of_exec ht

theorem of_isSome_by [∀ s a, Decidable (ok s a)] (as : List α)
    (h : (execBy step ok s as).isSome) : ReachesBy step ok s ((execBy step ok s as).getD s) := by
  obtain ⟨t, ht⟩ := Option.isSome_iff_exists.mp h
  rw [ht]
  exact of_execBy ht

/-- What a schedule leads to, evaluated once. -/
theorem exists_of_any {p : σ → Prop} [DecidablePred p] (as : List α)
    (h : (exec step s as).any fun t => decide (p t)) : ∃ t, Reaches step s t ∧ p t := by
  obtain ⟨t, ht, hp⟩ := (Option.any_eq_true _ _).mp h
  exact ⟨t, of_exec ht, of_decide_eq_true hp⟩

end ReachesBy
end Dmn.Lib
