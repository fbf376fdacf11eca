import Mathlib.Algebra.Order.BigOperators.Group.Finset

/-!
# Counting threads by their places

A counter of a program often counts what its threads are at. `census f at_`
adds up `f` over the places of all threads, and changes by the difference when
one thread moves.
-/

namespace Dmn.Lib

open Finset

variable {τ P M : Type*} [Fintype τ]

def census [AddCommMonoid M] (f : P → M) (at_ : τ → P) : M := ∑ t, f (at_ t)

/-- One thread moves. -/
theorem census_update [AddCommMonoid M] [DecidableEq τ] (f : P → M) (at_ : τ → P) (t : τ) (p : P) :
    census f (Function.update at_ t p) + f (at_ t) = census f at_ + f p := by
  have hother : ∑ u ∈ univ.erase t, f (Function.update at_ t p u) = ∑ u ∈ univ.erase t, f (at_ u) :=
    sum_congr rfl fun u hu => by
      rw [Function.update_of_ne (ne_of_mem_erase hu)]
  rw [census, census, ← add_sum_erase _ _ (mem_univ t), hother,
    ← add_sum_erase univ (fun u => f (at_ u)) (mem_univ t), Function.update_self]
  ac_rfl

theorem census_eq_zero {f : P → Nat} {at_ : τ → P} (h : census f at_ = 0) (t : τ) :
    f (at_ t) = 0 :=
  sum_eq_zero_iff.mp h t (mem_univ t)

theorem le_census {f : P → Nat} (at_ : τ → P) (t : τ) : f (at_ t) ≤ census f at_ :=
  single_le_sum (f := fun u => f (at_ u)) (fun _ _ => Nat.zero_le _) (mem_univ t)

end Dmn.Lib
