import Dmn.IntervalBTree.Mutation
import Mathlib

/-!
# The height of the interval B-tree

Every leaf of a tree with `n` entries is at the same depth, which is logarithmic in `n`: a path from
the root visits at most `log₂ (n + 1)` nodes.
-/

namespace Dmn.IntervalBTree

open Lib Node

variable {α : Type} {d : Nat} {n : Node α}

/-- Counted with one more each, the entries of a branch are those of its children. -/
theorem length_weave {es : List α} {bs : List (List α)} (h : bs.length = es.length + 1) :
    (weave es bs).length + 1 = (bs.map fun b => b.length + 1).sum := by
  induction es generalizing bs with
  | nil =>
    obtain ⟨b, rfl⟩ := List.length_eq_one_iff.mp h
    simp
  | cons e es ih =>
    cases bs with
    | nil => simp at h
    | cons b bs =>
      have hrest : (weave es bs).length + 1 = (bs.map fun b => b.length + 1).sum := ih (by simpa using h)
      simp only [weave_cons, List.length_append, List.length_cons, List.map_cons, List.sum_cons]
      omega

theorem Balanced.le_length (h : Balanced d n) (hpos : 1 ≤ n.entries.length) :
    2 ^ (d + 1) ≤ n.collectEntriesInOrder.length + 1 := by
  induction h with
  | leaf _ _ => simpa using hpos
  | @branch d es cs m hlen hcs hne _ _ ih =>
    have hchildren : ∀ k ∈ (cs.map collectEntriesInOrder).map (fun b => b.length + 1), 2 ^ (d + 1) ≤ k := by
      simp only [List.map_map, List.mem_map, Function.comp_apply, forall_exists_index, and_imp,
        forall_apply_eq_imp_iff₂]
      exact fun c hc => ih c hc (hne c hc)
    have hsum := List.card_nsmul_le_sum _ _ hchildren
    have htwo : 2 ≤ cs.length := by
      change 1 ≤ es.length at hpos
      omega
    rw [collect_branch, length_weave (by simpa using hlen)]
    simp only [List.length_map, smul_eq_mul] at hsum
    calc 2 ^ (d + 1 + 1) = 2 * 2 ^ (d + 1) := by rw [pow_succ, Nat.mul_comm]
      _ ≤ cs.length * 2 ^ (d + 1) := Nat.mul_le_mul_right _ htwo
      _ ≤ _ := hsum

theorem Balanced.length_le (h : Balanced d n) : n.collectEntriesInOrder.length + 1 ≤ 4 ^ (d + 1) := by
  induction h with
  | leaf hle _ =>
    simp only [collect_leaf, Nat.zero_add, pow_one]
    omega
  | @branch d es cs m hlen hcs hne hle _ ih =>
    have hchildren : ∀ k ∈ (cs.map collectEntriesInOrder).map (fun b => b.length + 1), k ≤ 4 ^ (d + 1) := by
      simp only [List.map_map, List.mem_map, Function.comp_apply, forall_exists_index, and_imp,
        forall_apply_eq_imp_iff₂]
      exact fun c hc => ih c hc
    have hsum := List.sum_le_card_nsmul _ _ hchildren
    have hfour : cs.length ≤ 4 := by omega
    rw [collect_branch, length_weave (by simpa using hlen)]
    simp only [List.length_map, smul_eq_mul] at hsum
    calc _ ≤ cs.length * 4 ^ (d + 1) := hsum
      _ ≤ 4 * 4 ^ (d + 1) := Nat.mul_le_mul_right _ hfour
      _ = 4 ^ (d + 1 + 1) := by rw [pow_succ 4 (d + 1), Nat.mul_comm]

namespace Tree

/-- Whatever is done to a tree from its construction on, its height is logarithmic in its size. -/
theorem history_height (comparator : Option (Range → Range → Bool)) (evaluator : Option (α → α → Bool))
    (hcmp : WeakComparator comparator) (ops : List (Op α)) :
    ∃ t, (constructed comparator evaluator).run ops = some t ∧ ∀ root ∈ t.root,
      Balanced root.height root ∧ root.height + 1 ≤ Nat.log 2 (t.size + 1) ∧ Nat.log 4 t.size ≤
        root.height := by
  obtain ⟨t, ht, hwf, -⟩ := run_wellformed (t := constructed comparator evaluator) hcmp (.empty rfl rfl) ops
  refine ⟨t, ht, fun root hroot => ?_⟩
  obtain ⟨⟨d, hbalanced⟩, hpos⟩ := hwf.shaped root hroot
  have hsize : t.size = root.collectEntriesInOrder.length := by
    rw [hwf.size_eq, entries, Option.mem_def.mp hroot]
  obtain rfl := hbalanced.height_eq
  have hle := hbalanced.le_length hpos
  have hlt := hbalanced.length_le
  rw [← hsize] at hle hlt
  refine ⟨hbalanced, Nat.le_log_of_pow_le (by decide) hle, Nat.lt_succ_iff.mp (Nat.log_lt_of_lt_pow ?_ hlt)⟩
  have hsome : 0 < 2 ^ root.height := Nat.two_pow_pos _
  rw [pow_succ] at hle
  omega

theorem history_height_default :
    ∃ t, (constructed (α := Nat) (some defaultRangeLess) none).run [.add ⟨0, 9⟩ 1 none, .add ⟨0,
      9⟩ 2 none] = some t ∧
      ∀ root ∈ t.root, Balanced root.height root ∧ root.height + 1 ≤ Nat.log 2 (t.size + 1) ∧
        Nat.log 4 t.size ≤ root.height :=
  history_height _ _ weakComparator_default _

end Tree
end Dmn.IntervalBTree
