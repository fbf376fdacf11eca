import Dmn.IntervalBTree.Mutation

/-!
# Pruned traversals

A query skips a subtree whose greatest endpoint lies before its range. Over a
balanced tree the metadata is exact, so the pruned traversals see what a scan
of the whole listing would.
-/

namespace Dmn.IntervalBTree

open Lib Node

variable {α : Type} {range : Range}

theorem overlaps_false_of_end_lt {r : Range} (h : r.end < range.start) : r.overlaps range = false := by
  simp [Range.overlaps, h]

theorem not_overlaps_of_maxEnd_lt {l : List (Entry α)} (h : maxEnd l < range.start) :
    ∀ e ∈ l, e.range.overlaps range = false :=
  fun _ he => overlaps_false_of_end_lt ((le_maxEnd he).trans_lt h)

namespace Node

@[simp] theorem visitOverlappingInChildren_eq_map (cs : List (Node α)) :
    visitOverlappingInChildren range cs = cs.map (visitOverlappingInOrder range) := by
  induction cs with
  | nil => rfl
  | cons c cs ih => simp [visitOverlappingInChildren, ih]

@[simp] theorem hasOverlapInChildren_eq_map (cs : List (Node α)) :
    hasOverlapInChildren range cs = cs.map (hasOverlapInSubtree range) := by
  induction cs with
  | nil => rfl
  | cons c cs ih => simp [hasOverlapInChildren, ih]

theorem weaveVisits_filter {k : List (Entry α)} (h : w.length = k.length + 1) :
    weaveVisits q k (w.map (List.filter (·.range.overlaps q))) =
      (weave k w).filter (·.range.overlaps q) := by
  induction k generalizing w with
  | nil =>
    obtain ⟨b, rfl⟩ := List.length_eq_one_iff.mp h
    rfl
  | cons e k ih =>
    cases w with
    | nil => simp at h
    | cons b w =>
      simp only [List.map_cons, weaveVisits, weave_cons, List.filter_append, List.filter_cons,
        ih (by simpa using h)]
      split <;> simp

theorem weave_any {k : List (Entry α)} (h : w.length = k.length + 1) :
    ((k.zip (w.map (List.any · (·.range.overlaps q)))).any
        (fun p => p.2 || p.1.range.overlaps q) ||
      (w.map (List.any · (·.range.overlaps q))).getLast?.getD false) =
      (weave k w).any (·.range.overlaps q) := by
  induction k generalizing w with
  | nil =>
    obtain ⟨b, rfl⟩ := List.length_eq_one_iff.mp h
    simp
  | cons e k ih =>
    cases w with
    | nil => simp at h
    | cons b w =>
      have hne : w ≠ [] := by
        rintro rfl
        simp at h
      obtain ⟨c, cs, rfl⟩ := List.exists_cons_of_ne_nil hne
      have := ih (w := c :: cs) (by simpa using h)
      simp only [List.map_cons, List.zip_cons_cons, List.any_cons, List.getLast?_cons_cons,
        weave_cons, List.any_append, ← this, Bool.or_assoc]

end Node

theorem Balanced.visitOverlappingInOrder_eq (h : Balanced d n) :
    n.visitOverlappingInOrder range =
      (n : Node α).collectEntriesInOrder.filter (·.range.overlaps range) := by
  induction h with
  | @leaf es m h3 hm =>
    rw [visitOverlappingInOrder, collect_leaf]
    split
    · rename_i hlt
      exact (List.filter_eq_nil_iff.mpr fun e he => by
        simp [not_overlaps_of_maxEnd_lt (hm ▸ hlt) e he]).symm
    · rfl
  | @branch d es cs m hlen _ _ _ hm ih =>
    rw [visitOverlappingInOrder, collect_branch]
    split
    · rename_i hlt
      exact (List.filter_eq_nil_iff.mpr fun e he => by
        simp [not_overlaps_of_maxEnd_lt (hm ▸ hlt) e he]).symm
    · rw [visitOverlappingInChildren_eq_map, List.map_congr_left ih]
      simpa [Function.comp_def] using weaveVisits_filter (q := range) (k := es)
        (w := cs.map collectEntriesInOrder) (by simpa using hlen)

theorem Balanced.hasOverlapInSubtree_eq (h : Balanced d n) :
    n.hasOverlapInSubtree range =
      (n : Node α).collectEntriesInOrder.any (·.range.overlaps range) := by
  induction h with
  | @leaf es m h3 hm =>
    rw [hasOverlapInSubtree, collect_leaf]
    split
    · rename_i hlt
      exact (List.any_eq_false.mpr fun e he => by
        simp [not_overlaps_of_maxEnd_lt (hm ▸ hlt) e he]).symm
    · rfl
  | @branch d es cs m hlen _ _ _ hm ih =>
    rw [hasOverlapInSubtree, collect_branch]
    split
    · rename_i hlt
      exact (List.any_eq_false.mpr fun e he => by
        simp [not_overlaps_of_maxEnd_lt (hm ▸ hlt) e he]).symm
    · rw [hasOverlapInChildren_eq_map, List.map_congr_left ih]
      simpa [Function.comp_def] using weave_any (q := range) (k := es)
        (w := cs.map collectEntriesInOrder) (by simpa using hlen)

namespace Tree

variable {t : Tree α}

theorem hasOverlap_eq (h : t.Wellformed) :
    t.hasOverlap range = t.entries.any (·.range.overlaps range) := by
  cases hr : t.root with
  | none => simp [hasOverlap, hr, entries_none hr]
  | some n =>
    obtain ⟨⟨d, hb⟩, -⟩ := h.shaped n hr
    rw [hasOverlap, hr, entries_some hr]
    simp only [hb.hasOverlapInSubtree_eq]
    cases hv : range.isValid
    · simp [Range.overlaps, hv]
    · rfl

theorem forEachOverlapping_eq (h : t.Wellformed) (hv : range.isValid) :
    t.forEachOverlapping range =
      .ok ((t.entries.filter (·.range.overlaps range)).map fun e => (e.range, e.value)) := by
  cases hr : t.root with
  | none => simp [forEachOverlapping, hv, hr, entries_none hr]
  | some n =>
    obtain ⟨⟨d, hb⟩, -⟩ := h.shaped n hr
    simp [forEachOverlapping, hv, hr, entries_some hr, hb.visitOverlappingInOrder_eq]

/-- The listing is already in the order of the enumeration. -/
theorem enumerateCanonical_eq (hcmp : WeakComparator t.canonicalComparator) (h : t.Wellformed) :
    t.enumerateCanonical none = t.entries.map fun e => (e.range, e.value) := by
  have hless : ∀ a b, t.enumerationLess none a b = t.less a b := by
    intro a b
    by_cases hr : a.range.start = b.range.start ∧ a.range.end = b.range.end
    · rw [enumerationLess, if_pos hr, less, entryLess_sameRange hr]
    · rw [enumerationLess, if_neg hr]
  rw [enumerateCanonical, List.Pairwise.insertionSort_eq]
  exact h.sorted.imp fun hab => by
    simp [hless, (entryLess_strictTotal hcmp).asymm hab]

end Tree
end Dmn.IntervalBTree
