import Dmn.IntervalBTree.Range
import Mathlib

/-!
# What the topology of a range says

`classifyTopology` sweeps over the sorted parts of the existing ranges inside the candidate. What it
returns is a matter of points only: which of the candidate's two ends, and whether all of its
points, lie in an existing range.
-/

namespace Dmn.IntervalBTree

namespace Range

/-- The integer points of a range. -/
def Contains (r : Range) (x : Int) : Prop := r.start.toInt ≤ x ∧ x ≤ r.end.toInt

theorem isValid_iff (r : Range) : r.isValid = true ↔ r.start.toInt ≤ r.end.toInt := by
  simp [isValid, Int64.le_iff_toInt_le]

theorem Contains.valid {r : Range} {x : Int} (inside : r.Contains x) : r.isValid = true :=
  (isValid_iff r).mpr (inside.1.trans inside.2)

theorem overlaps_iff (r other : Range) :
    r.overlaps other = true ↔ r.isValid ∧ other.isValid ∧
      r.start.toInt ≤ other.end.toInt ∧ other.start.toInt ≤ r.end.toInt := by
  simp [overlaps, Int64.le_iff_toInt_le, and_assoc]

end Range

theorem toInt_max (a b : Int64) : (max a b).toInt = max a.toInt b.toInt := by
  rw [max_def, max_def]
  simp only [Int64.le_iff_toInt_le]
  split <;> rfl

theorem toInt_min (a b : Int64) : (min a b).toInt = min a.toInt b.toInt := by
  rw [min_def, min_def]
  simp only [Int64.le_iff_toInt_le]
  split <;> rfl

theorem toInt_add_one {a : Int64} (below : a ≠ Int64.maxValue) : (a + 1).toInt = a.toInt + 1 := by
  have bound : a.toInt ≠ 2 ^ 63 - 1 := fun same => below (Int64.toInt_inj.mp same)
  have low := a.le_toInt
  have high := a.toInt_lt
  rw [Int64.toInt_add, Int64.toInt_one, Int.bmod_eq_of_le] <;> omega

-- ---------------------------------------------------------------------------
-- The arithmetic of the sweep
-- ---------------------------------------------------------------------------

/-- `a + 1` in 64 bits; signed overflow has no result. -/
def checkedSuccessor (a : Int64) : Option Int64 :=
  if a.toInt + 1 < 2 ^ 63 then some (a + 1) else none

/-- `coverage` with its one addition checked where it is evaluated. -/
def checkedCoverage : List Range → Int64 → Bool → Option (Int64 × Bool)
  | [], coveredEnd, continuousCoverage => some (coveredEnd, continuousCoverage)
  | next :: rest, coveredEnd, continuousCoverage => do
    let gap ← if coveredEnd != Int64.maxValue then
        (checkedSuccessor coveredEnd).map fun successor => decide (next.start > successor)
      else some false
    checkedCoverage rest (max coveredEnd next.end) (continuousCoverage && !gap)

theorem checkedSuccessor_eq {a : Int64} (below : a ≠ Int64.maxValue) :
    checkedSuccessor a = some (a + 1) := by
  have bound : a.toInt ≠ 2 ^ 63 - 1 := fun same => below (Int64.toInt_inj.mp same)
  have high := a.toInt_lt
  exact if_pos (by omega)

theorem checkedCoverage_eq (rest : List Range) (coveredEnd : Int64) (continuousCoverage : Bool) :
    checkedCoverage rest coveredEnd continuousCoverage =
      some (coverage rest coveredEnd continuousCoverage) := by
  induction rest generalizing coveredEnd continuousCoverage with
  | nil => rfl
  | cons next rest ih =>
    rw [checkedCoverage, coverage]
    by_cases top : coveredEnd = Int64.maxValue
    · simp [top, ih]
    · have below : (coveredEnd != Int64.maxValue) = true := bne_iff_ne.mpr top
      simp [below, ih, checkedSuccessor_eq top]

-- ---------------------------------------------------------------------------
-- The sweep
-- ---------------------------------------------------------------------------

/-- A point lies in one of the ranges. -/
def Covered (ranges : List Range) (x : Int) : Prop := ∃ r ∈ ranges, r.Contains x

@[simp] theorem not_covered_nil (x : Int) : ¬ Covered [] x := fun ⟨_, mem, _⟩ => by cases mem

theorem covered_cons {r : Range} {ranges : List Range} {x : Int} :
    Covered (r :: ranges) x ↔ r.Contains x ∨ Covered ranges x := by
  simp [Covered]

theorem Covered.perm {ranges others : List Range} {x : Int} (covered : Covered ranges x)
    (same : ranges.Perm others) : Covered others x := by
  obtain ⟨r, mem, inside⟩ := covered
  exact ⟨r, same.mem_iff.mp mem, inside⟩

theorem coverage_end (rest : List Range) (coveredEnd : Int64) (continuousCoverage : Bool) (y : Int) :
    (coverage rest coveredEnd continuousCoverage).1.toInt ≤ y ↔
      coveredEnd.toInt ≤ y ∧ ∀ r ∈ rest, r.end.toInt ≤ y := by
  induction rest generalizing coveredEnd continuousCoverage with
  | nil => simp [coverage]
  | cons next rest ih => simp [coverage, ih, toInt_max, and_assoc]

theorem gap_iff (coveredEnd start : Int64) :
    (coveredEnd != Int64.maxValue && decide (start > coveredEnd + 1)) = true ↔
      coveredEnd.toInt + 1 < start.toInt := by
  by_cases top : coveredEnd = Int64.maxValue
  · have high := start.toInt_lt
    rw [top, Int64.toInt_maxValue]
    simp only [bne_self_eq_false, Bool.false_and, Bool.false_eq_true, false_iff]
    omega
  · simp [top, Int64.lt_iff_toInt_lt, toInt_add_one top]

/-- The first gap leaves the point behind the covered end open, since every later range starts
behind that point. -/
theorem coverage_continuous {rest : List Range} {coveredEnd : Int64} {continuousCoverage : Bool}
    {a : Int} (sorted : rest.Pairwise fun r s => r.start.toInt ≤ s.start.toInt)
    (valid : ∀ r ∈ rest, r.start.toInt ≤ r.end.toInt) (reached : a ≤ coveredEnd.toInt + 1) :
    (coverage rest coveredEnd continuousCoverage).2 = true ↔
      continuousCoverage = true ∧ ∀ x, a ≤ x →
        x ≤ (coverage rest coveredEnd continuousCoverage).1.toInt →
          x ≤ coveredEnd.toInt ∨ Covered rest x := by
  induction rest generalizing coveredEnd continuousCoverage with
  | nil => simp [coverage]
  | cons next rest ih =>
    obtain ⟨first, sorted⟩ := List.pairwise_cons.mp sorted
    obtain ⟨nextValid, valid⟩ := List.forall_mem_cons.mp valid
    rw [coverage]
    have gap := gap_iff coveredEnd next.start
    generalize (coveredEnd != Int64.maxValue && decide (next.start > coveredEnd + 1)) = found at gap ⊢
    have final := coverage_end rest (max coveredEnd next.end) (continuousCoverage && !found)
    rw [ih sorted valid (by rw [toInt_max]; omega), toInt_max, Bool.and_eq_true, Bool.not_eq_true']
    generalize (coverage rest (max coveredEnd next.end) (continuousCoverage && !found)).1.toInt =
      last at final ⊢
    have ends : max coveredEnd.toInt next.end.toInt ≤ last := by
      rw [← toInt_max]
      exact ((final last).mp le_rfl).1
    constructor
    · rintro ⟨⟨still, closed⟩, points⟩
      have near : ¬ coveredEnd.toInt + 1 < next.start.toInt := fun open' => by
        rw [gap.mpr open'] at closed
        cases closed
      refine ⟨still, fun x low high => ?_⟩
      rw [covered_cons, Range.Contains]
      rcases points x low high with reach | covered
      · omega
      · exact .inr (.inr covered)
    · rintro ⟨still, points⟩
      refine ⟨⟨still, Bool.eq_false_iff.mpr fun open' => ?_⟩, fun x low high => ?_⟩
      · have far := gap.mp open'
        rcases points (coveredEnd.toInt + 1) reached (by omega) with reach | ⟨r, mem, inside⟩
        · omega
        · rcases List.mem_cons.mp mem with rfl | mem
          · exact absurd inside.1 (by omega)
          · have behind := first r mem
            exact absurd inside.1 (by omega)
      · rcases points x low high with reach | covered
        · exact .inl (by omega)
        · rcases covered_cons.mp covered with inside | covered
          · exact .inl (by have := inside.2; omega)
          · exact .inr covered

-- ---------------------------------------------------------------------------
-- The clipped ranges
-- ---------------------------------------------------------------------------

section
variable {r : Range} {overlaps : List Range}

/-- The ranges that the classification is asked about. -/
def Overlapping (r : Range) (overlaps : List Range) : Prop := ∀ o ∈ overlaps, r.overlaps o = true

theorem clip_start (r o : Range) : (clip r o).start.toInt = max r.start.toInt o.start.toInt :=
  toInt_max _ _

theorem clip_end (r o : Range) : (clip r o).end.toInt = min r.end.toInt o.end.toInt :=
  toInt_min _ _

theorem clip_contains {o : Range} {x : Int} (inside : r.Contains x) :
    (clip r o).Contains x ↔ o.Contains x := by
  obtain ⟨low, high⟩ := inside
  unfold Range.Contains
  rw [clip_start, clip_end]
  omega

theorem covered_clip {x : Int} (inside : r.Contains x) :
    Covered (overlaps.map (clip r)) x ↔ Covered overlaps x := by
  simp only [Covered, List.mem_map, exists_exists_and_eq_and, clip_contains inside]

/-- A part of the candidate. -/
theorem clip_bounds {o : Range} (each : r.overlaps o = true) :
    r.start.toInt ≤ (clip r o).start.toInt ∧ (clip r o).start.toInt ≤ (clip r o).end.toInt ∧
      (clip r o).end.toInt ≤ r.end.toInt := by
  obtain ⟨valid, validO, left, right⟩ := (r.overlaps_iff o).mp each
  rw [Range.isValid_iff] at valid validO
  rw [clip_start, clip_end]
  omega

instance : Std.Total fun a b : Range => (!defaultRangeLess b a) = true where
  total a b := by
    by_cases h : defaultRangeLess b a = true
    · exact .inr (by simp [defaultRangeLess_strictTotal.asymm h])
    · exact .inl (by simpa using h)

instance : IsTrans Range fun a b => (!defaultRangeLess b a) = true where
  trans a b c hab hbc := by
    simp only [Bool.not_eq_true', ← Bool.not_eq_true] at *
    intro hca
    by_cases same : a = b
    · exact hbc (same ▸ hca)
    · rcases defaultRangeLess_strictTotal.connected same with h | h
      · exact hbc (defaultRangeLess_strictTotal.trans hca h)
      · exact hab h

/-- The front of the sorted parts, the ranges behind it, and what the sweep relies on. -/
structure Sorted (r : Range) (overlaps : List Range) (front : Range) (tail : List Range) : Prop where
  perm : (front :: tail).Perm (overlaps.map (clip r))
  starts : (front :: tail).Pairwise fun a b => a.start.toInt ≤ b.start.toInt
  bounds : ∀ p ∈ front :: tail, r.start.toInt ≤ p.start.toInt ∧ p.start.toInt ≤ p.end.toInt ∧
    p.end.toInt ≤ r.end.toInt

theorem sorted_of_insertionSort {front : Range} {tail : List Range} (each : Overlapping r overlaps)
    (eq : (overlaps.map (clip r)).insertionSort (fun a b => !defaultRangeLess b a) = front :: tail) :
    Sorted r overlaps front tail where
  perm := eq ▸ List.perm_insertionSort _ _
  starts := by
    rw [← eq]
    refine (List.pairwise_insertionSort _ _).imp fun {a b} h => ?_
    simp only [Bool.not_eq_true', ← Bool.not_eq_true, defaultRangeLess_iff, not_or, not_lt] at h
    exact Int64.le_iff_toInt_le.mp h.1
  bounds p mem := by
    rw [← eq, List.mem_insertionSort] at mem
    obtain ⟨o, given, rfl⟩ := List.mem_map.mp mem
    exact clip_bounds (each o given)

namespace Sorted

variable {front : Range} {tail : List Range}

theorem covered_iff (sorted : Sorted r overlaps front tail) {x : Int} (inside : r.Contains x) :
    Covered (front :: tail) x ↔ Covered overlaps x :=
  ⟨fun covered => (covered_clip inside).mp (covered.perm sorted.perm),
    fun covered => ((covered_clip inside).mpr covered).perm sorted.perm.symm⟩

/-- The first part starts furthest left. -/
theorem left_iff (sorted : Sorted r overlaps front tail) (valid : r.Contains r.start.toInt) :
    (front.start == r.start) = true ↔ Covered overlaps r.start.toInt := by
  rw [← sorted.covered_iff valid, beq_iff_eq, ← Int64.toInt_inj]
  have low := sorted.bounds front List.mem_cons_self
  constructor
  · intro same
    exact ⟨front, List.mem_cons_self, same.le, same ▸ low.2.1⟩
  · rintro ⟨p, mem, inside⟩
    have first : front.start.toInt ≤ p.start.toInt := by
      rcases List.mem_cons.mp mem with rfl | mem
      · exact le_rfl
      · exact (List.pairwise_cons.mp sorted.starts).1 p mem
    have := inside.1
    omega

theorem right_iff (sorted : Sorted r overlaps front tail) (valid : r.Contains r.end.toInt)
    (continuousCoverage : Bool) :
    ((coverage tail front.end continuousCoverage).1 == r.end) = true ↔
      Covered overlaps r.end.toInt := by
  rw [← sorted.covered_iff valid, beq_iff_eq, ← Int64.toInt_inj]
  have final := coverage_end tail front.end continuousCoverage
  generalize (coverage tail front.end continuousCoverage).1.toInt = last at final ⊢
  have below : last ≤ r.end.toInt := (final _).mpr
    ⟨(sorted.bounds front List.mem_cons_self).2.2,
      fun p mem => (sorted.bounds p (List.mem_cons_of_mem _ mem)).2.2⟩
  constructor
  · intro same
    by_contra uncovered
    have short : ∀ p ∈ front :: tail, p.end.toInt ≤ r.end.toInt - 1 := fun p mem => by
      have bounds := sorted.bounds p mem
      have out : ¬ p.Contains r.end.toInt := fun inside => uncovered ⟨p, mem, inside⟩
      unfold Range.Contains at out
      omega
    have := (final (r.end.toInt - 1)).mpr ((List.forall_mem_cons).mp short)
    omega
  · rintro ⟨p, mem, inside⟩
    have all := (List.forall_mem_cons (p := fun q : Range => q.end.toInt ≤ last)).mpr
      ((final last).mp le_rfl)
    have := all p mem
    have := inside.2
    omega

theorem full_iff (sorted : Sorted r overlaps front tail) (valid : r.isValid = true) :
    ((coverage tail front.end (front.start == r.start)).2 &&
      (coverage tail front.end (front.start == r.start)).1 == r.end) = true ↔
      ∀ x, r.Contains x → Covered overlaps x := by
  rw [Range.isValid_iff] at valid
  have front_bounds := sorted.bounds front List.mem_cons_self
  have starts := List.pairwise_cons.mp sorted.starts
  rw [Bool.and_eq_true, sorted.right_iff ⟨valid, le_rfl⟩,
    coverage_continuous (a := r.start.toInt) starts.2
      (fun p mem => (sorted.bounds p (List.mem_cons_of_mem _ mem)).2.1) (by omega),
    sorted.left_iff ⟨le_rfl, valid⟩]
  have last : Covered overlaps r.end.toInt →
      (coverage tail front.end (front.start == r.start)).1.toInt = r.end.toInt := fun covered => by
    rw [beq_iff_eq.mp ((sorted.right_iff ⟨valid, le_rfl⟩ _).mpr covered)]
  constructor
  · rintro ⟨⟨left, points⟩, right⟩ x inside
    rw [← sorted.covered_iff inside, covered_cons]
    have start : front.start = r.start :=
      beq_iff_eq.mp ((sorted.left_iff ⟨le_rfl, valid⟩).mpr left)
    refine (points x inside.1 (by rw [last right]; exact inside.2)).imp_left fun reach => ⟨?_, reach⟩
    rw [start]
    exact inside.1
  · intro all
    refine ⟨⟨all _ ⟨le_rfl, valid⟩, fun x low high => ?_⟩, all _ ⟨valid, le_rfl⟩⟩
    have inside : r.Contains x := ⟨low, by rwa [last (all _ ⟨valid, le_rfl⟩)] at high⟩
    exact (covered_cons.mp ((sorted.covered_iff inside).mpr (all x inside))).imp_left And.right

end Sorted

theorem lt_foldl_min (a m : Int64) (l : List Range) :
    a < l.foldl (fun m o => min m o.start) m ↔ a < m ∧ ∀ o ∈ l, a < o.start := by
  induction l generalizing m with
  | nil => simp
  | cons o l ih => simp [ih, and_assoc]

theorem foldl_max_lt (a m : Int64) (l : List Range) :
    l.foldl (fun m o => max m o.end) m < a ↔ m < a ∧ ∀ o ∈ l, o.end < a := by
  induction l generalizing m with
  | nil => simp
  | cons o l ih => simp [ih, and_assoc]

/-- Past both ends of all there is, the candidate contains each of them strictly. -/
theorem covering_iff {first : Range} {rest : List Range} (each : Overlapping r (first :: rest)) :
    (((first :: rest).any fun o => r.start < o.start && o.end < r.end) &&
      decide (r.start < (first :: rest).foldl (fun m o => min m o.start) first.start) &&
      decide (r.end > (first :: rest).foldl (fun m o => max m o.end) first.end)) = true ↔
      ¬ Covered (first :: rest) r.start.toInt ∧ ¬ Covered (first :: rest) r.end.toInt := by
  have open_left : ¬ Covered (first :: rest) r.start.toInt ↔ ∀ o ∈ first :: rest, r.start < o.start := by
    simp only [Covered, not_exists, not_and]
    refine forall₂_congr fun o mem => ?_
    have bounds := (r.overlaps_iff o).mp (each o mem)
    rw [Int64.lt_iff_toInt_lt, Range.Contains]
    omega
  have open_right : ¬ Covered (first :: rest) r.end.toInt ↔ ∀ o ∈ first :: rest, o.end < r.end := by
    simp only [Covered, not_exists, not_and]
    refine forall₂_congr fun o mem => ?_
    have bounds := (r.overlaps_iff o).mp (each o mem)
    rw [Int64.lt_iff_toInt_lt, Range.Contains]
    omega
  rw [open_left, open_right, Bool.and_eq_true, Bool.and_eq_true, decide_eq_true_eq,
    decide_eq_true_eq, gt_iff_lt, lt_foldl_min, foldl_max_lt, List.any_eq_true]
  constructor
  · rintro ⟨⟨-, -, left⟩, -, right⟩
    exact ⟨left, right⟩
  · rintro ⟨left, right⟩
    have here := List.mem_cons_self (a := first) (l := rest)
    exact ⟨⟨⟨first, here, by simp [left first here, right first here]⟩, left first here, left⟩,
      right first here, right⟩

-- ---------------------------------------------------------------------------
-- The classification
-- ---------------------------------------------------------------------------

/-- Every value of the enumeration says which points of the candidate are covered. -/
structure Classifies (r : Range) (overlaps : List Range) (topology : OverlayTopology) : Prop where
  clear : topology = .clear ↔ overlaps = []
  fullyCovered : topology = .fullyCovered ↔ ∀ x, r.Contains x → Covered overlaps x
  overlaidBoth : topology = .overlaidBoth ↔ (¬ ∀ x, r.Contains x → Covered overlaps x) ∧
    Covered overlaps r.start.toInt ∧ Covered overlaps r.end.toInt
  overlaidLeft : topology = .overlaidLeft ↔
    Covered overlaps r.start.toInt ∧ ¬ Covered overlaps r.end.toInt
  overlaidRight : topology = .overlaidRight ↔
    ¬ Covered overlaps r.start.toInt ∧ Covered overlaps r.end.toInt
  coveringExisting : topology = .coveringExisting ↔ overlaps ≠ [] ∧
    ¬ Covered overlaps r.start.toInt ∧ ¬ Covered overlaps r.end.toInt

theorem classifies_nil (valid : r.isValid = true) : Classifies r [] .clear := by
  have point : ¬ ∀ x, ¬ r.Contains x := fun none =>
    none r.start.toInt ⟨le_rfl, (Range.isValid_iff r).mp valid⟩
  constructor <;> simp [point]

/-- The chain of tests at the end of `classifyTopology`. -/
theorem classifies_tests {full covering left right : Bool} (valid : r.isValid = true)
    (nonempty : overlaps ≠ [])
    (hfull : full = true ↔ ∀ x, r.Contains x → Covered overlaps x)
    (hleft : left = true ↔ Covered overlaps r.start.toInt)
    (hright : right = true ↔ Covered overlaps r.end.toInt)
    (hcovering : covering = true ↔
      ¬ Covered overlaps r.start.toInt ∧ ¬ Covered overlaps r.end.toInt) :
    Classifies r overlaps (if full then .fullyCovered else
      if covering then .coveringExisting
      else if left && right then .overlaidBoth
      else if left then .overlaidLeft
      else if right then .overlaidRight
      else .clear) := by
  rw [Range.isValid_iff] at valid
  have ends : full = true → left = true ∧ right = true := fun h =>
    ⟨hleft.mpr (hfull.mp h _ ⟨le_rfl, valid⟩), hright.mpr (hfull.mp h _ ⟨valid, le_rfl⟩)⟩
  rw [← hleft, ← hright] at hcovering
  constructor
  all_goals
    simp only [← hfull, ← hleft, ← hright, nonempty]
    clear hfull hleft hright
    cases full <;> cases left <;> cases right <;> simp_all

theorem classifyTopology_classifies (valid : r.isValid = true) (each : Overlapping r overlaps) :
    Classifies r overlaps (classifyTopology r overlaps) := by
  cases overlaps with
  | nil => exact classifies_nil valid
  | cons first rest =>
    unfold classifyTopology
    split
    · next first' rest' front tail same eq =>
      cases same
      have sorted := sorted_of_insertionSort each eq
      have range := (Range.isValid_iff r).mp valid
      exact classifies_tests valid (List.cons_ne_nil _ _) (sorted.full_iff valid)
        (sorted.left_iff ⟨le_rfl, range⟩) (sorted.right_iff ⟨range, le_rfl⟩ _) (covering_iff each)
    · next none =>
      cases eq : ((first :: rest).map (clip r)).insertionSort fun a b => !defaultRangeLess b a with
      | nil =>
        exact absurd (congrArg List.length eq) (by rw [List.length_insertionSort]; simp)
      | cons front tail => exact (none first rest front tail rfl eq).elim

theorem Classifies.unique {t t' : OverlayTopology} (h : Classifies r overlaps t)
    (h' : Classifies r overlaps t') : t = t' := by
  cases t with
  | clear => exact (h'.clear.mpr (h.clear.mp rfl)).symm
  | overlaidLeft => exact (h'.overlaidLeft.mpr (h.overlaidLeft.mp rfl)).symm
  | overlaidRight => exact (h'.overlaidRight.mpr (h.overlaidRight.mp rfl)).symm
  | overlaidBoth => exact (h'.overlaidBoth.mpr (h.overlaidBoth.mp rfl)).symm
  | fullyCovered => exact (h'.fullyCovered.mpr (h.fullyCovered.mp rfl)).symm
  | coveringExisting => exact (h'.coveringExisting.mpr (h.coveringExisting.mp rfl)).symm

theorem Classifies.perm {others : List Range} {t : OverlayTopology} (h : Classifies r others t)
    (same : others.Perm overlaps) : Classifies r overlaps t := by
  have covered : Covered others = Covered overlaps := funext fun x =>
    propext ⟨fun covered => covered.perm same, fun covered => covered.perm same.symm⟩
  have empty : others = [] ↔ overlaps = [] :=
    ⟨fun none => (none ▸ same).nil_eq.symm, fun none => (none ▸ same).eq_nil⟩
  obtain ⟨clear, full, both, left, right, covering⟩ := h
  rw [covered] at full both left right covering
  exact ⟨clear.trans empty, full, both, left, right, by rw [covering, Ne, empty]⟩

end

/-- The topology is a matter of points: it does not depend on the order of the ranges, and no
addition of the sweep overflows, whatever the ranges are. -/
theorem classifyTopology_geometric (r : Range) (overlaps : List Range) (valid : r.isValid = true)
    (each : ∀ o ∈ overlaps, o.isValid = true ∧ r.overlaps o = true) :
    Classifies r overlaps (classifyTopology r overlaps) ∧
      (∀ others, others.Perm overlaps → classifyTopology r others = classifyTopology r overlaps) ∧
      ∀ rest coveredEnd continuousCoverage,
        checkedCoverage rest coveredEnd continuousCoverage =
          some (coverage rest coveredEnd continuousCoverage) := by
  have overlapping : Overlapping r overlaps := fun o mem => (each o mem).2
  refine ⟨classifyTopology_classifies valid overlapping, fun others same => ?_, checkedCoverage_eq⟩
  have others_overlapping : Overlapping r others := fun o mem =>
    overlapping o (same.mem_iff.mp mem)
  exact ((classifyTopology_classifies valid others_overlapping).perm same).unique
    (classifyTopology_classifies valid overlapping)

/-- Two ranges that meet cover every 64-bit point. -/
theorem classifyTopology_geometric_all :
    let r : Range := ⟨Int64.minValue, Int64.maxValue⟩
    ∀ x, r.Contains x → Covered [⟨5, Int64.maxValue⟩, ⟨Int64.minValue, 4⟩] x := by
  intro r
  exact (classifyTopology_geometric r _ (by decide) (by decide)).1.fullyCovered.mp (by decide)

end Dmn.IntervalBTree
