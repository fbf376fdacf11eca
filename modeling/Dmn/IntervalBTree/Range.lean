import Dmn.Lib.StrictOrder
import Mathlib.Order.Defs.LinearOrder

/-!
# Inclusive intervals and their overlay topology

`Dmn_IntervalRange`, the enumeration `Dmn_OverlayTopology` and the classifier
`classifyTopology`, over signed 64-bit endpoints.
-/

namespace Dmn.IntervalBTree

/-- The endpoint order of the library's `Int64`, with its own `max` and `min`. -/
instance linearOrderInt64 : LinearOrder Int64 where
  le_refl _ := Int64.le_refl _
  le_trans _ _ _ := Int64.le_trans
  lt_iff_le_not_ge a b := by
    simp only [Int64.lt_iff_toInt_lt, Int64.le_iff_toInt_le]
    omega
  le_antisymm _ _ := Int64.le_antisymm
  le_total := Int64.le_total
  toDecidableLE := inferInstance
  toDecidableEq := inferInstance
  toDecidableLT := inferInstance
  max_def _ _ := rfl
  min_def _ _ := rfl

structure Range where
  start : Int64
  «end» : Int64
  deriving DecidableEq, Repr

namespace Range

theorem eq_iff {r s : Range} : r = s ↔ r.start = s.start ∧ r.end = s.end := by
  cases r
  cases s
  simp

def isValid (r : Range) : Bool := r.start ≤ r.end

/-- Inclusive overlap; an invalid range overlaps nothing. -/
def overlaps (r other : Range) : Bool :=
  r.isValid && other.isValid && r.start ≤ other.end && other.start ≤ r.end

theorem overlaps_comm (r other : Range) : r.overlaps other = other.overlaps r := by
  simp only [overlaps]
  cases r.isValid <;> cases other.isValid <;> simp [Bool.and_comm]

end Range

inductive OverlayTopology where
  | clear
  | overlaidLeft
  | overlaidRight
  | overlaidBoth
  | fullyCovered
  | coveringExisting
  deriving DecidableEq, Repr

structure OverlayState where
  topology : OverlayTopology := .clear
  isTop : Bool := true
  deriving DecidableEq, Repr

def defaultRangeLess (lhs rhs : Range) : Bool :=
  if lhs.start ≠ rhs.start then lhs.start < rhs.start else lhs.end < rhs.end

-- ---------------------------------------------------------------------------
-- classifyTopology
-- ---------------------------------------------------------------------------

/-- The loop over the sorted clipped ranges after the first: how far they
reach, and whether they do so without a gap. -/
def coverage : List Range → Int64 → Bool → Int64 × Bool
  | [], coveredEnd, continuousCoverage => (coveredEnd, continuousCoverage)
  | next :: rest, coveredEnd, continuousCoverage =>
    -- the first test keeps the successor below from overflowing
    let gap := coveredEnd != Int64.maxValue && next.start > coveredEnd + 1
    coverage rest (max coveredEnd next.end) (continuousCoverage && !gap)

def clip (range overlap : Range) : Range :=
  ⟨max range.start overlap.start, min range.end overlap.end⟩

def classifyTopology (range : Range) (overlaps : List Range) : OverlayTopology :=
  match overlaps, (overlaps.map (clip range)).insertionSort fun a b => !defaultRangeLess b a with
  | first :: _, front :: tail =>
    let leftCovered := front.start == range.start
    let (coveredEnd, continuousCoverage) := coverage tail front.end leftCovered
    let rightCovered := coveredEnd == range.end
    if continuousCoverage && rightCovered then .fullyCovered else
    let overlapStart := overlaps.foldl (fun m o => min m o.start) first.start
    let overlapEnd := overlaps.foldl (fun m o => max m o.end) first.end
    let hasContainedRange := overlaps.any fun o => range.start < o.start && o.end < range.end
    if hasContainedRange && range.start < overlapStart && range.end > overlapEnd then
      .coveringExisting
    else if leftCovered && rightCovered then .overlaidBoth
    else if leftCovered then .overlaidLeft
    else if rightCovered then .overlaidRight
    else .clear
  | _, _ => .clear

-- a gap between two ranges that reach both ends of the candidate
example : classifyTopology ⟨0, 9⟩ [⟨0, 3⟩, ⟨6, 9⟩] = .overlaidBoth := by decide

-- ---------------------------------------------------------------------------
-- The default order of ranges
-- ---------------------------------------------------------------------------

theorem defaultRangeLess_iff :
    defaultRangeLess r s = true ↔ r.start < s.start ∨ r.start = s.start ∧ r.end < s.end := by
  unfold defaultRangeLess
  split
  · rename_i h
    simp [h]
  · rename_i h
    push Not at h
    simp [h]

/-- Ascending start, then ascending end: a total order of the ranges. -/
theorem defaultRangeLess_strictTotal : Lib.StrictTotalOn defaultRangeLess id where
  irrefl r := by
    cases h : defaultRangeLess r r
    · rfl
    · simp [defaultRangeLess_iff] at h
  trans := by
    intro a b c hab hbc
    rw [defaultRangeLess_iff] at *
    rcases hab with h | ⟨h1, h2⟩ <;> rcases hbc with h' | ⟨h1', h2'⟩
    · exact .inl (h.trans h')
    · exact .inl (h1' ▸ h)
    · exact .inl (h1 ▸ h')
    · exact .inr ⟨h1.trans h1', h2.trans h2'⟩
  connected := by
    rintro ⟨a1, a2⟩ ⟨b1, b2⟩ hne
    simp only [defaultRangeLess_iff]
    rcases lt_trichotomy a1 b1 with h | rfl | h
    · exact .inl (.inl h)
    · rcases lt_trichotomy a2 b2 with h | rfl | h
      · exact .inl (.inr ⟨rfl, h⟩)
      · exact absurd rfl hne
      · exact .inr (.inr ⟨rfl, h⟩)
    · exact .inr (.inl h)

end Dmn.IntervalBTree
