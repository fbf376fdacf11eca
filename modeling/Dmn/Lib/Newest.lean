import Mathlib.Data.List.Sort

/-!
# The last elements of a growing sorted list

A list is kept sorted by putting each new element behind its equals, and is cut at the front when it
outgrows its limit. It then always is the end of the stable sort of all that was put in.
-/

namespace Dmn.Lib

variable {α : Type*} (r : α → α → Prop) [DecidableRel r]

/-- `e` in front of the first element that does not precede it. -/
def insertBehind (e : α) : List α → List α
  | [] => [e]
  | b :: l => if r b e then b :: insertBehind e l else e :: b :: l

theorem insertIdx_findIdx (e : α) (l : List α) :
    l.insertIdx (l.findIdx fun b => ¬ r b e) e = insertBehind r e l := by
  induction l with
  | nil => rfl
  | cons b l ih =>
    rw [List.findIdx_cons, insertBehind]
    by_cases before : r b e
    · simp [before, List.insertIdx_succ_cons, ← ih]
    · simp [before]

variable {r}

theorem length_insertBehind (e : α) (l : List α) : (insertBehind r e l).length = l.length + 1 := by
  induction l with
  | nil => rfl
  | cons b l ih =>
    unfold insertBehind
    split
    · simp [ih]
    · rfl

/-- The elements that precede all others come first. -/
theorem insertBehind_first {e : α} {l : List α} (first : ∀ b ∈ l, ¬ r b e) :
    insertBehind r e l = e :: l := by
  cases l with
  | nil => rfl
  | cons b l => exact if_neg (first b List.mem_cons_self)

section
variable [Std.Total r] [IsTrans α r]

/-- Putting one element in front of its equals and another one behind its own commute. -/
theorem orderedInsert_insertBehind (a e : α) (l : List α) :
    (insertBehind r e l).orderedInsert r a = insertBehind r e (l.orderedInsert r a) := by
  induction l with
  | nil =>
    simp only [insertBehind, List.orderedInsert_nil, List.orderedInsert_cons]
  | cons b l ih =>
    by_cases be : r b e
    · by_cases ab : r a b
      · have ae : r a e := IsTrans.trans _ _ _ ab be
        simp [insertBehind, be, ab, ae]
      · simp [insertBehind, be, ab, ih]
    · by_cases ab : r a b
      · by_cases ae : r a e <;> simp [insertBehind, be, ab, ae]
      · have ae : ¬ r a e := fun ae => by
          have ba : r b a := (Std.Total.total a b).resolve_left ab
          exact be (IsTrans.trans _ _ _ ba ae)
        simp [insertBehind, be, ab, ae]

/-- Sorting with one more element at the end. -/
theorem insertionSort_concat (l : List α) (e : α) :
    (l ++ [e]).insertionSort r = insertBehind r e (l.insertionSort r) := by
  induction l with
  | nil => rfl
  | cons a l ih =>
    rw [List.cons_append, List.insertionSort_cons, ih, List.insertionSort_cons,
      orderedInsert_insertBehind]

omit [Std.Total r] in
/-- What is cut off in front of a sorted list does not matter to what follows. -/
theorem insertBehind_drop {e : α} {l : List α} {k : Nat} (sorted : l.Pairwise r)
    (inside : k ≤ l.length) :
    (insertBehind r e (l.drop k)).drop 1 = (insertBehind r e l).drop (k + 1) := by
  induction l generalizing k with
  | nil => simp [insertBehind]
  | cons b l ih =>
    cases k with
    | zero => rfl
    | succ k =>
      obtain ⟨least, sorted⟩ := List.pairwise_cons.mp sorted
      by_cases be : r b e
      · simp only [insertBehind, be, if_true, List.drop_succ_cons]
        exact ih sorted (Nat.le_of_succ_le_succ inside)
      · have first : ∀ c ∈ l.drop k, ¬ r c e := fun c hc ce =>
          be (IsTrans.trans _ _ _ (least c (List.mem_of_mem_drop hc)) ce)
        simp only [insertBehind, be, if_false, List.drop_succ_cons, insertBehind_first first,
          List.drop_zero]

/-- The last `n` elements, or all if there are fewer. -/
def newest (n : Nat) (l : List α) : List α := l.drop (l.length - n)

theorem length_newest (n : Nat) (l : List α) : (newest n l).length = min n l.length := by
  rw [newest, List.length_drop]
  omega

/-- One more element, and one less in front if there are too many. -/
theorem newest_concat (n : Nat) (l : List α) (e : α) :
    newest n ((l ++ [e]).insertionSort r) =
      let s := insertBehind r e (newest n (l.insertionSort r))
      if n < s.length then s.drop 1 else s := by
  have sorted : (l.insertionSort r).Pairwise r := List.pairwise_insertionSort r l
  rw [insertionSort_concat]
  generalize l.insertionSort r = s at sorted
  simp only [length_insertBehind, length_newest]
  unfold newest
  rw [length_insertBehind]
  split
  · next full =>
    have inside : n ≤ s.length := by omega
    rw [insertBehind_drop sorted (Nat.sub_le ..), Nat.sub_add_comm inside]
  · next room =>
    rw [show s.length - n = 0 by omega, show s.length + 1 - n = 0 by omega]
    rfl

end

/-- A stable sort keeps the elements of one class in their order. -/
theorem filter_insertionSort {p : α → Bool} (same : ∀ a b, p a = true → p b = true → r a b)
    (l : List α) : (l.insertionSort r).filter p = l.filter p := by
  induction l with
  | nil => rfl
  | cons a l ih =>
    have insert : ∀ s : List α, (s.orderedInsert r a).filter p = (a :: s).filter p := by
      intro s
      induction s with
      | nil => rfl
      | cons b s ihs =>
        rw [List.orderedInsert_cons]
        split
        · rfl
        · next above =>
          rw [List.filter_cons, ihs]
          by_cases ha : p a = true
          · by_cases hb : p b = true
            · exact absurd (same a b ha hb) above
            · simp [hb, List.filter_cons]
          · simp [ha, List.filter_cons]
    rw [List.insertionSort_cons, insert, List.filter_cons, List.filter_cons, ih]

end Dmn.Lib
