import Mathlib.Data.List.Basic
import Mathlib.Data.List.Infix

/-!
# Separators woven between blocks

The in-order listing of a multiway search tree node weaves its separators
between the listings of its children. `weave` is that loop; `weave_split`
opens it around one block, so that a change of the block is a change in the
middle of the listing.
-/

namespace Dmn.Lib

/-- One block before each separator, then the last block. -/
def weave : List α → List (List α) → List α
  | [], blocks => blocks.getLast?.getD []
  | e :: es, b :: bs => b ++ e :: weave es bs
  | _ :: _, [] => []

/-- Each block followed by its separator. -/
def before : List α → List (List α) → List α
  | e :: es, b :: bs => b ++ e :: before es bs
  | _, _ => []

/-- Each separator followed by its block. -/
def after : List α → List (List α) → List α
  | e :: es, b :: bs => e :: b ++ after es bs
  | _, _ => []

@[simp] theorem before_nil : before ([] : List α) bs = [] := rfl
@[simp] theorem after_nil : after ([] : List α) bs = [] := rfl
@[simp] theorem before_cons : before (e :: es : List α) (b :: bs) = b ++ e :: before es bs := rfl
@[simp] theorem after_cons : after (e :: es : List α) (b :: bs) = e :: b ++ after es bs := rfl
@[simp] theorem weave_cons : weave (e :: es : List α) (b :: bs) = b ++ e :: weave es bs := rfl
@[simp] theorem weave_single : weave ([] : List α) [b] = b := rfl

theorem weave_eq_after {es : List α} (h : es.length = bs.length) :
    weave es (b :: bs) = b ++ after es bs := by
  induction es generalizing b bs with
  | nil =>
    obtain rfl := List.eq_nil_of_length_eq_zero h.symm
    simp
  | cons e es ih =>
    cases bs with
    | nil => simp at h
    | cons c cs => simp [ih (by simpa using h)]

/-- The listing around one block. -/
theorem weave_split {es1 es2 : List α} (h1 : es1.length = bs1.length) (h2 : es2.length = bs2.length) :
    weave (es1 ++ es2) (bs1 ++ b :: bs2) = before es1 bs1 ++ b ++ after es2 bs2 := by
  induction es1 generalizing bs1 with
  | nil =>
    obtain rfl := List.eq_nil_of_length_eq_zero h1.symm
    simpa using weave_eq_after h2
  | cons e es ih =>
    cases bs1 with
    | nil => simp at h1
    | cons c cs => simp [ih (by simpa using h1)]

theorem weave_snoc {k : List α} (h : w.length = k.length + 1) :
    weave (k ++ [e]) (w ++ [b]) = weave k w ++ e :: b := by
  induction k generalizing w with
  | nil =>
    obtain ⟨c, rfl⟩ := List.length_eq_one_iff.mp h
    rfl
  | cons x xs ih =>
    cases w with
    | nil => simp at h
    | cons c cs => simp [ih (by simpa using h)]

/-- In a sorted listing what stands before some separators is below one of them. -/
theorem mem_before {r : α → α → Prop} {es : List α} (hs : (before es bs).Pairwise r)
    (hx : x ∈ before es bs) : x ∈ es ∨ ∃ s ∈ es, r x s := by
  induction es generalizing bs with
  | nil => simp at hx
  | cons e es ih =>
    cases bs with
    | nil => simp [before] at hx
    | cons b bs =>
      rw [before_cons] at hs hx
      obtain ⟨-, hs2, hs3⟩ := List.pairwise_append.mp hs
      rcases List.mem_append.mp hx with hx | hx
      · exact .inr ⟨e, by simp, hs3 x hx e (by simp)⟩
      · rcases List.mem_cons.mp hx with rfl | hx
        · exact .inl (by simp)
        · rcases ih (List.pairwise_cons.mp hs2).2 hx with h | ⟨s, hs, h⟩
          · exact .inl (by simp [h])
          · exact .inr ⟨s, by simp [hs], h⟩

theorem mem_after {r : α → α → Prop} {es : List α} (hs : (after es bs).Pairwise r)
    (hx : x ∈ after es bs) : x ∈ es ∨ ∃ s ∈ es, r s x := by
  induction es generalizing bs with
  | nil => simp at hx
  | cons e es ih =>
    cases bs with
    | nil => simp [after] at hx
    | cons b bs =>
      rw [after_cons, List.cons_append] at hs hx
      obtain ⟨hs1, hs2⟩ := List.pairwise_cons.mp hs
      rcases List.mem_cons.mp hx with rfl | hx
      · exact .inl (by simp)
      · rcases List.mem_append.mp hx with hb | ha
        · exact .inr ⟨e, by simp, hs1 x hx⟩
        · rcases ih (List.pairwise_append.mp hs2).2.1 ha with h | ⟨s, hs, h⟩
          · exact .inl (by simp [h])
          · exact .inr ⟨s, by simp [hs], h⟩

/-- The separators are listed in their own order. -/
theorem sublist_weave {es : List α} (h : bs.length = es.length + 1) : es.Sublist (weave es bs) := by
  induction es generalizing bs with
  | nil => simp
  | cons e es ih =>
    cases bs with
    | nil => simp at h
    | cons b bs => exact ((ih (by simpa using h)).cons_cons e).trans (List.sublist_append_right ..)

theorem map_weave (f : α → β) {es : List α} :
    (weave es bs).map f = weave (es.map f) (bs.map (List.map f)) := by
  induction es generalizing bs with
  | nil => cases h : bs.getLast? <;> simp [weave, h]
  | cons e es ih =>
    cases bs with
    | nil => rfl
    | cons b bs => simp [ih]

theorem exists_snoc {l : List α} (h : 0 < l.length) : ∃ init last, l = init ++ [last] :=
  ⟨l.dropLast, l.getLast (List.ne_nil_of_length_pos h), (List.dropLast_concat_getLast _).symm⟩

/-- Split a list at a position within it. -/
theorem exists_split {l : List α} (h : i < l.length) : ∃ l1 a l2, l = l1 ++ a :: l2 ∧ l1.length = i :=
  ⟨l.take i, l[i], l.drop (i + 1), by simp, by simp; omega⟩

theorem insertIdx_middle (l1 l2 : List α) (a : α) : (l1 ++ l2).insertIdx l1.length a = l1 ++ a :: l2 := by
  induction l1 with
  | nil => simp
  | cons x xs ih => simp [List.insertIdx_succ_cons, ih]

theorem insertIdx_middle_succ (l1 l2 : List α) (a b : α) :
    (l1 ++ b :: l2).insertIdx (l1.length + 1) a = l1 ++ b :: a :: l2 := by
  simpa using insertIdx_middle (l1 ++ [b]) l2 a

theorem eraseIdx_middle (l1 l2 : List α) (a : α) : (l1 ++ a :: l2).eraseIdx l1.length = l1 ++ l2 := by
  simp [List.eraseIdx_append_of_length_le]

theorem eraseIdx_middle_succ (l1 l2 : List α) (a b : α) :
    (l1 ++ a :: b :: l2).eraseIdx (l1.length + 1) = l1 ++ a :: l2 := by
  simpa using eraseIdx_middle (l1 ++ [a]) l2 b

end Dmn.Lib
