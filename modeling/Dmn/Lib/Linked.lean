import Mathlib.Data.List.Basic
import Mathlib.Logic.Function.Basic

/-!
# Linked lists in memory

`Linked next a l`: following the pointers `next` from `a` visits the nodes of
`l` in order and ends at a null pointer. The pointers are a function from
nodes, so that two lists can share one memory.
-/

namespace Dmn.Lib

variable {α : Type*} {next next' : α → Option α} {a : Option α} {x n : α} {l l' : List α}

def Linked (next : α → Option α) : Option α → List α → Prop
  | a, [] => a = none
  | a, x :: l => a = some x ∧ Linked next (next x) l

namespace Linked

theorem head (h : Linked next a l) : a = l.head? := by
  cases l with
  | nil => exact h
  | cons x l => exact h.1

/-- Only the pointers of the nodes on the list count. -/
theorem congr (h : Linked next a l) (heq : ∀ x ∈ l, next' x = next x) : Linked next' a l := by
  induction l generalizing a with
  | nil => exact h
  | cons x l ih =>
    refine ⟨h.1, ?_⟩
    rw [heq x List.mem_cons_self]
    exact ih h.2 fun y hy => heq y (List.mem_cons_of_mem _ hy)

theorem unique (h : Linked next a l) (h' : Linked next a l') : l = l' := by
  induction l generalizing a l' with
  | nil =>
    cases l' with
    | nil => rfl
    | cons y l' => cases h.symm.trans h'.1
  | cons x l ih =>
    cases l' with
    | nil => cases h'.symm.trans h.1
    | cons y l' =>
      obtain rfl := Option.some.inj (h.1.symm.trans h'.1)
      rw [ih h.2 h'.2]

theorem of_append (h : Linked next a (l ++ l')) : ∃ b, Linked next b l' := by
  induction l generalizing a with
  | nil => exact ⟨a, h⟩
  | cons x l ih => exact ih h.2

/-- A list that ends runs in no circle. -/
theorem nodup (h : Linked next a l) : l.Nodup := by
  induction l generalizing a with
  | nil => exact .nil
  | cons x l ih =>
    refine List.nodup_cons.mpr ⟨fun hx => ?_, ih h.2⟩
    obtain ⟨l₁, l₂, rfl⟩ := List.append_of_mem hx
    obtain ⟨b, hb⟩ := of_append h.2
    have hlen := congrArg List.length (unique h.2 hb.2)
    simp at hlen
    omega

/-- A node points to the one behind it. -/
theorem next_getElem? {k : Nat} (h : Linked next a l) (hx : l[k]? = some x) :
    next x = l[k + 1]? := by
  induction l generalizing a k with
  | nil => cases hx
  | cons y l ih =>
    cases k with
    | zero =>
      obtain rfl := Option.some.inj hx
      rw [List.getElem?_cons_succ, ← List.head?_eq_getElem?]
      exact h.2.head
    | succ k => exact ih h.2 hx

/-- The node with a null pointer is the last. -/
theorem length_of_next_none {k : Nat} (h : Linked next a l) (hx : l[k]? = some x)
    (hn : next x = none) : l.length = k + 1 := by
  have hk := (List.getElem?_eq_some_iff.mp hx).1
  have := List.getElem?_eq_none_iff.mp ((h.next_getElem? hx).symm.trans hn)
  omega

theorem drop (h : Linked next a l) (k : Nat) (hk : k < l.length) : Linked next l[k]? (l.drop k) := by
  induction l generalizing a k with
  | nil => simp at hk
  | cons x l ih =>
    cases k with
    | zero => exact ⟨rfl, h.2⟩
    | succ k => exact ih h.2 k (by simpa using hk)

/-- A node is put in front. -/
theorem cons (h : Linked next a l) (hn : next n = a) : Linked next (some n) (n :: l) :=
  ⟨rfl, hn ▸ h⟩

variable [DecidableEq α]

theorem update (h : Linked next a l) (hn : n ∉ l) (b : Option α) :
    Linked (Function.update next n b) a l :=
  h.congr fun x hx => Function.update_of_ne (fun heq : x = n => hn (heq ▸ hx)) ..

/-- A node is linked behind the last one. -/
theorem concat (h : Linked next a l) (hx : l.getLast? = some x) (hn : n ∉ l)
    (hnext : next n = none) : Linked (Function.update next x (some n)) a (l ++ [n]) := by
  induction l generalizing a with
  | nil => cases hx
  | cons y l ih =>
    refine ⟨h.1, ?_⟩
    cases l with
    | nil =>
      obtain rfl : y = x := by simpa using hx
      have hne : n ≠ y := fun heq => hn (heq ▸ List.mem_cons_self)
      exact ⟨by simp, by simpa [hne, Linked] using hnext⟩
    | cons z l =>
      have hxl : (z :: l).getLast? = some x := by rwa [List.getLast?_cons_cons] at hx
      have hyx : y ≠ x := by
        rintro rfl
        exact (List.nodup_cons.mp h.nodup).1 (List.mem_of_getLast? hxl)
      rw [Function.update_of_ne hyx]
      exact ih h.2 hxl (fun hm => hn (List.mem_cons_of_mem _ hm))

end Linked
end Dmn.Lib
