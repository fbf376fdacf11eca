import Dmn.Lib.StrictOrder

/-!
# Stable sorting by a strict weak ordering

A stable sort keeps the ties of its comparator in the order it finds them. Where a second, total
order has sorted the list before, the result is sorted by the first and then by the second, and
there is only one such list.
-/

namespace Dmn.Lib

variable {first second : α → α → Bool}

theorem thenBy_iff : thenBy first second a b = true ↔
    first a b = true ∨ first b a = false ∧ second a b = true := by
  unfold thenBy
  cases first a b <;> cases first b a <;> simp

/-- A tie of both comparators. -/
theorem thenBy_tie (hab : thenBy first second a b = false) (hba : thenBy first second b a = false) :
    (first a b = false ∧ first b a = false) ∧ second a b = false ∧ second b a = false := by
  unfold thenBy at hab hba
  cases h1 : first a b <;> cases h2 : first b a <;> simp_all

theorem thenBy_assoc (third : α → α → Bool) :
    thenBy (thenBy first second) third = thenBy first (thenBy second third) := by
  funext a b
  unfold thenBy
  cases first a b <;> cases first b a <;> simp

/-- Breaking ties with a strict weak ordering gives a strict weak ordering. -/
theorem StrictWeakOrder.thenBy (hf : StrictWeakOrder first) (hs : StrictWeakOrder second) :
    StrictWeakOrder (thenBy first second) where
  irrefl a := by simp [Lib.thenBy, hf.irrefl, hs.irrefl]
  trans := by
    intro a b c hab hbc
    rw [thenBy_iff] at *
    cases h1 : first a b <;> cases h2 : first b c
    · obtain ⟨h1', hs1⟩ := hab.resolve_left (by simp [h1])
      obtain ⟨h2', hs2⟩ := hbc.resolve_left (by simp [h2])
      exact .inr ⟨hf.incompTrans h2' h2 h1' h1, hs.trans hs1 hs2⟩
    · obtain ⟨h1', -⟩ := hab.resolve_left (by simp [h1])
      exact .inl (hf.lt_of_equiv_lt h1 h1' h2)
    · obtain ⟨h2', -⟩ := hbc.resolve_left (by simp [h2])
      exact .inl (hf.lt_of_lt_equiv h1 h2 h2')
    · exact .inl (hf.trans h1 h2)
  incompTrans := by
    intro a b c hab hba hbc hcb
    obtain ⟨⟨f1, f2⟩, s1, s2⟩ := thenBy_tie hab hba
    obtain ⟨⟨f3, f4⟩, s3, s4⟩ := thenBy_tie hbc hcb
    simp [Lib.thenBy, hf.incompTrans f1 f2 f3 f4, hs.incompTrans s1 s2 s3 s4]

/-- The list that a stable sort by `first` makes of one whose ties are sorted by `second`. -/
theorem insertionSort_stable (hf : StrictWeakOrder first) {l : List α}
    (hl : l.Pairwise fun a b => first a b = false → first b a = false → second a b = true) :
    (l.insertionSort fun a b => !first b a).Pairwise (thenBy first second · ·) := by
  induction l with
  | nil => exact .nil
  | cons a l ih =>
    obtain ⟨ha, hl⟩ := List.pairwise_cons.mp hl
    have hsorted := ih hl
    have hmem : ∀ b ∈ l.insertionSort fun a b => !first b a, first a b = false →
        first b a = false → second a b = true :=
      fun b hb => ha b ((List.mem_insertionSort _).mp hb)
    rw [List.insertionSort_cons]
    generalize l.insertionSort (fun a b => !first b a) = s at hsorted hmem
    induction s with
    | nil => simp
    | cons b s ihs =>
      obtain ⟨hb, hs⟩ := List.pairwise_cons.mp hsorted
      rw [List.orderedInsert_cons]
      split
      · rename_i hle
        have hba : first b a = false := by simpa using hle
        -- what comes behind `b` is not smaller than `a` either
        have hca : ∀ c ∈ b :: s, first c a = false := by
          intro c hc
          rcases List.mem_cons.mp hc with rfl | hc
          · exact hba
          · by_contra hlt
            rw [Bool.not_eq_false] at hlt
            cases hbc : first b c
            · have hcb := (thenBy_iff.mp (hb c hc)).resolve_left (by simp [hbc])
              simp [hf.lt_of_equiv_lt hbc hcb.1 hlt] at hba
            · simp [hf.trans hbc hlt] at hba
        refine List.pairwise_cons.mpr ⟨fun c hc => thenBy_iff.mpr ?_, hsorted⟩
        cases hac : first a c
        · exact .inr ⟨hca c hc, hmem c hc hac (hca c hc)⟩
        · exact .inl rfl
      · rename_i hlt
        refine List.pairwise_cons.mpr ⟨fun c hc => ?_, ihs hs fun c hc => hmem c (List.mem_cons_of_mem _ hc)⟩
        rcases (List.mem_orderedInsert _).mp hc with rfl | hc
        · exact thenBy_iff.mpr (.inl (by simpa using hlt))
        · exact hb c hc

end Dmn.Lib
