import Mathlib.Data.List.Sort
import Mathlib.Data.List.Nodup

/-!
# Strict orders given by Boolean comparators

A sorting comparator is a Boolean function. `StrictWeakOrder` is what a sort
asks of one: equivalent keys are allowed. `StrictTotalOn` is the stronger
demand of a search tree: two elements with different identities are always
ordered. `thenBy` breaks the ties of the first with the second, and
`InsertedAt` says where an element lands in a sorted list.
-/

namespace Dmn.Lib

/-- A strict weak ordering: a strict order whose incomparability is transitive. -/
structure StrictWeakOrder (lt : α → α → Bool) : Prop where
  irrefl : ∀ a, lt a a = false
  trans : ∀ {a b c}, lt a b → lt b c → lt a c
  incompTrans : ∀ {a b c}, lt a b = false → lt b a = false → lt b c = false → lt c b = false →
    lt a c = false

/-- A strict order that decides every two elements of different identity. -/
structure StrictTotalOn (lt : α → α → Bool) (ident : α → κ) : Prop where
  irrefl : ∀ a, lt a a = false
  trans : ∀ {a b c}, lt a b → lt b c → lt a c
  connected : ∀ {a b}, ident a ≠ ident b → lt a b ∨ lt b a

namespace StrictWeakOrder

variable {lt : α → α → Bool}

theorem asymm (h : StrictWeakOrder lt) (hab : lt a b) : lt b a = false := by
  cases hba : lt b a
  · rfl
  · have := h.trans hab hba
    simp [h.irrefl] at this

/-- An element equivalent to the smaller side is still smaller. -/
theorem lt_of_equiv_lt (h : StrictWeakOrder lt) (hab : lt a b = false) (hba : lt b a = false)
    (hbc : lt b c) : lt a c := by
  cases hac : lt a c
  · cases hca : lt c a
    · have := h.incompTrans hba hab hac hca
      simp [hbc] at this
    · have := h.trans hbc hca
      simp [hba] at this
  · rfl

theorem lt_of_lt_equiv (h : StrictWeakOrder lt) (hab : lt a b) (hbc : lt b c = false)
    (hcb : lt c b = false) : lt a c := by
  cases hac : lt a c
  · cases hca : lt c a
    · have := h.incompTrans hac hca hcb hbc
      simp [hab] at this
    · have := h.trans hca hab
      simp [hcb] at this
  · rfl

/-- Compare what a function gives. -/
theorem comap (h : StrictWeakOrder lt) (f : β → α) :
    StrictWeakOrder fun a b => lt (f a) (f b) where
  irrefl _ := h.irrefl _
  trans := h.trans
  incompTrans := h.incompTrans

/-- The comparator that decides nothing. -/
theorem const_false : StrictWeakOrder fun _ _ : α => false where
  irrefl _ := rfl
  trans h := by simp at h
  incompTrans _ _ _ _ := rfl

end StrictWeakOrder

/-- A strict total order has only the trivial ties. -/
theorem StrictTotalOn.strictWeakOrder {lt : α → α → Bool} (h : StrictTotalOn lt id) :
    StrictWeakOrder lt where
  irrefl := h.irrefl
  trans := h.trans
  incompTrans := by
    intro a b c hab hba hbc _
    by_cases hne : a = b
    · exact hne ▸ hbc
    · have := h.connected hne
      simp [hab, hba] at this

/-- Decide by the first comparator, and by the second where it has no opinion. -/
def thenBy (first second : α → α → Bool) (a b : α) : Bool :=
  if first a b then true else if first b a then false else second a b

/-- Breaking the ties of a strict weak ordering with a strict total order
leaves no ties. -/
theorem StrictTotalOn.thenBy {first second : α → α → Bool} {ident : α → κ}
    (hf : StrictWeakOrder first) (hs : StrictTotalOn second ident) :
    StrictTotalOn (thenBy first second) ident where
  irrefl a := by simp [Lib.thenBy, hf.irrefl, hs.irrefl]
  trans := by
    intro a b c hab hbc
    simp only [Lib.thenBy] at hab hbc ⊢
    cases h1 : first a b <;> cases h2 : first b c
    · simp only [h1, h2, Bool.false_eq_true, ↓reduceIte] at hab hbc
      split at hab
      · cases hab
      split at hbc
      · cases hbc
      rename_i h3 h4
      have hac := hf.incompTrans h1 (by simpa using h3) h2 (by simpa using h4)
      have hca := hf.incompTrans (by simpa using h4) h2 (by simpa using h3) h1
      simp [hac, hca, hs.trans hab hbc]
    · simp only [h1, Bool.false_eq_true, ↓reduceIte] at hab
      split at hab
      · cases hab
      rename_i h3
      simp [hf.lt_of_equiv_lt h1 (by simpa using h3) h2]
    · simp only [h2, Bool.false_eq_true, ↓reduceIte] at hbc
      split at hbc
      · cases hbc
      rename_i h3
      simp [hf.lt_of_lt_equiv h1 h2 (by simpa using h3)]
    · simp [hf.trans h1 h2]
  connected := by
    intro a b hne
    simp only [Lib.thenBy]
    cases h1 : first a b <;> cases h2 : first b a <;> simp
    exact hs.connected hne

theorem StrictTotalOn.asymm {lt : α → α → Bool} {ident : α → κ} (h : StrictTotalOn lt ident)
    (hab : lt a b) : lt b a = false := by
  cases hba : lt b a
  · rfl
  · have := h.trans hab hba
    simp [h.irrefl] at this

/-- A strict order decides identity: what it orders is not the same. -/
theorem StrictTotalOn.ne {lt : α → α → Bool} {ident : α → κ} (h : StrictTotalOn lt ident)
    (hab : lt a b) : a ≠ b := by
  rintro rfl
  simp [h.irrefl] at hab

-- ---------------------------------------------------------------------------
-- Places in a sorted list
-- ---------------------------------------------------------------------------

/-- `l'` is `l` with `e` put between the smaller and the larger elements. -/
def InsertedAt (lt : α → α → Bool) (e : α) (l l' : List α) : Prop :=
  ∃ l1 l2, l = l1 ++ l2 ∧ l' = l1 ++ e :: l2 ∧ (∀ x ∈ l1, lt x e) ∧ ∀ x ∈ l2, lt e x

/-- `l'` is `l` with one occurrence of `e` taken out. -/
def RemovedAt (e : α) (l l' : List α) : Prop :=
  ∃ l1 l2, l = l1 ++ e :: l2 ∧ l' = l1 ++ l2

theorem InsertedAt.frame {lt : α → α → Bool} (h : InsertedAt lt e l l') (hl : ∀ x ∈ i, lt x e)
    (hr : ∀ x ∈ j, lt e x) : InsertedAt lt e (i ++ l ++ j) (i ++ l' ++ j) := by
  obtain ⟨l1, l2, rfl, rfl, h1, h2⟩ := h
  refine ⟨i ++ l1, l2 ++ j, by simp, by simp, ?_, ?_⟩
  · intro x hx
    rcases List.mem_append.mp hx with hx | hx
    · exact hl x hx
    · exact h1 x hx
  · intro x hx
    rcases List.mem_append.mp hx with hx | hx
    · exact h2 x hx
    · exact hr x hx

theorem RemovedAt.frame (h : RemovedAt e l l') : RemovedAt e (left ++ l ++ right) (left ++ l' ++ right) := by
  obtain ⟨l1, l2, rfl, rfl⟩ := h
  exact ⟨left ++ l1, l2 ++ right, by simp, by simp⟩

theorem InsertedAt.map {lt : α → α → Bool} {lt' : β → β → Bool} {f : α → β}
    (hf : ∀ a b, lt' (f a) (f b) = lt a b) (h : InsertedAt lt e l l') :
    InsertedAt lt' (f e) (l.map f) (l'.map f) := by
  obtain ⟨l1, l2, rfl, rfl, h1, h2⟩ := h
  refine ⟨l1.map f, l2.map f, by simp, by simp, ?_, ?_⟩
  · simpa [hf] using h1
  · simpa [hf] using h2

theorem InsertedAt.perm {lt : α → α → Bool} (h : InsertedAt lt e l l') : l'.Perm (e :: l) := by
  obtain ⟨l1, l2, rfl, rfl, -, -⟩ := h
  exact List.perm_middle

theorem RemovedAt.perm (h : RemovedAt e l l') : l.Perm (e :: l') := by
  obtain ⟨l1, l2, rfl, rfl⟩ := h
  exact List.perm_middle

theorem RemovedAt.sublist (h : RemovedAt e l l') : l'.Sublist l := by
  obtain ⟨l1, l2, rfl, rfl⟩ := h
  exact List.Sublist.append_left (List.sublist_cons_self ..) _

/-- Erasing the first match takes out what the search finds. -/
theorem RemovedAt.of_find? {p : α → Bool} (h : l.find? p = some e) :
    RemovedAt e l (l.eraseP p) := by
  obtain ⟨hp, l1, l2, rfl, hl1⟩ := List.find?_eq_some_iff_append.mp h
  refine ⟨l1, l2, rfl, ?_⟩
  rw [List.eraseP_append_right _ (by simpa using hl1), List.eraseP_cons_of_pos hp]

/-- Where a key is unique, the element of that key goes and nothing else. -/
theorem RemovedAt.eq_filter [DecidableEq κ] {key : α → κ} (h : RemovedAt e l l')
    (hd : (l.map key).Nodup) : l' = l.filter fun x => key x != key e := by
  obtain ⟨l1, l2, rfl, rfl⟩ := h
  rw [List.map_append, List.map_cons, List.nodup_middle, List.nodup_cons, ← List.map_append] at hd
  have hne : ∀ x ∈ l1 ++ l2, (key x != key e) = true := by
    intro x hx
    simpa using fun heq : key x = key e => hd.1 (heq ▸ List.mem_map_of_mem hx)
  rw [List.filter_append, List.filter_cons_of_neg (by simp), ← List.filter_append,
    List.filter_eq_self.mpr hne]

/-- Inserting keeps a sorted list sorted. -/
theorem InsertedAt.pairwise {lt : α → α → Bool} {ident : α → κ} (ho : StrictTotalOn lt ident)
    (h : InsertedAt lt e l l') (hs : l.Pairwise (lt · ·)) : l'.Pairwise (lt · ·) := by
  obtain ⟨l1, l2, rfl, rfl, h1, h2⟩ := h
  obtain ⟨hs1, hs2, -⟩ := List.pairwise_append.mp hs
  refine List.pairwise_append.mpr ⟨hs1, List.pairwise_cons.mpr ⟨h2, hs2⟩, ?_⟩
  intro a ha b hb
  rcases List.mem_cons.mp hb with rfl | hb
  · exact h1 a ha
  · exact ho.trans (h1 a ha) (h2 b hb)

/-- The place of an element in a sorted list is unique: it is the one
`orderedInsert` finds. -/
theorem InsertedAt.eq_orderedInsert {lt : α → α → Bool} {ident : α → κ}
    (ho : StrictTotalOn lt ident) (h : InsertedAt lt e l l') :
    l' = l.orderedInsert (fun a b => lt a b) e := by
  obtain ⟨l1, l2, rfl, rfl, h1, h2⟩ := h
  induction l1 with
  | nil =>
    cases l2 with
    | nil => rfl
    | cons y ys => simp [h2 y (by simp)]
  | cons x xs ih =>
    have hx : lt e x = false := ho.asymm (h1 x (by simp))
    simp only [List.cons_append, List.orderedInsert, hx, Bool.false_eq_true, ↓reduceIte]
    rw [← ih fun y hy => h1 y (List.mem_cons_of_mem _ hy)]

end Dmn.Lib
