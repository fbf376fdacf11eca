import Dmn.IntervalBTree.Insert

/-!
# Removal

`removeMaximum`, `removeMinimum` and `eraseEntry` take exactly one entry out of
the listing of a balanced node and keep it balanced; at most one entry of the
root is lost on the way.
-/

namespace Dmn.IntervalBTree

open Lib Node

variable {α : Type} {less : Entry α → Entry α → Bool}

section
variable {n c : Node α}

theorem Balanced.isLeaf_succ (h : Balanced (d + 1) n) : n.isLeaf = false := by
  cases h; rfl

theorem Balanced.children_length (h : Balanced (d + 1) n) :
    n.children.length = n.entries.length + 1 := by
  cases h; assumption

theorem Balanced.child_exists (h : Balanced (d + 1) n) (hi : i ≤ n.entries.length) :
    ∃ c, n.children[i]? = some c := by
  have := h.children_length
  exact ⟨n.children[i], List.getElem?_eq_getElem (by omega)⟩

/-- Replacing a child by another proper child: the listing changes only there. -/
theorem Balanced.replaceChild (h : Balanced (d + 1) n) (hi : i ≤ n.entries.length)
    (hc : n.children[i]? = some c) :
    ChildOk d c ∧ ∃ left right, n.collectEntriesInOrder = left ++ c.collectEntriesInOrder ++ right ∧
      (i = 0 → left = []) ∧ (i = n.entries.length → right = []) ∧ ∀ c', ChildOk d c' →
        Balanced (d + 1) (n.setChild i c').refreshNodeMaxEnd ∧
        (n.setChild i c').refreshNodeMaxEnd.collectEntriesInOrder =
          left ++ c'.collectEntriesInOrder ++ right := by
  have hlen := h.entries_le
  obtain ⟨es1, es2, cs1, x, cs2, m, rfl, h1, h2, h3, hcs⟩ := h.branch_inv hi
  obtain rfl : x = c := by simpa [getChild_eq h2] using hc
  have hrest : ∀ y ∈ cs1 ++ cs2, ChildOk d y := fun y hy => hcs y (by
    simp only [List.mem_append, List.mem_cons] at hy ⊢; tauto)
  refine ⟨hcs x (by simp), _, _, collect_around (h1.trans h2.symm) h3, ?_, ?_,
    fun c' hc' => ?_⟩
  · rintro rfl
    rw [List.eq_nil_of_length_eq_zero h1, before_nil]
  · intro h
    simp only [entries_node, List.length_append] at h
    rw [List.eq_nil_of_length_eq_zero (l := es2) (by omega), after_nil]
  rw [setChild_eq h2, collect_refresh, collect_around (h1.trans h2.symm) h3]
  simp only [entries_node, List.length_append] at hlen
  exact ⟨.of_children (forall_children_single hrest hc') (by simp; omega) (by simpa using hlen), rfl⟩

theorem entries_setChild : (n.setChild i c).entries = n.entries := rfl

-- ---------------------------------------------------------------------------
-- The greatest and the least entry
-- ---------------------------------------------------------------------------

/-- At the last child the two refills agree. -/
theorem refillLast_eq (h : Balanced (d + 1) n) (hpos : 1 ≤ n.entries.length) :
    n.refillLast (n.children.length - 1) = n.refillChild n.entries.length := by
  rw [h.children_length, Nat.add_sub_cancel]
  unfold refillLast refillChild
  congr 1
  funext x
  have h0 : n.entries.length ≠ 0 := by omega
  simp [h0, Nat.pos_of_ne_zero h0]

theorem refillFirst_eq (h : Balanced (d + 1) n) (hpos : 1 ≤ n.entries.length) :
    n.refillChild 0 = (·, 0) <$> n.refillFirst := by
  unfold refillFirst refillChild
  cases n.children[0]? with
  | none => rfl
  | some c =>
    simp only [Option.bind_eq_bind, Option.bind_some]
    by_cases hsize : c.entries.length = minimumDegree - 1
    · have h1 : 1 < n.children.length := by rw [h.children_length]; omega
      have h0 : 0 < n.entries.length := hpos
      by_cases hlend : n.canLend 1 = true <;> simp [hsize, h0, h1, hlend]
    · simp [hsize]

theorem removeMaximum_spec (h : Balanced d n) (hpos : 1 ≤ n.entries.length) (hf : d < g) :
    ∃ e n', n.removeMaximum g = some (e, n') ∧ Balanced d n' ∧
      n.collectEntriesInOrder = n'.collectEntriesInOrder ++ [e] ∧
      n.entries.length ≤ n'.entries.length + 1 := by
  induction d generalizing n g with
  | zero =>
    obtain ⟨g, rfl⟩ : ∃ k, g = k + 1 := ⟨g - 1, by omega⟩
    have hle := h.entries_le
    obtain ⟨es, m, rfl, -⟩ := h.leaf_inv
    obtain ⟨init, last, rfl⟩ := exists_snoc (l := es) hpos
    simp only [entries_node, List.length_append, List.length_singleton] at hle
    exact ⟨last, _, by simp [removeMaximum], .leaf_refresh (k := init) (m := m) (by omega),
      by simp, by simp⟩
  | succ d ih =>
    obtain ⟨g, rfl⟩ : ∃ k, g = k + 1 := ⟨g - 1, by omega⟩
    obtain ⟨c, hc⟩ := h.child_exists (le_refl n.entries.length)
    obtain ⟨n', i', c', hfill, hn'⟩ := refillChild_spec h hpos (le_refl _) hc
    have hlast := hn'.last rfl
    obtain ⟨hok, left, right, hcol, -, hright, hrep⟩ :=
      hn'.balanced.replaceChild hn'.index_le hn'.child
    obtain ⟨e, c'', hrem, hc'', hcc, hle⟩ := ih hok.1 hok.2 (g := g) (by omega)
    have htwo := hn'.two_le
    obtain ⟨hbal, hcol'⟩ := hrep c'' ⟨hc'', by omega⟩
    refine ⟨e, (n'.setChild i' c'').refreshNodeMaxEnd, ?_, hbal, ?_, ?_⟩
    · simp [removeMaximum, h.isLeaf_succ, refillLast_eq h hpos, hfill, hn'.child, hrem]
    · rw [hcol', ← hn'.collect, hcol, hright hlast, hcc]
      simp
    · rw [entries_refresh, entries_setChild]
      exact hn'.size

theorem removeMinimum_spec (h : Balanced d n) (hpos : 1 ≤ n.entries.length) (hf : d < g) :
    ∃ e n', n.removeMinimum g = some (e, n') ∧ Balanced d n' ∧
      n.collectEntriesInOrder = e :: n'.collectEntriesInOrder ∧
      n.entries.length ≤ n'.entries.length + 1 := by
  induction d generalizing n g with
  | zero =>
    obtain ⟨g, rfl⟩ : ∃ k, g = k + 1 := ⟨g - 1, by omega⟩
    have hle := h.entries_le
    obtain ⟨es, m, rfl, -⟩ := h.leaf_inv
    obtain ⟨first, rest, rfl⟩ := List.exists_cons_of_length_pos (l := es) hpos
    simp only [entries_node, List.length_cons] at hle
    exact ⟨first, _, by simp [removeMinimum], .leaf_refresh (k := rest) (m := m) (by omega),
      by simp, by simp⟩
  | succ d ih =>
    obtain ⟨g, rfl⟩ : ∃ k, g = k + 1 := ⟨g - 1, by omega⟩
    obtain ⟨c, hc⟩ := h.child_exists (Nat.zero_le n.entries.length)
    obtain ⟨n', i', c', hfill, hn'⟩ := refillChild_spec h hpos (Nat.zero_le _) hc
    obtain rfl := hn'.first rfl
    have hfirst : n.refillFirst = some n' := by
      simpa [refillFirst_eq h hpos] using hfill
    obtain ⟨hok, left, right, hcol, hleft, -, hrep⟩ :=
      hn'.balanced.replaceChild hn'.index_le hn'.child
    obtain ⟨e, c'', hrem, hc'', hcc, hle⟩ := ih hok.1 hok.2 (g := g) (by omega)
    have htwo := hn'.two_le
    obtain ⟨hbal, hcol'⟩ := hrep c'' ⟨hc'', by omega⟩
    refine ⟨e, (n'.setChild 0 c'').refreshNodeMaxEnd, ?_, hbal, ?_, ?_⟩
    · have hchild := hn'.child
      simp only [removeMinimum, h.isLeaf_succ, hfirst, Bool.false_eq_true, ↓reduceIte,
        Option.bind_eq_bind, Option.bind_some, hchild, hrem]
      rfl
    · rw [hcol', ← hn'.collect, hcol, hleft rfl, hcc]
      simp
    · rw [entries_refresh, entries_setChild]
      exact hn'.size

-- ---------------------------------------------------------------------------
-- eraseEntry
-- ---------------------------------------------------------------------------

/-- A sorted listing in which `target` is the only entry with its ordinal. -/
structure Holds (less : Entry α → Entry α → Bool) (target : Entry α) (l : List (Entry α)) : Prop where
  sorted : l.Pairwise (less · ·)
  unique : ∀ x ∈ l, x.ordinal = target.ordinal → x = target

theorem Holds.sublist (h : Holds less target l) (hl : List.Sublist l' l) : Holds less target l' :=
  ⟨h.sorted.sublist hl, fun x hx => h.unique x (hl.subset hx)⟩

/-- The search stops at the target or at the first larger entry. -/
theorem eraseIndex_spec (ho : StrictTotalOn less Entry.ordinal) {es : List (Entry α)}
    (h : Holds less target es) :
    ∃ m1 m2, es = m1 ++ m2 ∧ eraseIndex less target es = m1.length ∧ (∀ x ∈ m1, less x target) ∧
      (m2.head? = some target ∨ ∀ x ∈ m2, less target x) := by
  induction es with
  | nil => exact ⟨[], [], rfl, rfl, by simp, .inr (by simp)⟩
  | cons y ys ih =>
    obtain ⟨hy, hys⟩ := List.pairwise_cons.mp h.sorted
    by_cases hlt : less y target
    · obtain ⟨m1, m2, rfl, hidx, hm1, hm2⟩ := ih (h.sublist (List.sublist_cons_self ..))
      exact ⟨y :: m1, m2, rfl, by simp [eraseIndex, hlt, hidx],
        List.forall_mem_cons.mpr ⟨hlt, hm1⟩, hm2⟩
    · refine ⟨[], y :: ys, rfl, by simp [eraseIndex, hlt], by simp, ?_⟩
      by_cases heq : y.ordinal = target.ordinal
      · exact .inl (by simp [h.unique y (by simp) heq])
      · have hty := (ho.connected heq).resolve_left hlt
        exact .inr (List.forall_mem_cons.mpr ⟨hty, fun x hx => ho.trans hty (hy x hx)⟩)

theorem entries_sublist_collect (h : Balanced d n) : n.entries.Sublist n.collectEntriesInOrder := by
  cases h with
  | leaf _ _ => simp
  | branch hlen _ _ _ _ => simpa using sublist_weave (by simpa using hlen)

theorem eraseEntry_at (hleaf : n.isLeaf = false) (hidx : eraseIndex less target n.entries = i)
    (hi : n.entries[i]? = some target) (hl : n.children[i]? = some l)
    (hr : n.children[i + 1]? = some r) :
    n.eraseEntry less target (fuel + 1) =
      if 2 ≤ l.entries.length then
        (l.removeMaximum fuel).map fun p => ((n.setChild i p.2).setEntry i p.1).refreshNodeMaxEnd
      else if 2 ≤ r.entries.length then
        (r.removeMinimum fuel).map fun p =>
          ((n.setChild (i + 1) p.2).setEntry i p.1).refreshNodeMaxEnd
      else do
        let n ← n.mergeChildren i
        let c ← n.children[i]?
        let c ← c.eraseEntry less target fuel
        return (n.setChild i c).refreshNodeMaxEnd := by
  rw [eraseEntry]
  simp only [hidx, hi, hleaf, hl, hr, Option.map_some, ↓reduceIte, Bool.false_eq_true,
    Option.bind_eq_bind, Option.bind_some, minimumDegree, ge_iff_le]
  split
  · cases l.removeMaximum fuel <;> rfl
  · split
    · cases r.removeMinimum fuel <;> rfl
    · rfl

theorem eraseEntry_descend (hleaf : n.isLeaf = false)
    (hidx : eraseIndex less target n.entries = i)
    (hne : n.entries[i]?.map Entry.ordinal ≠ some target.ordinal)
    (hfill : n.refillChild i = some (n', i')) (hc : n'.children[i']? = some c)
    (hdel : c.eraseEntry less target fuel = some c') :
    n.eraseEntry less target (fuel + 1) = some (n'.setChild i' c').refreshNodeMaxEnd := by
  rw [eraseEntry]
  simp only [hidx, hne, hleaf, hfill, hc, hdel, ↓reduceIte, Bool.false_eq_true,
    Option.bind_eq_bind, Option.bind_some]
  rfl

/-- The target stands between two children: it is replaced by a neighbour out
of one of them, or pushed down with their merger. -/
theorem eraseEntry_separator
    (ih : ∀ {n : Node α}, Balanced d n → 1 ≤ n.entries.length →
      Holds less target n.collectEntriesInOrder → target ∈ n.collectEntriesInOrder →
      ∃ n', n.eraseEntry less target fuel = some n' ∧ Balanced d n' ∧
        RemovedAt target n.collectEntriesInOrder n'.collectEntriesInOrder ∧
        n.entries.length ≤ n'.entries.length + 1)
    (hb : Balanced (d + 1) n) (h : Holds less target n.collectEntriesInOrder) (hf : d < fuel)
    (hidx : eraseIndex less target n.entries = i) (hi : n.entries[i]? = some target) :
    ∃ n', n.eraseEntry less target (fuel + 1) = some n' ∧ Balanced (d + 1) n' ∧
      RemovedAt target n.collectEntriesInOrder n'.collectEntriesInOrder ∧
      n.entries.length ≤ n'.entries.length + 1 := by
  have hlen := hb.entries_le
  obtain ⟨es1, s, es2, cs1, l, r, cs2, m, hn, h1, h2, h3, hcs, hl, hr⟩ :=
    hb.pair_inv (List.getElem?_eq_some_iff.mp hi).1
  obtain rfl : s = target := by subst hn h1; simpa using hi
  have hcl : n.children[i]? = some l := by rw [hn]; exact getChild_eq h2
  have hcr : n.children[i + 1]? = some r := by rw [hn]; exact getChild_succ_eq h2
  have hes : ∀ e, (es1 ++ s :: es2).set i e = es1 ++ e :: es2 := by subst h1; simp
  have hcol := collect_around_pair (s := s) (l := l) (r := r) (m := m) (h1.trans h2.symm) h3
  rw [eraseEntry_at hb.isLeaf_succ hidx hi hcl hcr]
  have hpair : ∀ {l' r' : Node α} {e}, ChildOk d l' → ChildOk d r' →
      Balanced (d + 1) (node (es1 ++ e :: es2) (cs1 ++ l' :: r' :: cs2) m false).refreshNodeMaxEnd := by
    intro l' r' e hl' hr'
    simp only [hn, entries_node, List.length_append, List.length_cons] at hlen
    exact .of_children (forall_children_pair hcs hl' hr') (by simp; omega) (by simpa using hlen)
  by_cases h2l : 2 ≤ l.entries.length
  · obtain ⟨e, l', hrem, hl', hcl', hle⟩ := removeMaximum_spec hl.1 hl.2 (g := fuel) hf
    refine ⟨(node (es1 ++ e :: es2) (cs1 ++ l' :: r :: cs2) m false).refreshNodeMaxEnd, ?_,
      hpair ⟨hl', by omega⟩ hr, ?_, by simp [hn]⟩
    · simp [h2l, hrem, hn, setChild_eq h2, setEntry, hes]
    · rw [hn, hcol, collect_refresh, collect_around_pair (h1.trans h2.symm) h3, hcl']
      exact RemovedAt.frame ⟨l'.collectEntriesInOrder ++ [e], r.collectEntriesInOrder, rfl, by simp⟩
  · by_cases h2r : 2 ≤ r.entries.length
    · obtain ⟨e, r', hrem, hr', hcr', hle⟩ := removeMinimum_spec hr.1 hr.2 (g := fuel) hf
      refine ⟨(node (es1 ++ e :: es2) (cs1 ++ l :: r' :: cs2) m false).refreshNodeMaxEnd, ?_,
        hpair hl ⟨hr', by omega⟩, ?_, by simp [hn]⟩
      · simp [h2l, h2r, hrem, hn, setChild_succ_eq h2, setEntry, hes]
      · rw [hn, hcol, collect_refresh, collect_around_pair (h1.trans h2.symm) h3, hcr']
        exact RemovedAt.frame ⟨l.collectEntriesInOrder, e :: r'.collectEntriesInOrder, rfl, rfl⟩
    · obtain ⟨c, hc, h3c, hcc, hmerge⟩ := mergeChildren_spec (m := m) (f := false) (s := s)
        (y := es2) (z := cs2) hl.1 hr.1 (by have := hl.2; omega) (by have := hr.2; omega) h1 h2
      have hsub : c.collectEntriesInOrder.Sublist n.collectEntriesInOrder := by
        rw [hn, hcol, hcc]
        simp [List.append_assoc]
      obtain ⟨c', hdel, hc', hat, hle⟩ := ih hc (by omega) (h.sublist hsub) (by simp [hcc])
      refine ⟨(node (es1 ++ es2) (cs1 ++ c' :: cs2) m false).refreshNodeMaxEnd, ?_, ?_, ?_,
        by simp [hn]; omega⟩
      · simp [h2l, h2r, hn, hmerge, getChild_eq h2, hdel, setChild_refresh, setChild_eq h2]
      · simp only [hn, entries_node, List.length_append, List.length_cons] at hlen
        exact .of_children (forall_children_single hcs ⟨hc', by omega⟩) (by simp; omega)
          (by simp; omega)
      · rw [hn, hcol, collect_refresh, collect_around (h1.trans h2.symm) h3, ← hcc]
        exact hat.frame

/-- An element of the listing that is no separator is in the child between its
smaller and its larger separators. -/
theorem mem_child (ho : StrictTotalOn less Entry.ordinal) (hb : Balanced (d + 1) n)
    (hs : n.collectEntriesInOrder.Pairwise (less · ·)) (ht : target ∈ n.collectEntriesInOrder)
    (heq : n.entries = m1 ++ m2) (hm1 : ∀ x ∈ m1, less x target) (hm2 : ∀ x ∈ m2, less target x)
    (hc : n.children[m1.length]? = some c) : target ∈ c.collectEntriesInOrder := by
  obtain ⟨es1, es2, cs1, x, cs2, m, rfl, h1, h2, h3, -⟩ := hb.branch_inv (i := m1.length) (by simp [heq])
  obtain rfl : x = c := by simpa [getChild_eq h2] using hc
  obtain ⟨rfl, rfl⟩ := List.append_inj heq h1
  have hirr := ho.irrefl target
  rw [collect_around (h1.trans h2.symm) h3] at hs ht
  simp only [List.mem_append] at ht
  rcases ht with (ht | ht) | ht
  · simp [before_less ho (hs.sublist (by simp)) hm1 _ ht] at hirr
  · exact ht
  · simp [less_after ho (hs.sublist (by simp)) hm2 _ ht] at hirr

theorem eraseEntry_spec (ho : StrictTotalOn less Entry.ordinal) (hb : Balanced d n)
    (hpos : 1 ≤ n.entries.length) (h : Holds less target n.collectEntriesInOrder)
    (ht : target ∈ n.collectEntriesInOrder) (hf : d < f) :
    ∃ n', n.eraseEntry less target f = some n' ∧ Balanced d n' ∧
      RemovedAt target n.collectEntriesInOrder n'.collectEntriesInOrder ∧
      n.entries.length ≤ n'.entries.length + 1 := by
  induction d generalizing n f with
  | zero =>
    obtain ⟨f, rfl⟩ : ∃ k, f = k + 1 := ⟨f - 1, by omega⟩
    have hle := hb.entries_le
    obtain ⟨es, m, rfl, -⟩ := hb.leaf_inv
    simp only [collect_leaf, entries_node] at h ht hle
    obtain ⟨m1, m2, rfl, hidx, hm1, hm2⟩ := eraseIndex_spec ho h
    have hhead : m2.head? = some target := by
      refine hm2.resolve_right fun hm2 => ?_
      have hirr := ho.irrefl target
      rcases List.mem_append.mp ht with ht | ht
      · simp [hm1 _ ht] at hirr
      · simp [hm2 _ ht] at hirr
    obtain ⟨rest, rfl⟩ := List.head?_eq_some_iff.mp hhead
    simp only [List.length_append, List.length_cons] at hle
    refine ⟨refreshNodeMaxEnd (.node (m1 ++ rest) [] m true), ?_, .leaf_refresh (by simp; omega),
      ⟨m1, rest, by simp, by simp⟩, by simp; omega⟩
    simp [eraseEntry, hidx, eraseIdx_middle]
  | succ d ih =>
    obtain ⟨f, rfl⟩ : ∃ k, f = k + 1 := ⟨f - 1, by omega⟩
    obtain ⟨m1, m2, heq, hidx, hm1, hm2⟩ := eraseIndex_spec ho (h.sublist (entries_sublist_collect hb))
    rcases hm2 with hm2 | hm2
    · refine eraseEntry_separator (fun hb hpos h ht => ih hb hpos h ht (by omega)) hb h (by omega)
        hidx ?_
      obtain ⟨rest, rfl⟩ := List.head?_eq_some_iff.mp hm2
      simp [heq]
    · -- the target is below, in the child the search stopped at
      obtain ⟨c, hc⟩ := hb.child_exists (i := m1.length) (by simp [heq])
      have htc : target ∈ c.collectEntriesInOrder :=
        mem_child ho hb h.sorted ht heq hm1 hm2 hc
      obtain ⟨n', i', c', hfill, hn'⟩ := refillChild_spec hb hpos (by simp [heq]) hc
      obtain ⟨hok, left, right, hcol, -, -, hrep⟩ := hn'.balanced.replaceChild hn'.index_le hn'.child
      have hcol' : n.collectEntriesInOrder = left ++ c'.collectEntriesInOrder ++ right :=
        hn'.collect.symm.trans hcol
      obtain ⟨c'', hdel, hc'', hat, hle⟩ := ih hok.1 hok.2
        (h.sublist (by simp [hcol', List.append_assoc])) (hn'.subset htc) (f := f) (by omega)
      have htwo := hn'.two_le
      obtain ⟨hbal, hnew⟩ := hrep c'' ⟨hc'', by omega⟩
      refine ⟨(n'.setChild i' c'').refreshNodeMaxEnd, ?_, hbal, ?_, ?_⟩
      · refine eraseEntry_descend hb.isLeaf_succ hidx ?_ hfill hn'.child hdel
        cases m2 with
        | nil => simp [heq]
        | cons y ys =>
          have hy : less target y := hm2 y (by simp)
          have hyc : y ∈ n.collectEntriesInOrder :=
            (entries_sublist_collect hb).subset (by simp [heq])
          exact fun hord => ho.ne hy (h.unique y hyc (by simpa [heq] using hord)).symm
      · rw [hnew, hcol']
        exact hat.frame
      · rw [entries_refresh, entries_setChild]
        exact hn'.size

end
end Dmn.IntervalBTree
