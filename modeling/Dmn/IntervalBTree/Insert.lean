import Dmn.IntervalBTree.Balance

/-!
# Insertion

`insertNonFull` puts an entry at its sorted place in the listing of a balanced
node that is not full, and the node stays balanced.
-/

namespace Dmn.IntervalBTree

open Lib Node

variable {α : Type} {less : Entry α → Entry α → Bool} {e : Entry α}

/-- The listing is sorted and holds no entry with the ordinal of `e`. -/
structure Accepts (less : Entry α → Entry α → Bool) (e : Entry α) (l : List (Entry α)) : Prop where
  sorted : l.Pairwise (less · ·)
  fresh : ∀ x ∈ l, x.ordinal ≠ e.ordinal

theorem Accepts.sublist (h : Accepts less e l) (hl : List.Sublist l' l) : Accepts less e l' :=
  ⟨h.sorted.sublist hl, fun x hx => h.fresh x (hl.subset hx)⟩

/-- The search from the right finds the boundary between the smaller and the
larger entries. -/
theorem insertIndex_spec (ho : StrictTotalOn less Entry.ordinal) {i j : List (Entry α)}
    (h : Accepts less e (i ++ j)) (hl2 : ∀ x ∈ j, less e x) :
    ∃ m1 m2, i ++ j = m1 ++ m2 ∧ insertIndex less e (i ++ j) i.length = m1.length ∧
      (∀ x ∈ m1, less x e) ∧ ∀ x ∈ m2, less e x := by
  induction i using List.reverseRecOn generalizing j with
  | nil => exact ⟨[], j, rfl, rfl, by simp, hl2⟩
  | append_singleton i y ih =>
    by_cases hy : less e y
    · obtain ⟨m1, m2, heq, hidx, hm1, hm2⟩ := ih (j := y :: j) (by simpa using h)
        (List.forall_mem_cons.mpr ⟨hy, hl2⟩)
      refine ⟨m1, m2, by simpa using heq, ?_, hm1, hm2⟩
      simpa [insertIndex, hy] using hidx
    · refine ⟨i ++ [y], j, rfl, by simp [insertIndex, hy], ?_, hl2⟩
      have hye : less y e := (ho.connected (h.fresh y (by simp))).resolve_right hy
      intro x hx
      rcases List.mem_append.mp hx with hx | hx
      · have hxy := (List.pairwise_append.mp (List.pairwise_append.mp h.sorted).1).2.2 x hx y (by simp)
        exact ho.trans hxy hye
      · obtain rfl := List.mem_singleton.mp hx
        exact hye

/-- Around a child: everything listed before it is smaller than `e` when its
separators are, and everything after it larger. -/
theorem before_less (ho : StrictTotalOn less Entry.ordinal)
    (hs : (before es bs).Pairwise (less · ·)) (h : ∀ x ∈ es, less x e) :
    ∀ x ∈ before es bs, less x e := by
  intro x hx
  rcases mem_before hs hx with hx | ⟨s, hs, hxs⟩
  · exact h x hx
  · exact ho.trans hxs (h s hs)

theorem less_after (ho : StrictTotalOn less Entry.ordinal)
    (hs : (after es bs).Pairwise (less · ·)) (h : ∀ x ∈ es, less e x) :
    ∀ x ∈ after es bs, less e x := by
  intro x hx
  rcases mem_after hs hx with hx | ⟨s, hs, hsx⟩
  · exact h x hx
  · exact ho.trans (h s hs) hsx

theorem insertNonFull_branch {n c : Node α} (hleaf : n.isLeaf = false)
    (hidx : insertIndex less e n.entries n.entries.length = i) (hc : n.children[i]? = some c)
    (hroom : c.entries.length ≠ 3) (hins : c.insertNonFull less e fuel = some c') :
    n.insertNonFull less e (fuel + 1) = some (n.setChild i c').refreshNodeMaxEnd := by
  simp [insertNonFull, hleaf, hidx, hc, maxKeys, minimumDegree, hroom, hins]

theorem insertNonFull_split {n c n' x : Node α} (hleaf : n.isLeaf = false)
    (hidx : insertIndex o e n.entries n.entries.length = i) (hc : n.children[i]? = some c)
    (hfull : c.entries.length = 3) (hsplit : n.splitChild i = some n') (hp : n'.entries[i]? = some p)
    (hj : j = if o p e then i + 1 else i) (hc' : n'.children[j]? = some x)
    (hins : x.insertNonFull o e h = some y) :
    n.insertNonFull o e (h + 1) = some (n'.setChild j y).refreshNodeMaxEnd := by
  simp [insertNonFull, hleaf, hidx, hc, maxKeys, minimumDegree, hfull, hsplit, hp, ← hj, hc', hins]

theorem insertNonFull_spec (ho : StrictTotalOn less Entry.ordinal) (hb : Balanced d n)
    (hroom : n.entries.length ≤ 2) (h : Accepts less e n.collectEntriesInOrder) (hf : d < g) :
    ∃ n', n.insertNonFull less e g = some n' ∧ Balanced d n' ∧
      InsertedAt less e n.collectEntriesInOrder n'.collectEntriesInOrder ∧
      n.entries.length ≤ n'.entries.length := by
  induction d generalizing n g with
  | zero =>
    obtain ⟨g, rfl⟩ : ∃ k, g = k + 1 := ⟨g - 1, by omega⟩
    obtain ⟨es, m, rfl, -⟩ := hb.leaf_inv
    simp only [collect_leaf, entries_node] at h hroom
    obtain ⟨m1, m2, heq, hidx, hm1, hm2⟩ :=
      insertIndex_spec ho (i := es) (j := []) (by simpa using h) (by simp)
    simp only [List.append_nil] at heq hidx
    refine ⟨refreshNodeMaxEnd (.node (m1 ++ e :: m2) [] m true), ?_, .leaf_refresh ?_,
      ⟨m1, m2, by simpa using heq, by simp, hm1, hm2⟩, ?_⟩
    · subst heq
      rw [List.length_append] at hidx
      simp [insertNonFull, hidx, insertIdx_middle]
    · have := congrArg List.length heq
      simp at this ⊢
      omega
    · simp [heq]
  | succ d ih =>
    obtain ⟨g, rfl⟩ : ∃ k, g = k + 1 := ⟨g - 1, by omega⟩
    have hacc : Accepts less e n.entries := by
      cases hb with
      | @branch _ es cs m hlen _ _ _ _ =>
        exact h.sublist (by simpa using sublist_weave (by simpa using hlen))
    obtain ⟨m1, m2, heq, hidx, hm1, hm2⟩ :=
      insertIndex_spec ho (i := n.entries) (j := []) (by simpa using hacc) (by simp)
    simp only [List.append_nil] at heq hidx
    obtain ⟨es1, es2, cs1, c, cs2, m, rfl, h1, h2, h3, hcs⟩ :=
      hb.branch_inv (i := m1.length) (by simp [heq])
    obtain ⟨rfl, rfl⟩ := List.append_inj heq h1
    simp only [entries_node, List.length_append] at hroom hidx
    have hok : ChildOk d c := hcs c (by simp)
    have hrest : ∀ x ∈ cs1 ++ cs2, ChildOk d x := fun x hx => hcs x (by
      simp only [List.mem_append, List.mem_cons] at hx ⊢; tauto)
    have hcol := collect_around (c := c) (m := m) h2.symm h3
    rw [hcol] at h
    have hL : ∀ x ∈ before es1 (cs1.map collectEntriesInOrder), less x e :=
      before_less ho (h.sublist (by simp)).sorted hm1
    have hR : ∀ x ∈ after es2 (cs2.map collectEntriesInOrder), less e x :=
      less_after ho (h.sublist (by simp)).sorted hm2
    have hc : Accepts less e c.collectEntriesInOrder := h.sublist (by simp [List.append_assoc])
    have hlen := hb.entries_le
    simp only [entries_node, List.length_append] at hlen
    by_cases hfull : c.entries.length = 3
    · obtain ⟨l, p, r, hl, hr, hll, hrl, hcp, hsplit⟩ := splitChild_spec (m := m) (f := false)
        (y := es2) (z := cs2) hok.1 hfull rfl h2
      rw [hcp] at hc h
      obtain ⟨hsl, hsr, hlr⟩ := List.pairwise_append.mp hc.sorted
      have hstep := fun {j c' c''} => insertNonFull_split (o := less) (e := e) (h := g)
        (j := j) (x := c') (y := c'') (n := node (es1 ++ es2) (cs1 ++ c :: cs2) m false) rfl
        (by simpa using hidx) (getChild_eq h2) hfull hsplit (p := p) (by simp)
      by_cases hpe : less p e
      · -- into the new sibling
        obtain ⟨r', hins, hr', hat, hle⟩ :=
          ih hr (by omega) (hc.sublist (by simp)) (g := g) (by omega)
        refine ⟨_, hstep (j := es1.length + 1) (by simp [hpe]) (by simpa using getChild_succ_eq h2) hins,
          ?_, ?_, ?_⟩
        · rw [setChild_refresh, setChild_succ_eq h2]
          exact .of_children (forall_children_pair hrest ⟨hl, by omega⟩ ⟨hr', by omega⟩)
            (by simp; omega) (by simp; omega)
        · rw [setChild_refresh, setChild_succ_eq h2, collect_refresh, collect_around_pair h2.symm h3,
            hcol, hcp]
          refine (InsertedAt.frame (i := l.collectEntriesInOrder ++ [p]) (j := []) hat ?_
            (by simp)).frame hL hR |> cast (by simp)
          intro x hx
          rcases List.mem_append.mp hx with hx | hx
          · exact ho.trans (hlr x hx p (by simp)) hpe
          · exact List.mem_singleton.mp hx ▸ hpe
        · simp [setChild]
      · -- into the lower half
        have hep : less e p := (ho.connected (hc.fresh p (by simp))).resolve_left hpe
        obtain ⟨l', hins, hl', hat, hle⟩ :=
          ih hl (by omega) (hc.sublist (by simp)) (g := g) (by omega)
        refine ⟨_, hstep (j := es1.length) (by simp [hpe]) (by simpa using getChild_eq h2) hins,
          ?_, ?_, ?_⟩
        · rw [setChild_refresh, setChild_eq h2]
          exact .of_children (forall_children_pair hrest ⟨hl', by omega⟩ ⟨hr, by omega⟩)
            (by simp; omega) (by simp; omega)
        · rw [setChild_refresh, setChild_eq h2, collect_refresh, collect_around_pair h2.symm h3,
            hcol, hcp]
          refine (InsertedAt.frame (i := []) (j := p :: r.collectEntriesInOrder) hat (by simp)
            ?_).frame hL hR |> cast (by simp)
          intro x hx
          rcases List.mem_cons.mp hx with rfl | hx
          · exact hep
          · exact ho.trans hep ((List.pairwise_cons.mp hsr).1 x hx)
        · simp [setChild]
    · obtain ⟨c', hins, hc', hat, hle⟩ :=
        ih hok.1 (by have := hok.1.entries_le; omega) hc (g := g) (by omega)
      refine ⟨_, insertNonFull_branch rfl (by simpa using hidx) (getChild_eq h2) hfull hins, ?_, ?_, ?_⟩
      · rw [setChild_eq h2]
        exact .of_children (forall_children_single hrest ⟨hc', by have := hok.2; omega⟩)
          (by simp; omega) (by simpa using hlen)
      · rw [setChild_eq h2, collect_refresh, collect_around h2.symm h3, collect_around h2.symm h3]
        exact hat.frame hL hR
      · simp [setChild]

end Dmn.IntervalBTree
