import Dmn.IntervalBTree.Node

/-!
# Balance of the interval B-tree

`Balanced d n`: every leaf below `n` is at depth `d`, every node holds at most
three entries and every node but `n` at least one, inner nodes have one child
more than entries, and every node knows the greatest endpoint below it. Each
rebalancing step is described once, around the two neighbours it touches.
-/

namespace Dmn.IntervalBTree

open Lib

variable {α : Type}

/-- The greatest endpoint of a list of entries; the least integer if empty. -/
def maxEnd (es : List (Entry α)) : Int64 := es.foldr (fun e m => max e.range.end m) Int64.minValue

@[simp] theorem maxEnd_nil : maxEnd ([] : List (Entry α)) = Int64.minValue := rfl
@[simp] theorem maxEnd_cons : maxEnd (e :: es : List (Entry α)) = max e.range.end (maxEnd es) := rfl

@[simp] theorem minValue_max (a : Int64) : max Int64.minValue a = a :=
  max_eq_right (Int64.minValue_le a)

@[simp] theorem max_minValue (a : Int64) : max a Int64.minValue = a :=
  max_eq_left (Int64.minValue_le a)

@[simp] theorem maxEnd_append (l1 l2 : List (Entry α)) :
    maxEnd (l1 ++ l2) = max (maxEnd l1) (maxEnd l2) := by
  induction l1 with
  | nil => simp
  | cons e es ih => simp [ih, max_assoc]

theorem le_maxEnd {es : List (Entry α)} (h : e ∈ es) : e.range.end ≤ maxEnd es := by
  induction es with
  | nil => cases h
  | cons x xs ih =>
    rcases List.mem_cons.mp h with rfl | h
    · exact le_max_left ..
    · exact (ih h).trans (le_max_right ..)

namespace Node

@[simp] theorem collect_leaf : (node es cs m true : Node α).collectEntriesInOrder = es := by
  simp [collectEntriesInOrder]

@[simp] theorem collect_branch : (node es cs m false : Node α).collectEntriesInOrder =
    weave es (cs.map collectEntriesInOrder) := by
  simp [collectEntriesInOrder]

theorem collect_around {es1 y : List (Entry α)} {cs1 z : List (Node α)}
    (h1 : es1.length = cs1.length) (h2 : y.length = z.length) :
    (node (es1 ++ y) (cs1 ++ c :: z) m false).collectEntriesInOrder =
      before es1 (cs1.map collectEntriesInOrder) ++ c.collectEntriesInOrder ++
        after y (z.map collectEntriesInOrder) := by
  rw [collect_branch, List.map_append, List.map_cons]
  exact weave_split (by simpa using h1) (by simpa using h2)

/-- A branch around two neighbouring children and their separator. -/
theorem collect_around_pair {es1 es2 : List (Entry α)} {cs1 cs2 : List (Node α)}
    (h1 : es1.length = cs1.length) (h2 : es2.length = cs2.length) :
    (node (es1 ++ s :: es2) (cs1 ++ l :: r :: cs2) m false).collectEntriesInOrder =
      before es1 (cs1.map collectEntriesInOrder) ++
        (l.collectEntriesInOrder ++ s :: r.collectEntriesInOrder) ++
        after es2 (cs2.map collectEntriesInOrder) := by
  have h := collect_around (c := l) (m := m) (y := s :: es2) (z := r :: cs2) h1 (by simp [h2])
  rw [h]
  simp

-- ---------------------------------------------------------------------------
-- The metadata
-- ---------------------------------------------------------------------------

@[simp] theorem entries_refresh (n : Node α) : n.refreshNodeMaxEnd.entries = n.entries := by
  cases n; rfl
@[simp] theorem children_refresh (n : Node α) : n.refreshNodeMaxEnd.children = n.children := by
  cases n; rfl
@[simp] theorem isLeaf_refresh (n : Node α) : n.refreshNodeMaxEnd.isLeaf = n.isLeaf := by
  cases n; rfl
@[simp] theorem collect_refresh (n : Node α) :
    n.refreshNodeMaxEnd.collectEntriesInOrder = n.collectEntriesInOrder := by
  cases n; simp [refreshNodeMaxEnd, collectEntriesInOrder]

theorem foldl_entries_end (es : List (Entry α)) (a : Int64) :
    es.foldl (fun m e => max m e.range.end) a = max a (maxEnd es) := by
  induction es generalizing a with
  | nil => simp
  | cons e es ih => simp [ih, max_assoc]

theorem foldl_children_end (cs : List (Node α)) (a : Int64)
    (h : ∀ c ∈ cs, c.subtreeMaxEnd = maxEnd c.collectEntriesInOrder) :
    cs.foldl (fun m c => max m c.subtreeMaxEnd) a =
      max a (maxEnd (cs.map collectEntriesInOrder).flatten) := by
  induction cs generalizing a with
  | nil => simp
  | cons c cs ih =>
    simp [ih _ fun d hd => h d (List.mem_cons_of_mem _ hd), h c (by simp), max_assoc]

theorem maxEnd_weave {es : List (Entry α)} (h : bs.length = es.length + 1) :
    maxEnd (weave es bs) = max (maxEnd es) (maxEnd bs.flatten) := by
  induction es generalizing bs with
  | nil =>
    obtain ⟨b, rfl⟩ := List.length_eq_one_iff.mp h
    simp
  | cons e es ih =>
    cases bs with
    | nil => simp at h
    | cons b bs =>
      simp [ih (by simpa using h), max_assoc, max_left_comm]

end Node

open Node

/-- The shape of a subtree of uniform depth, its root's lower bound excepted. -/
inductive Balanced : Nat → Node α → Prop
  | leaf {es m} : es.length ≤ 3 → m = maxEnd es → Balanced 0 (.node es [] m true)
  | branch {d es cs m} : cs.length = es.length + 1 → (∀ c ∈ cs, Balanced d c) →
      (∀ c ∈ cs, 1 ≤ c.entries.length) → es.length ≤ 3 →
      m = maxEnd (weave es (cs.map collectEntriesInOrder)) → Balanced (d + 1) (.node es cs m false)

namespace Balanced

theorem subtreeMaxEnd_eq (h : Balanced d n) :
    n.subtreeMaxEnd = maxEnd (n : Node α).collectEntriesInOrder := by
  cases h with
  | leaf _ hm => simpa using hm
  | branch _ _ _ _ hm => simpa using hm

theorem entries_le (h : Balanced d n) : (n : Node α).entries.length ≤ 3 := by
  cases h <;> assumption

theorem leaf_refresh {k : List (Entry α)} (h : k.length ≤ 3) :
    Balanced 0 (refreshNodeMaxEnd (.node k [] m true)) :=
  .leaf h (by simp [foldl_entries_end])

theorem branch_refresh {k : List (Entry α)} (hlen : b.length = k.length + 1)
    (hcs : ∀ c ∈ b, Balanced d c) (hne : ∀ c ∈ b, 1 ≤ c.entries.length) (h3 : k.length ≤ 3) :
    Balanced (d + 1) (refreshNodeMaxEnd (.node k b m false)) := by
  refine .branch hlen hcs hne h3 ?_
  rw [foldl_entries_end, foldl_children_end _ _ fun c hc => (hcs c hc).subtreeMaxEnd_eq,
    maxEnd_weave (by simpa using hlen), minValue_max]

theorem leaf_inv (h : Balanced 0 (n : Node α)) : ∃ es m, n = .node es [] m true ∧ es.length ≤ 3 := by
  cases h with
  | leaf h3 _ => exact ⟨_, _, rfl, h3⟩

/-- A branch opened around its child at an index. -/
theorem branch_inv (h : Balanced (d + 1) (n : Node α)) (hi : i ≤ n.entries.length) :
    ∃ es1 es2 cs1 c cs2 m, n = .node (es1 ++ es2) (cs1 ++ c :: cs2) m false ∧ es1.length = i ∧
      cs1.length = i ∧ es2.length = cs2.length ∧
      ∀ x ∈ cs1 ++ c :: cs2, Balanced d x ∧ 1 ≤ x.entries.length := by
  cases h with
  | @branch d es cs m hlen hcs hne _ _ =>
    obtain ⟨cs1, c, cs2, rfl, h1⟩ := exists_split (l := cs) (i := i) (by simp at hi; omega)
    simp only [entries_node] at hi
    refine ⟨es.take i, es.drop i, cs1, c, cs2, m, by simp, by simpa using hi, h1, ?_,
      fun x hx => ⟨hcs x hx, hne x hx⟩⟩
    simp at hlen ⊢
    omega

theorem height_eq (h : Balanced d (n : Node α)) : n.height = d := by
  induction h with
  | leaf _ _ => simp [Node.height]
  | @branch d es cs m hlen hcs _ _ _ ih =>
    have hall : ∀ l : List (Node α), (∀ c ∈ l, c.height = d) → l ≠ [] → heightOfChildren l = d := by
      intro l hl hne
      induction l with
      | nil => exact absurd rfl hne
      | cons c l ihl =>
        have hc := hl c (by simp)
        cases l with
        | nil => simp [heightOfChildren, hc]
        | cons c' l' =>
          have := ihl (fun x hx => hl x (List.mem_cons_of_mem _ hx)) (by simp)
          rw [heightOfChildren, this, hc, max_self]
    have hne : cs ≠ [] := by
      rintro rfl
      simp at hlen
    simp [Node.height, hall cs ih hne]

end Balanced

-- ---------------------------------------------------------------------------
-- Replacing a child
-- ---------------------------------------------------------------------------

section
variable {es1 es2 : List (Entry α)} {cs1 cs2 : List (Node α)} {c l r : Node α} {s : Entry α}

theorem setChild_eq (h : cs1.length = i) :
    (node es (cs1 ++ c :: cs2) m leaf).setChild i c' = .node es (cs1 ++ c' :: cs2) m leaf := by
  subst h
  simp [setChild]

theorem setChild_succ_eq (h : cs1.length = i) :
    (node es (cs1 ++ l :: r :: cs2) m leaf).setChild (i + 1) c' =
      .node es (cs1 ++ l :: c' :: cs2) m leaf := by
  subst h
  simp [setChild]

/-- The metadata is computed anew, so refreshing twice is refreshing once. -/
theorem setChild_refresh (n : Node α) :
    (n.refreshNodeMaxEnd.setChild i c).refreshNodeMaxEnd = (n.setChild i c).refreshNodeMaxEnd := by
  cases n; rfl

theorem getChild_eq (h : cs1.length = i) : (cs1 ++ c :: cs2)[i]? = some c := by
  subst h
  simp

theorem getChild_succ_eq (h : cs1.length = i) : (cs1 ++ l :: r :: cs2)[i + 1]? = some r := by
  subst h
  simp

-- ---------------------------------------------------------------------------
-- Splitting, merging and borrowing
-- ---------------------------------------------------------------------------

theorem splitChild_spec (hc : Balanced d c) (hfull : c.entries.length = 3)
    (h1 : u.length = i) (h2 : w.length = i) :
    ∃ l p r, Balanced d l ∧ Balanced d r ∧ l.entries.length = 1 ∧ r.entries.length = 1 ∧
      c.collectEntriesInOrder = l.collectEntriesInOrder ++ p :: r.collectEntriesInOrder ∧
      (node (u ++ y) (w ++ c :: z) m f).splitChild i =
        some (refreshNodeMaxEnd (.node (u ++ p :: y) (w ++ l :: r :: z) m false)) := by
  subst h1
  cases hc with
  | @leaf es mc _ _ =>
    obtain ⟨a, p, b, rfl⟩ := List.length_eq_three.mp hfull
    refine ⟨_, p, _, .leaf_refresh (k := [a]) (m := mc) (by simp),
      .leaf_refresh (k := [b]) (m := Int64.minValue) (by simp), by simp, by simp, by simp, ?_⟩
    simp [splitChild, ← h2, minimumDegree, maxKeys, h2 ▸ insertIdx_middle u y p,
      insertIdx_middle_succ]
  | @branch d es cs mc hlen hcs hne _ _ =>
    obtain ⟨a, p, b, rfl⟩ := List.length_eq_three.mp hfull
    obtain ⟨c1, c2, c3, c4, rfl⟩ : ∃ c1 c2 c3 c4, cs = [c1, c2, c3, c4] := by
      match cs, hlen with
      | [c1, c2, c3, c4], _ => exact ⟨_, _, _, _, rfl⟩
    refine ⟨_, p, _, .branch_refresh (k := [a]) (b := [c1, c2]) (d := d) (m := mc) (by simp) ?_ ?_
      (by simp), .branch_refresh (k := [b]) (b := [c3, c4]) (d := d) (m := Int64.minValue)
      (by simp) ?_ ?_ (by simp), by simp, by simp, by simp, ?_⟩
    · exact fun x hx => hcs x (by simp at hx ⊢; tauto)
    · exact fun x hx => hne x (by simp at hx ⊢; tauto)
    · exact fun x hx => hcs x (by simp at hx ⊢; tauto)
    · exact fun x hx => hne x (by simp at hx ⊢; tauto)
    · simp [splitChild, ← h2, minimumDegree, maxKeys, h2 ▸ insertIdx_middle u y p,
        insertIdx_middle_succ]

theorem mergeChildren_spec (hl : Balanced d l) (hr : Balanced d r) (h1l : l.entries.length = 1)
    (h1r : r.entries.length = 1) (h1 : es1.length = i) (h2 : cs1.length = i) :
    ∃ c, Balanced d c ∧ c.entries.length = 3 ∧
      c.collectEntriesInOrder = l.collectEntriesInOrder ++ s :: r.collectEntriesInOrder ∧
      (node (es1 ++ s :: y) (cs1 ++ l :: r :: z) m f).mergeChildren i =
        some (refreshNodeMaxEnd (.node (es1 ++ y) (cs1 ++ c :: z) m f)) := by
  subst h1
  cases hl with
  | @leaf es ml _ _ =>
    obtain ⟨a, rfl⟩ := List.length_eq_one_iff.mp h1l
    obtain ⟨es', mr, rfl, -⟩ := hr.leaf_inv
    obtain ⟨b, rfl⟩ := List.length_eq_one_iff.mp h1r
    refine ⟨_, .leaf_refresh (k := [a, s, b]) (m := ml) (by simp), by simp, by simp, ?_⟩
    simp [mergeChildren, ← h2, h2 ▸ eraseIdx_middle es1 y s, eraseIdx_middle_succ]
  | @branch d es cs ml hlen hcs hne _ _ =>
    obtain ⟨a, rfl⟩ := List.length_eq_one_iff.mp h1l
    cases hr with
    | @branch _ es' cs' mr hlen' hcs' hne' _ _ =>
      obtain ⟨b, rfl⟩ := List.length_eq_one_iff.mp h1r
      obtain ⟨c1, c2, rfl⟩ := List.length_eq_two.mp hlen
      obtain ⟨c3, c4, rfl⟩ := List.length_eq_two.mp hlen'
      refine ⟨_, .branch_refresh (k := [a, s, b]) (b := [c1, c2, c3, c4]) (m := ml) (d := d)
        (by simp) ?_ ?_ (by simp), by simp, by simp, ?_⟩
      · intro x hx
        simp only [List.mem_cons, List.not_mem_nil, or_false] at hx hcs hcs'
        rcases hx with rfl | rfl | rfl | rfl
        · exact hcs _ (.inl rfl)
        · exact hcs _ (.inr rfl)
        · exact hcs' _ (.inl rfl)
        · exact hcs' _ (.inr rfl)
      · intro x hx
        simp only [List.mem_cons, List.not_mem_nil, or_false] at hx hne hne'
        rcases hx with rfl | rfl | rfl | rfl
        · exact hne _ (.inl rfl)
        · exact hne _ (.inr rfl)
        · exact hne' _ (.inl rfl)
        · exact hne' _ (.inr rfl)
      · simp [mergeChildren, ← h2, h2 ▸ eraseIdx_middle es1 y s, eraseIdx_middle_succ]

theorem borrowFromPrevious_spec (hl : Balanced d l) (hr : Balanced d r)
    (h2l : 2 ≤ l.entries.length) (h2r : r.entries.length ≤ 2) (h1 : es1.length = i)
    (h2 : cs1.length = i) :
    ∃ l' p r', Balanced d l' ∧ Balanced d r' ∧ l'.entries.length + 1 = l.entries.length ∧
      r'.entries.length = r.entries.length + 1 ∧
      l.collectEntriesInOrder ++ s :: r.collectEntriesInOrder =
        l'.collectEntriesInOrder ++ p :: r'.collectEntriesInOrder ∧
      r.collectEntriesInOrder ⊆ r'.collectEntriesInOrder ∧
      (node (es1 ++ s :: y) (cs1 ++ l :: r :: z) m f).borrowFromPrevious (i + 1) =
        some (refreshNodeMaxEnd (.node (es1 ++ p :: y) (cs1 ++ l' :: r' :: z) m f)) := by
  subst h1
  have hle := hl.entries_le
  cases hl with
  | @leaf es ml _ _ =>
    obtain ⟨rs, mr, rfl, -⟩ := hr.leaf_inv
    simp only [entries_node] at h2l h2r hle
    obtain ⟨ls, p, rfl⟩ := exists_snoc (l := es) (by omega)
    simp only [List.length_append, List.length_singleton] at h2l hle
    refine ⟨_, p, _, .leaf_refresh (k := ls) (m := ml) (by omega),
      .leaf_refresh (k := s :: rs) (m := mr) (by rw [List.length_cons]; omega), by simp, by simp, by simp,
      by simp, ?_⟩
    simp [borrowFromPrevious, ← h2]
  | @branch d es cs ml hlen hcs hne _ _ =>
    cases hr with
    | @branch _ rs rc mr hlen' hcs' hne' _ _ =>
      simp only [entries_node] at h2l h2r hle
      obtain ⟨ls, p, rfl⟩ := exists_snoc (l := es) (by omega)
      obtain ⟨lc, g, rfl⟩ := exists_snoc (l := cs) (by omega)
      simp only [List.length_append, List.length_singleton, Nat.add_right_cancel_iff]
        at h2l hle hlen
      refine ⟨_, p, _, .branch_refresh (k := ls) (b := lc) (m := ml) (d := d) hlen ?_ ?_
        (by omega), .branch_refresh (k := s :: rs) (b := g :: rc) (m := mr) (d := d)
        (by simpa using hlen') ?_ ?_ (by rw [List.length_cons]; omega), by simp, by simp, ?_, ?_, ?_⟩
      · exact fun x hx => hcs x (by simp [hx])
      · exact fun x hx => hne x (by simp [hx])
      · exact List.forall_mem_cons.mpr ⟨hcs g (by simp), hcs'⟩
      · exact List.forall_mem_cons.mpr ⟨hne g (by simp), hne'⟩
      · simp [weave_snoc (k := ls) (w := lc.map collectEntriesInOrder) (by simpa using hlen)]
      · simp
      · simp [borrowFromPrevious, ← h2]

theorem borrowFromNext_spec (hl : Balanced d l) (hr : Balanced d r)
    (h2l : l.entries.length ≤ 2) (h2r : 2 ≤ r.entries.length) (h1 : es1.length = i)
    (h2 : cs1.length = i) :
    ∃ l' p r', Balanced d l' ∧ Balanced d r' ∧ l'.entries.length = l.entries.length + 1 ∧
      r'.entries.length + 1 = r.entries.length ∧
      l.collectEntriesInOrder ++ s :: r.collectEntriesInOrder =
        l'.collectEntriesInOrder ++ p :: r'.collectEntriesInOrder ∧
      l.collectEntriesInOrder ⊆ l'.collectEntriesInOrder ∧
      (node (es1 ++ s :: y) (cs1 ++ l :: r :: z) m f).borrowFromNext i =
        some (refreshNodeMaxEnd (.node (es1 ++ p :: y) (cs1 ++ l' :: r' :: z) m f)) := by
  subst h1
  have hle := hr.entries_le
  cases hl with
  | @leaf ls ml _ _ =>
    obtain ⟨es, mr, rfl, -⟩ := hr.leaf_inv
    simp only [entries_node] at h2l h2r hle
    obtain ⟨p, rs, rfl⟩ := List.exists_cons_of_length_pos (l := es) (by omega)
    simp only [List.length_cons] at h2r hle
    refine ⟨_, p, _, .leaf_refresh (k := ls ++ [s]) (m := ml)
      (by rw [List.length_append, List.length_singleton]; omega),
      .leaf_refresh (k := rs) (m := mr) (by omega), by simp, by simp, by simp, by simp, ?_⟩
    simp [borrowFromNext, ← h2]
  | @branch d ls lc ml hlen hcs hne _ _ =>
    cases hr with
    | @branch _ es cs mr hlen' hcs' hne' _ _ =>
      simp only [entries_node] at h2l h2r hle
      obtain ⟨p, rs, rfl⟩ := List.exists_cons_of_length_pos (l := es) (by omega)
      obtain ⟨g, rc, rfl⟩ := List.exists_cons_of_length_pos (l := cs) (by omega)
      simp only [List.length_cons, Nat.add_right_cancel_iff] at h2r hle hlen'
      refine ⟨_, p, _, .branch_refresh (k := ls ++ [s]) (b := lc ++ [g]) (m := ml) (d := d)
        (by simpa using hlen) ?_ ?_ (by rw [List.length_append, List.length_singleton]; omega),
        .branch_refresh (k := rs) (b := rc)
        (m := mr) (d := d) hlen' ?_ ?_ (by omega), by simp, by simp, ?_, ?_, ?_⟩
      · exact List.forall_mem_append.mpr ⟨hcs, by simpa using hcs' g (by simp)⟩
      · exact List.forall_mem_append.mpr ⟨hne, by simpa using hne' g (by simp)⟩
      · exact fun x hx => hcs' x (by simp [hx])
      · exact fun x hx => hne' x (by simp [hx])
      · simp [weave_snoc (k := ls) (w := lc.map collectEntriesInOrder) (by simpa using hlen)]
      · simp [weave_snoc (k := ls) (w := lc.map collectEntriesInOrder) (by simpa using hlen)]
      · simp [borrowFromNext, ← h2]

end

-- ---------------------------------------------------------------------------
-- A branch around a changed child
-- ---------------------------------------------------------------------------

/-- What a branch asks of each of its children. -/
def ChildOk (d : Nat) (c : Node α) : Prop := Balanced d c ∧ 1 ≤ c.entries.length

theorem Balanced.of_children {es : List (Entry α)} (hcs : ∀ c ∈ cs, ChildOk d c)
    (hlen : cs.length = es.length + 1) (h3 : es.length ≤ 3) :
    Balanced (d + 1) (refreshNodeMaxEnd (.node es cs m false)) :=
  .branch_refresh hlen (fun c hc => (hcs c hc).1) (fun c hc => (hcs c hc).2) h3

/-- A branch opened around two neighbours and their separator. -/
theorem Balanced.pair_inv (h : Balanced (d + 1) (n : Node α)) (hi : i < n.entries.length) :
    ∃ es1 s es2 cs1 l r cs2 m, n = .node (es1 ++ s :: es2) (cs1 ++ l :: r :: cs2) m false ∧
      es1.length = i ∧ cs1.length = i ∧ es2.length = cs2.length ∧
      (∀ x ∈ cs1 ++ cs2, ChildOk d x) ∧ ChildOk d l ∧ ChildOk d r := by
  obtain ⟨es1, es2, cs1, l, cs2, m, rfl, h1, h2, h3, hcs⟩ := h.branch_inv hi.le
  simp only [entries_node, List.length_append] at hi
  obtain ⟨s, es2, rfl⟩ := List.exists_cons_of_length_pos (l := es2) (by omega)
  obtain ⟨r, cs2, rfl⟩ := List.exists_cons_of_length_pos (l := cs2) (by simp at h3; omega)
  refine ⟨es1, s, es2, cs1, l, r, cs2, m, rfl, h1, h2, by simpa using h3, ?_, hcs l (by simp),
    hcs r (by simp)⟩
  intro x hx
  rcases List.mem_append.mp hx with hx | hx
  · exact hcs x (by simp [hx])
  · exact hcs x (by simp [hx])

theorem forall_children_pair {P : Node α → Prop} (h : ∀ x ∈ cs1 ++ cs2, P x) (hl : P l) (hr : P r) :
    ∀ x ∈ cs1 ++ l :: r :: cs2, P x := by
  obtain ⟨h1, h2⟩ := List.forall_mem_append.mp h
  exact List.forall_mem_append.mpr
    ⟨h1, List.forall_mem_cons.mpr ⟨hl, List.forall_mem_cons.mpr ⟨hr, h2⟩⟩⟩

theorem forall_children_single {P : Node α → Prop} (h : ∀ x ∈ cs1 ++ cs2, P x) (hc : P c) :
    ∀ x ∈ cs1 ++ c :: cs2, P x := by
  obtain ⟨h1, h2⟩ := List.forall_mem_append.mp h
  exact List.forall_mem_append.mpr ⟨h1, List.forall_mem_cons.mpr ⟨hc, h2⟩⟩

/-- The outcome of a refill: the same listing, and a child that can lose an
entry and still holds what the old one held. -/
structure Refilled (d : Nat) (n : Node α) (index : Nat) (c : Node α) (n' : Node α) (index' : Nat)
    (c' : Node α) : Prop where
  balanced : Balanced (d + 1) n'
  collect : n'.collectEntriesInOrder = n.collectEntriesInOrder
  size : n.entries.length ≤ n'.entries.length + 1
  child : n'.children[index']? = some c'
  index_le : index' ≤ n'.entries.length
  two_le : 2 ≤ c'.entries.length
  subset : c.collectEntriesInOrder ⊆ c'.collectEntriesInOrder
  first : index = 0 → index' = 0
  last : index = n.entries.length → index' = n'.entries.length

theorem Refilled.of_pair {es1 es2 : List (Entry α)} {cs1 cs2 : List (Node α)}
    (h : Balanced (d + 1) (.node (es1 ++ s :: es2) (cs1 ++ l :: r :: cs2) m false))
    (h2 : es1.length = cs1.length) (h3 : es2.length = cs2.length) (hcs : ∀ x ∈ cs1 ++ cs2, ChildOk d x)
    (hl : ChildOk d l') (hr : ChildOk d r')
    (hcol : l.collectEntriesInOrder ++ s :: r.collectEntriesInOrder =
      l'.collectEntriesInOrder ++ p :: r'.collectEntriesInOrder)
    (hi : i = cs1.length ∧ c' = l' ∨ i = cs1.length + 1 ∧ c' = r') (h2c : 2 ≤ c'.entries.length)
    (hsub : c.collectEntriesInOrder ⊆ c'.collectEntriesInOrder) :
    Refilled d (.node (es1 ++ s :: es2) (cs1 ++ l :: r :: cs2) m false) i c
      (refreshNodeMaxEnd (.node (es1 ++ p :: es2) (cs1 ++ l' :: r' :: cs2) m false)) i c' where
  balanced := by
    have := h.entries_le
    exact .of_children (forall_children_pair hcs hl hr) (by simp; omega) (by simpa using this)
  collect := by
    rw [collect_refresh, collect_around_pair h2 h3, collect_around_pair h2 h3, hcol]
  size := by simp
  child := by
    rcases hi with ⟨rfl, rfl⟩ | ⟨rfl, rfl⟩
    · simp
    · simp
  index_le := by rcases hi with ⟨rfl, -⟩ | ⟨rfl, -⟩ <;> simp <;> omega
  two_le := h2c
  subset := hsub
  first := id
  last := by simp

theorem refillChild_eq {n : Node α} (hc : n.children[i]? = some c) (hsize : c.entries.length = 1) :
    n.refillChild i =
      if i > 0 && n.canLend (i - 1) then (·, i) <$> n.borrowFromPrevious i
      else if i < n.entries.length && n.canLend (i + 1) then (·, i) <$> n.borrowFromNext i
      else if i < n.entries.length then (·, i) <$> n.mergeChildren i
      else if i = 0 then none
      else (·, i - 1) <$> n.mergeChildren (i - 1) := by
  simp [refillChild, hc, hsize, minimumDegree]

theorem Refilled.of_merge {es1 es2 : List (Entry α)} {cs1 cs2 : List (Node α)}
    (h : Balanced (d + 1) (.node (es1 ++ s :: es2) (cs1 ++ l :: r :: cs2) m false))
    (h2 : es1.length = cs1.length) (h3 : es2.length = cs2.length) (hcs : ∀ x ∈ cs1 ++ cs2, ChildOk d x)
    (hc : Balanced d c') (h3c : c'.entries.length = 3)
    (hcol : c'.collectEntriesInOrder = l.collectEntriesInOrder ++ s :: r.collectEntriesInOrder)
    (hi' : cs1.length = i')
    (hi : i = i' ∧ c = l ∧ i < es1.length + es2.length + 1 ∨ i = i' + 1 ∧ c = r ∧ es2 = []) :
    Refilled d (.node (es1 ++ s :: es2) (cs1 ++ l :: r :: cs2) m false) i c
      (refreshNodeMaxEnd (.node (es1 ++ es2) (cs1 ++ c' :: cs2) m false)) i' c' where
  balanced := by
    have := h.entries_le
    simp only [entries_node, List.length_append, List.length_cons] at this
    exact .of_children (forall_children_single hcs ⟨hc, by omega⟩) (by simp; omega)
      (by simp; omega)
  collect := by
    rw [collect_refresh, collect_around h2 h3, collect_around_pair h2 h3, hcol]
  size := by simp; omega
  child := by simpa using getChild_eq hi'
  index_le := by simp; omega
  two_le := by omega
  subset := by
    rw [hcol]
    rcases hi with ⟨-, rfl, -⟩ | ⟨-, rfl, -⟩ <;> simp
  first := by omega
  last := by
    rcases hi with ⟨rfl, -, h⟩ | ⟨rfl, -, rfl⟩
    · simp; omega
    · simp [h2, hi']

theorem refillChild_spec (h : Balanced (d + 1) n) (hpos : 1 ≤ n.entries.length)
    (hi : i ≤ n.entries.length) (hc : (n : Node α).children[i]? = some c) :
    ∃ n' i' c', n.refillChild i = some (n', i') ∧ Refilled d n i c n' i' c' := by
  have hok : ChildOk d c := by
    obtain ⟨es1, es2, cs1, x, cs2, m, rfl, h1, h2, h3, hcs⟩ := h.branch_inv hi
    obtain rfl : x = c := by simpa [getChild_eq h2] using hc
    exact hcs x (by simp)
  by_cases hsize : c.entries.length = 1
  · by_cases hprev : 0 < i ∧ n.canLend (i - 1) = true
    · -- the left neighbour can lend
      obtain ⟨i, rfl⟩ : ∃ j, i = j + 1 := ⟨i - 1, by omega⟩
      obtain ⟨es1, s, es2, cs1, l, r, cs2, m, rfl, h1, h2, h3, hcs, hl, hr⟩ := h.pair_inv hi
      obtain rfl : r = c := by simpa [getChild_succ_eq h2] using hc
      have h2l : 2 ≤ l.entries.length := by
        simpa [canLend, getChild_eq h2, minimumDegree] using hprev.2
      obtain ⟨l', p, r', hl', hr', hll, hrl, hcol, hsub, heq⟩ :=
        borrowFromPrevious_spec (m := m) (f := false) (s := s) (y := es2) (z := cs2) hl.1 hr.1
          h2l (by omega) h1 h2
      refine ⟨_, i + 1, r', ?_, .of_pair h (h1.trans h2.symm) h3 hcs ⟨hl', by omega⟩
        ⟨hr', by omega⟩ hcol (.inr ⟨by omega, rfl⟩) (by omega) hsub⟩
      simp [refillChild_eq hc hsize, show canLend _ i = true from hprev.2, heq]
    · by_cases hi' : i < n.entries.length
      · obtain ⟨es1, s, es2, cs1, l, r, cs2, m, rfl, h1, h2, h3, hcs, hl, hr⟩ := h.pair_inv hi'
        obtain rfl : l = c := by simpa [getChild_eq h2] using hc
        by_cases hnext : 2 ≤ r.entries.length
        · -- the right neighbour can lend
          have hlend : (node (es1 ++ s :: es2) (cs1 ++ l :: r :: cs2) m false).canLend (i + 1) = true := by
            simpa [canLend, getChild_succ_eq h2, minimumDegree] using hnext
          obtain ⟨l', p, r', hl', hr', hll, hrl, hcol, hsub, heq⟩ :=
            borrowFromNext_spec (m := m) (f := false) (s := s) (y := es2) (z := cs2) hl.1
              hr.1 (by omega) hnext h1 h2
          refine ⟨_, i, l', ?_, .of_pair h (h1.trans h2.symm) h3 hcs ⟨hl', by omega⟩
            ⟨hr', by omega⟩ hcol (.inl ⟨by omega, rfl⟩) (by omega) hsub⟩
          rw [refillChild_eq hc hsize, if_neg (by simpa using hprev), if_pos (by simp [hlend]; omega), heq]
          rfl
        · have hlend : (node (es1 ++ s :: es2) (cs1 ++ l :: r :: cs2) m false).canLend (i + 1) = false := by
            simpa [canLend, getChild_succ_eq h2, minimumDegree] using hnext
          obtain ⟨c', hc', h3c, hcol, heq⟩ := mergeChildren_spec (m := m) (f := false) (s := s)
            (y := es2) (z := cs2) hl.1 hr.1 hsize (by have := hr.2; omega) h1 h2
          refine ⟨_, i, c', ?_, .of_merge h (h1.trans h2.symm) h3 hcs hc' h3c hcol h2
            (.inl ⟨rfl, rfl, by omega⟩)⟩
          rw [refillChild_eq hc hsize, if_neg (by simpa using hprev), if_neg (by simp [hlend]),
            if_pos hi', heq]
          rfl
      · -- the last child merges into its left neighbour
        obtain ⟨i, rfl⟩ : ∃ j, i = j + 1 := ⟨i - 1, by omega⟩
        obtain ⟨es1, s, es2, cs1, l, r, cs2, m, rfl, h1, h2, h3, hcs, hl, hr⟩ := h.pair_inv hi
        obtain rfl : r = c := by simpa [getChild_succ_eq h2] using hc
        have hlend : (node (es1 ++ s :: es2) (cs1 ++ l :: r :: cs2) m false).canLend i = false := by
          simpa using hprev
        have h1l : ¬2 ≤ l.entries.length := by
          simpa [canLend, getChild_eq h2, minimumDegree] using hlend
        obtain ⟨c', hc', h3c, hcol, heq⟩ := mergeChildren_spec (m := m) (f := false) (s := s)
          (y := es2) (z := cs2) hl.1 hr.1 (by have := hl.2; omega) hsize h1 h2
        have hes : es2 = [] := by
          simp only [entries_node, List.length_append, List.length_cons] at hi hi'
          exact List.eq_nil_of_length_eq_zero (by omega)
        refine ⟨_, i, c', ?_, .of_merge h (h1.trans h2.symm) h3 hcs hc' h3c hcol h2
          (.inr ⟨rfl, rfl, hes⟩)⟩
        rw [refillChild_eq hc hsize, if_neg (by simpa using hprev),
          if_neg (by rw [Bool.and_eq_true, decide_eq_true_eq]; exact fun h => hi' h.1), if_neg hi',
            if_neg (by omega), Nat.add_sub_cancel, heq]
        rfl
  · refine ⟨n, i, c, ?_, h, rfl, by omega, hc, hi, ?_, List.Subset.refl _, id, id⟩
    · simp [refillChild, hc, minimumDegree, hsize]
    · have := hok.2
      omega

end Dmn.IntervalBTree
