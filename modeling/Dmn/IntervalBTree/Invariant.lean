import Dmn.IntervalBTree.Erase
import Dmn.IntervalBTree.Tree

/-!
# The representation invariant

`Wellformed`: the shape of the B-tree, the order and the count of its entries
and the freshness of its next ordinal. Every public mutation returns and keeps
it; what a mutation does to the listing is said once, here, and read again by
the refinement and by the overlay states.
-/

namespace Dmn.IntervalBTree

open Lib

variable {α : Type}

-- ---------------------------------------------------------------------------
-- The order of the entries
-- ---------------------------------------------------------------------------

/-- The comparator of ranges, if there is one, is a strict weak ordering. -/
def WeakComparator (comparator : Option (Range → Range → Bool)) : Prop :=
  ∀ less, comparator = some less → StrictWeakOrder less

theorem weakComparator_default : WeakComparator (some defaultRangeLess) := fun _ h =>
  Option.some.inj h ▸ defaultRangeLess_strictTotal.strictWeakOrder

/-- By the comparator, then by the endpoints, then by insertion. -/
def canonicalLess (comparator : Option (Range → Range → Bool)) : Entry α → Entry α → Bool :=
  thenBy (fun a b => (comparator.getD fun _ _ => false) a.range b.range)
    (thenBy (fun a b => defaultRangeLess a.range b.range) fun a b => a.ordinal < b.ordinal)

theorem ordinal_strictTotal :
    StrictTotalOn (fun a b : Entry α => decide (a.ordinal < b.ordinal)) Entry.ordinal where
  irrefl a := by simp
  trans h h' := by simp only [decide_eq_true_eq] at *; omega
  connected h := by simp only [decide_eq_true_eq]; omega

theorem WeakComparator.getD (h : WeakComparator comparator) :
    StrictWeakOrder (comparator.getD fun _ _ => false) := by
  cases comparator with
  | none => exact .const_false
  | some less => exact h less rfl

theorem canonicalLess_strictTotal (h : WeakComparator comparator) :
    StrictTotalOn (canonicalLess (α := α) comparator) Entry.ordinal :=
  .thenBy (h.getD.comap Entry.range)
    (.thenBy (defaultRangeLess_strictTotal.strictWeakOrder.comap Entry.range) ordinal_strictTotal)

/-- `entryLess` compares equal ranges by ordinal first, which changes nothing. -/
theorem entryLess_eq (h : WeakComparator comparator) :
    entryLess (α := α) comparator = canonicalLess comparator := by
  funext a b
  by_cases hr : a.range = b.range
  · simp [entryLess, canonicalLess, thenBy, hr, h.getD.irrefl, defaultRangeLess_strictTotal.irrefl]
  · have hne : ¬(a.range.start = b.range.start ∧ a.range.end = b.range.end) := Range.eq_iff.not.mp hr
    have hdefault : thenBy (fun a b : Entry α => defaultRangeLess a.range b.range)
        (fun a b => a.ordinal < b.ordinal) a b = defaultRangeLess a.range b.range := by
      cases hab : defaultRangeLess a.range b.range
      · have hba := (defaultRangeLess_strictTotal.connected hr).resolve_left (by simp [hab])
        simp [thenBy, hab, hba]
      · simp [thenBy, hab]
    rw [canonicalLess, thenBy, hdefault]
    cases comparator with
    | none => simp [entryLess, hne]
    | some less => rw [entryLess, if_neg hne]; rfl

theorem entryLess_sameRange {a b : Entry α}
    (h : a.range.start = b.range.start ∧ a.range.end = b.range.end) :
    entryLess comparator a b = decide (a.ordinal < b.ordinal) := by
  cases comparator <;> simp [entryLess, h]

theorem entryLess_strictTotal (h : WeakComparator comparator) :
    StrictTotalOn (entryLess (α := α) comparator) Entry.ordinal :=
  entryLess_eq (α := α) h ▸ canonicalLess_strictTotal h

-- ---------------------------------------------------------------------------
-- Rewriting entries in place
-- ---------------------------------------------------------------------------

/-- The parts of an entry that no operation rewrites. -/
structure Entry.SameItem (e e' : Entry α) : Prop where
  range : e.range = e'.range
  value : e.value = e'.value
  ordinal : e.ordinal = e'.ordinal

theorem Entry.SameItem.refl (e : Entry α) : e.SameItem e := ⟨rfl, rfl, rfl⟩

theorem Entry.SameItem.trans {a b c : Entry α} (h : a.SameItem b) (h' : b.SameItem c) :
    a.SameItem c :=
  ⟨h.range.trans h'.range, h.value.trans h'.value, h.ordinal.trans h'.ordinal⟩

theorem Entry.SameItem.entryLess {a a' b b' : Entry α} (ha : a'.SameItem a) (hb : b'.SameItem b) :
    entryLess comparator a' b' = entryLess comparator a b := by
  simp only [IntervalBTree.entryLess, ha.range, ha.ordinal, hb.range, hb.ordinal]

namespace Node

@[simp] theorem mapChildren_eq_map (f : Entry α → Entry α) (cs : List (Node α)) :
    mapChildren f cs = cs.map (mapEntries f) := by
  induction cs with
  | nil => rfl
  | cons c cs ih => simp [mapChildren, ih]

@[simp] theorem entries_mapEntries (f : Entry α → Entry α) (n : Node α) :
    (n.mapEntries f).entries = n.entries.map f := by
  cases n
  simp [mapEntries]

theorem collect_mapEntries (f : Entry α → Entry α) : ∀ n : Node α,
    (n.mapEntries f).collectEntriesInOrder = n.collectEntriesInOrder.map f
  | .node es cs m leaf => by
    have ih : ∀ c ∈ cs, (c.mapEntries f).collectEntriesInOrder = c.collectEntriesInOrder.map f :=
      fun c hc => collect_mapEntries f c
    cases leaf with
    | true => simp [mapEntries]
    | false =>
      have hcs : (cs.map (mapEntries f)).map collectEntriesInOrder =
          (cs.map collectEntriesInOrder).map (List.map f) := by
        simpa using ih
      rw [mapEntries, collect_branch, mapChildren_eq_map, hcs, collect_branch, map_weave]
termination_by n => sizeOf n
decreasing_by
  have := List.sizeOf_lt_of_mem hc
  simp only [node.sizeOf_spec]
  omega

theorem mapEntries_mapEntries (f g : Entry α → Entry α) : ∀ n : Node α,
    (n.mapEntries f).mapEntries g = n.mapEntries (g ∘ f)
  | .node es cs m leaf => by
    have ih : ∀ c ∈ cs, (c.mapEntries f).mapEntries g = c.mapEntries (g ∘ f) :=
      fun c hc => mapEntries_mapEntries f g c
    simpa [mapEntries] using ih
termination_by n => sizeOf n
decreasing_by
  have := List.sizeOf_lt_of_mem hc
  simp only [node.sizeOf_spec]
  omega

theorem mapEntries_id : ∀ n : Node α, n.mapEntries id = n
  | .node es cs m leaf => by
    have ih : ∀ c ∈ cs, c.mapEntries id = c := fun c hc => mapEntries_id c
    have hcs : cs.map (mapEntries id) = cs := (List.map_congr_left ih).trans (List.map_id' cs)
    simp [mapEntries, hcs]
termination_by n => sizeOf n
decreasing_by
  have := List.sizeOf_lt_of_mem hc
  simp only [node.sizeOf_spec]
  omega

end Node

theorem maxEnd_map {f : Entry α → Entry α} (hf : ∀ e, (f e).SameItem e) (es : List (Entry α)) :
    maxEnd (es.map f) = maxEnd es := by
  induction es with
  | nil => rfl
  | cons e es ih => simp [ih, (hf e).range]

theorem Balanced.mapEntries {f : Entry α → Entry α} (hf : ∀ e, (f e).SameItem e)
    (h : Balanced d n) : Balanced d (n.mapEntries f) := by
  induction h with
  | @leaf es m h3 hm =>
    exact .leaf (by simpa using h3) (by rw [hm, maxEnd_map hf])
  | @branch d es cs m hlen hcs hne h3 hm ih =>
    simp only [Node.mapEntries, Node.mapChildren_eq_map]
    refine .branch (by simpa using hlen) ?_ ?_ (by simpa using h3) ?_
    · simpa using ih
    · simpa using hne
    · rw [hm, List.map_map, ← maxEnd_map hf, map_weave, List.map_map]
      congr 2
      exact List.map_congr_left fun c _ => (Node.collect_mapEntries f c).symm

namespace Tree

def mapEntries (f : Entry α → Entry α) (t : Tree α) : Tree α :=
  { t with root := t.root.map (·.mapEntries f) }

@[simp] theorem entries_mapEntries (f : Entry α → Entry α) (t : Tree α) :
    (t.mapEntries f).entries = t.entries.map f := by
  cases h : t.root <;> simp [entries, mapEntries, h, Node.collect_mapEntries]

@[simp] theorem size_mapEntries (f : Entry α → Entry α) (t : Tree α) :
    (t.mapEntries f).size = t.size := rfl
@[simp] theorem nextOrdinal_mapEntries (f : Entry α → Entry α) (t : Tree α) :
    (t.mapEntries f).nextOrdinal = t.nextOrdinal := rfl

theorem mapEntries_mapEntries (f g : Entry α → Entry α) (t : Tree α) :
    (t.mapEntries f).mapEntries g = t.mapEntries (g ∘ f) := by
  cases h : t.root <;> simp [mapEntries, h, Node.mapEntries_mapEntries]

theorem mapEntries_id (t : Tree α) : t.mapEntries id = t := by
  rcases t with ⟨_, _, _, root, _, _, _, _⟩
  cases root <;> simp [mapEntries, Node.mapEntries_id]

-- ---------------------------------------------------------------------------
-- The invariant
-- ---------------------------------------------------------------------------

/-- An absent root, or a balanced one that holds an entry. -/
def Shaped (t : Tree α) : Prop :=
  ∀ root, t.root = some root → (∃ d, Balanced d root) ∧ 1 ≤ root.entries.length

structure Wellformed (t : Tree α) : Prop where
  shaped : t.Shaped
  sorted : t.entries.Pairwise (t.less · ·)
  size_eq : t.size = t.entries.length
  distinct : (t.entries.map Entry.ordinal).Nodup
  below : ∀ e ∈ t.entries, e.ordinal < t.nextOrdinal

/-- What only the constructor and the registrations change. -/
structure SameSettings (t t' : Tree α) : Prop where
  comparator : t'.canonicalComparator = t.canonicalComparator
  priority : t'.priorityEvaluator = t.priorityEvaluator
  suppress : t'.suppressCallbacks = t.suppressCallbacks

theorem SameSettings.trans {t t' t'' : Tree α} (h : t.SameSettings t') (h' : t'.SameSettings t'') :
    t.SameSettings t'' :=
  ⟨h'.comparator.trans h.comparator, h'.priority.trans h.priority, h'.suppress.trans h.suppress⟩

theorem SameSettings.refl (t : Tree α) : t.SameSettings t := ⟨rfl, rfl, rfl⟩

theorem SameSettings.weakComparator {t t' : Tree α} (h : t.SameSettings t')
    (hcmp : WeakComparator t.canonicalComparator) : WeakComparator t'.canonicalComparator := by
  rwa [h.comparator]

theorem Wellformed.mapEntries {f : Entry α → Entry α} {t : Tree α} (h : t.Wellformed)
    (hf : ∀ e, (f e).SameItem e) : (t.mapEntries f).Wellformed where
  shaped := by
    intro root hroot
    obtain ⟨n, hn, rfl⟩ := Option.map_eq_some_iff.mp hroot
    obtain ⟨⟨d, hb⟩, hpos⟩ := h.shaped n hn
    exact ⟨⟨d, hb.mapEntries hf⟩, by simpa using hpos⟩
  sorted := by
    rw [entries_mapEntries, List.pairwise_map]
    exact h.sorted.imp fun hab => by
      rwa [less, (hf _).entryLess (hf _)]
  size_eq := by simpa using h.size_eq
  distinct := by
    have : Entry.ordinal ∘ f = Entry.ordinal := funext fun e => (hf e).ordinal
    simpa [this] using h.distinct
  below := by
    intro e he
    rw [entries_mapEntries] at he
    obtain ⟨e', he', rfl⟩ := List.mem_map.mp he
    rw [(hf e').ordinal]
    exact h.below e' he'

end Tree
end Dmn.IntervalBTree
