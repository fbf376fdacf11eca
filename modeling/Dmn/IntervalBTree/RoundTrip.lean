import Dmn.IntervalBTree.Overlay
import Dmn.IntervalBTree.Refinement
import Dmn.IntervalBTree.Topology
import Dmn.Lib.StableSort

/-!
# Enumerating and reconstructing

An enumeration is sorted by ranges, by the duplicate order within a range, and by insertion where
that is a tie. A reconstruction numbers its entries in the order they come, so the numbers of the
new tree break exactly the ties that the numbers of the old one broke, and the overlay states do not
look at numbers at all.
-/

namespace Dmn.IntervalBTree

open Lib

variable {α : Type} {comparator : Option (Range → Range → Bool)}
  {evaluator duplicateOrder : Option (α → α → Bool)}

-- ---------------------------------------------------------------------------
-- The order of an enumeration
-- ---------------------------------------------------------------------------

/-- The duplicate order, if there is one, is a strict weak ordering. -/
def WeakDuplicates (duplicateOrder : Option (α → α → Bool)) : Prop :=
  ∀ less, duplicateOrder = some less → StrictWeakOrder less

/-- Ranges by the comparator, then by their endpoints. -/
def rangeLess (comparator : Option (Range → Range → Bool)) : Range → Range → Bool :=
  thenBy (comparator.getD fun _ _ => false) defaultRangeLess

/-- What an enumeration orders, ties of the duplicate order apart. -/
def keyLess (comparator : Option (Range → Range → Bool)) (duplicateOrder : Option (α → α → Bool)) :
    Range × α → Range × α → Bool :=
  thenBy (fun a b => rangeLess comparator a.1 b.1)
    (fun a b => (duplicateOrder.getD fun _ _ => false) a.2 b.2)

def Item.pair (i : Item α) : Range × α := (i.range, i.value)

/-- The whole order: no two items of different numbers are a tie. -/
def sequenceLess (comparator : Option (Range → Range → Bool))
    (duplicateOrder : Option (α → α → Bool)) : Item α → Item α → Bool :=
  thenBy (fun a b => keyLess comparator duplicateOrder a.pair b.pair) fun a b => a.ordinal < b.ordinal

theorem rangeLess_strictTotal (h : WeakComparator comparator) :
    StrictTotalOn (rangeLess comparator) id :=
  .thenBy h.getD defaultRangeLess_strictTotal

theorem WeakDuplicates.getD (h : WeakDuplicates duplicateOrder) :
    StrictWeakOrder (duplicateOrder.getD fun _ _ => false) := by
  cases duplicateOrder with
  | none => exact .const_false
  | some less => exact h less rfl

theorem keyLess_weak (hcmp : WeakComparator comparator) (hd : WeakDuplicates duplicateOrder) :
    StrictWeakOrder (keyLess comparator duplicateOrder) :=
  .thenBy ((rangeLess_strictTotal hcmp).strictWeakOrder.comap Prod.fst) (hd.getD.comap Prod.snd)

theorem ordinalItem_strictTotal :
    StrictTotalOn (fun a b : Item α => decide (a.ordinal < b.ordinal)) Item.ordinal where
  irrefl a := by simp
  trans h h' := by simp only [decide_eq_true_eq] at *; omega
  connected h := by simp only [decide_eq_true_eq]; omega

theorem sequenceLess_strictTotal (hcmp : WeakComparator comparator)
    (hd : WeakDuplicates duplicateOrder) :
    StrictTotalOn (sequenceLess comparator duplicateOrder) Item.ordinal :=
  .thenBy ((keyLess_weak hcmp hd).comap Item.pair) ordinalItem_strictTotal

/-- The ties of the ranges are the equal ranges. -/
theorem rangeLess_tie (hcmp : WeakComparator comparator) (hab : rangeLess comparator a b = false)
    (hba : rangeLess comparator b a = false) : a = b := by
  by_contra hne
  have := (rangeLess_strictTotal hcmp).connected hne
  simp [hab, hba] at this

theorem itemLess_eq (comparator : Option (Range → Range → Bool)) (a b : Item α) :
    itemLess comparator a b = thenBy (fun a b : Item α => rangeLess comparator a.range b.range)
      (fun a b => decide (a.ordinal < b.ordinal)) a b := by
  rw [itemLess, ← thenBy_assoc]
  rfl

theorem itemLess_sameRange (hcmp : WeakComparator comparator) {a b : Item α} (hr : a.range = b.range) :
    itemLess comparator a b = decide (a.ordinal < b.ordinal) := by
  rw [itemLess_eq, thenBy, hr, (rangeLess_strictTotal hcmp).irrefl]
  simp

theorem itemLess_otherRange (hcmp : WeakComparator comparator) {a b : Item α} (hr : a.range ≠ b.range) :
    itemLess comparator a b = rangeLess comparator a.range b.range := by
  rw [itemLess_eq, thenBy]
  rcases (rangeLess_strictTotal hcmp).connected hr with h | h
  · simp [h]
  · simp [h, (rangeLess_strictTotal hcmp).asymm h]

theorem keyLess_sameRange (hcmp : WeakComparator comparator) {a b : Range × α} (hr : a.1 = b.1) :
    keyLess comparator duplicateOrder a b = (duplicateOrder.getD fun _ _ => false) a.2 b.2 := by
  rw [keyLess, thenBy, hr, (rangeLess_strictTotal hcmp).irrefl]
  simp

theorem keyLess_otherRange (hcmp : WeakComparator comparator) {a b : Range × α} (hr : a.1 ≠ b.1) :
    keyLess comparator duplicateOrder a b = rangeLess comparator a.1 b.1 := by
  rw [keyLess, thenBy]
  rcases (rangeLess_strictTotal hcmp).connected hr with h | h
  · simp [h]
  · simp [h, (rangeLess_strictTotal hcmp).asymm h]

namespace Reference

theorem enumerationLess_some (hcmp : WeakComparator comparator) (less : α → α → Bool) (a b : Item α) :
    enumerationLess comparator (some less) a b = keyLess comparator (some less) a.pair b.pair := by
  by_cases hr : a.range = b.range
  · rw [keyLess_sameRange hcmp (show a.pair.1 = b.pair.1 from hr)]
    simp [enumerationLess, hr, Item.pair]
  · rw [keyLess_otherRange hcmp (show a.pair.1 ≠ b.pair.1 from hr)]
    simp [enumerationLess, hr, Item.pair, itemLess_otherRange hcmp hr]

theorem enumerationLess_none (hcmp : WeakComparator comparator) (a b : Item α) :
    enumerationLess comparator none a b = itemLess comparator a b := by
  by_cases hr : a.range = b.range
  · simp [enumerationLess, hr, itemLess_sameRange hcmp hr]
  · simp [enumerationLess, hr]

/-- What an enumeration lists, before the numbers are dropped. -/
def ordered (comparator : Option (Range → Range → Bool)) (duplicateOrder : Option (α → α → Bool))
    (r : Reference α) : List (Item α) :=
  r.items.insertionSort fun a b => !enumerationLess comparator duplicateOrder b a

theorem ordered_perm (r : Reference α) : (r.ordered comparator duplicateOrder).Perm r.items :=
  List.perm_insertionSort _ _

theorem enumerate_eq (r : Reference α) :
    r.enumerate comparator duplicateOrder = (r.ordered comparator duplicateOrder).map Item.pair := rfl

theorem ordered_sorted (hcmp : WeakComparator comparator) (hd : WeakDuplicates duplicateOrder)
    {r : Reference α} (hs : r.items.Pairwise (itemLess comparator · ·)) :
    (r.ordered comparator duplicateOrder).Pairwise (sequenceLess comparator duplicateOrder · ·) := by
  cases duplicateOrder with
  | none =>
    -- the listing is in this order already
    have hle : r.items.Pairwise fun a b => (!enumerationLess comparator none b a) = true :=
      hs.imp fun hab => by
        rw [enumerationLess_none hcmp, (itemLess_strictTotal hcmp).asymm hab]
        rfl
    rw [ordered, hle.insertionSort_eq]
    refine hs.imp fun {a b} hab => ?_
    rw [itemLess_eq, thenBy_iff] at hab
    have hkey : ∀ a b : Item α, keyLess comparator none a.pair b.pair =
        rangeLess comparator a.range b.range := fun a b => by
      cases h : rangeLess comparator a.range b.range <;>
        cases h' : rangeLess comparator b.range a.range <;> simp [keyLess, thenBy, Item.pair, h, h']
    rw [sequenceLess, thenBy_iff, hkey, hkey]
    exact hab
  | some less =>
    simp only [ordered, enumerationLess_some hcmp]
    refine insertionSort_stable ((keyLess_weak hcmp hd).comap Item.pair) (hs.imp fun {a b} hab h1 h2 => ?_)
    obtain ⟨⟨r1, r2⟩, -⟩ := thenBy_tie h1 h2
    rwa [itemLess_sameRange hcmp (rangeLess_tie hcmp r1 r2)] at hab

-- ---------------------------------------------------------------------------
-- Numbering in the order of a list
-- ---------------------------------------------------------------------------

/-- The entries as a reconstruction numbers them. -/
def numbered (start : Nat) (entries : List (Range × α)) : List (Item α) :=
  (entries.zipIdx start).map fun e => ⟨e.1.1, e.1.2, e.2⟩

theorem foldl_insert (comparator : Option (Range → Range → Bool)) (r : Reference α)
    (entries : List (Range × α)) :
    (entries.foldl (insert comparator) r).items.Perm (r.items ++ numbered r.nextOrdinal entries) ∧
      (entries.foldl (insert comparator) r).nextOrdinal = r.nextOrdinal + entries.length := by
  induction entries generalizing r with
  | nil => simp [numbered]
  | cons e entries ih =>
    obtain ⟨hperm, hnext⟩ := ih (r.insert comparator e)
    refine ⟨hperm.trans ?_, ?_⟩
    · refine ((List.perm_orderedInsert _ _ _).append_right _).trans ?_
      simp only [numbered, List.zipIdx_cons, List.map_cons]
      exact List.perm_middle.symm
    · rw [List.foldl_cons, hnext, List.length_cons]
      show r.nextOrdinal + 1 + entries.length = _
      omega

/-- Numbers in the order of an enumeration break the ties as the old ones did. -/
theorem numbered_sorted {s : List (Item α)}
    (hs : s.Pairwise (sequenceLess comparator duplicateOrder · ·)) :
    (numbered 0 (s.map Item.pair)).Pairwise (sequenceLess comparator duplicateOrder · ·) := by
  rw [List.pairwise_iff_getElem] at *
  intro i j hi hj hij
  have hlen : (numbered 0 (s.map Item.pair)).length = s.length := by simp [numbered]
  have hat : ∀ k (hk : k < (numbered 0 (s.map Item.pair)).length) (hk' : k < s.length),
      (numbered 0 (s.map Item.pair))[k] = ⟨s[k].range, s[k].value, k⟩ := by
    intro k hk hk'
    simp [numbered, Item.pair]
  have hold := hs i j (hlen ▸ hi) (hlen ▸ hj) hij
  rw [hat i hi (hlen ▸ hi), hat j hj (hlen ▸ hj)]
  rw [sequenceLess, thenBy_iff] at hold ⊢
  exact hold.imp_right fun h => ⟨h.1, by simpa using hij⟩

theorem numbered_pair (s : List (Range × α)) (start : Nat) :
    (numbered start s).map Item.pair = s := by
  rw [numbered, List.map_map]
  exact List.zipIdx_map_fst start s

/-- The enumeration of what was rebuilt from an enumeration is that enumeration. -/
theorem enumerate_rebuilt (hcmp : WeakComparator comparator) (hd : WeakDuplicates duplicateOrder)
    {r r' : Reference α} (hs : r.items.Pairwise (itemLess comparator · ·))
    (hs' : r'.items.Pairwise (itemLess comparator · ·))
    (hperm : r'.items.Perm (numbered 0 (r.enumerate comparator duplicateOrder))) :
    r'.ordered comparator duplicateOrder = numbered 0 (r.enumerate comparator duplicateOrder) := by
  refine List.Perm.eq_of_pairwise (fun a b _ _ hab hba => ?_) (ordered_sorted hcmp hd hs')
    (numbered_sorted (ordered_sorted hcmp hd hs)) ((ordered_perm r').trans hperm)
  have := (sequenceLess_strictTotal hcmp hd).asymm hab
  simp [hba] at this

-- ---------------------------------------------------------------------------
-- Overlay states of items
-- ---------------------------------------------------------------------------

/-- The other items that overlap the candidate, without their numbers. -/
def others (items : List (Item α)) (candidate : Item α) : List (Range × α) :=
  pairs (items.filter fun i => i.ordinal != candidate.ordinal && candidate.range.overlaps i.range)

def stateOf (evaluator : Option (α → α → Bool)) (entry : Range × α) (overlaps : List (Range × α)) :
    OverlayState where
  topology := classifyTopology entry.1 (overlaps.map Prod.fst)
  isTop := evaluator.all fun higher => !overlaps.any fun o => higher o.2 entry.2

theorem overlayState_item (evaluator : Option (α → α → Bool)) (l : List (Entry α)) (e : Entry α) :
    Tree.overlayState evaluator l e =
      stateOf evaluator e.item.pair (others (l.map Entry.item) e.item) := by
  have hothers : others (l.map Entry.item) e.item =
      (Tree.overlapsOf l e).map fun x => (x.range, x.value) := by
    rw [others, List.filter_map, pairs, List.map_map]
    rfl
  rw [hothers]
  cases evaluator <;>
    simp [Tree.overlayState, stateOf, Item.pair, Entry.item, List.map_map, List.any_map,
      Function.comp_def]

/-- The order of the overlaps plays no part. -/
theorem stateOf_perm (evaluator : Option (α → α → Bool)) (entry : Range × α)
    {overlaps overlaps' : List (Range × α)} (hperm : overlaps.Perm overlaps')
    (hover : Overlapping entry.1 (overlaps.map Prod.fst)) (hv : entry.1.isValid) :
    stateOf evaluator entry overlaps = stateOf evaluator entry overlaps' := by
  have hranges := hperm.map Prod.fst
  have hover' : Overlapping entry.1 (overlaps'.map Prod.fst) := fun o ho =>
    hover o (hranges.mem_iff.mpr ho)
  have htopology := ((classifyTopology_classifies hv hover).perm hranges).unique
    (classifyTopology_classifies hv hover')
  have hany : ∀ p : Range × α → Bool, overlaps.any p = overlaps'.any p := fun p => hperm.any_eq
  simp only [stateOf, htopology, hany]

theorem others_overlapping (items : List (Item α)) (i : Item α) :
    Overlapping i.range ((others items i).map Prod.fst) := by
  intro o ho
  simp only [others, pairs, List.map_map, List.mem_map, List.mem_filter, Bool.and_eq_true] at ho
  obtain ⟨x, ⟨-, -, hover⟩, rfl⟩ := ho
  exact hover

/-- A candidate that overlaps something is valid; without an overlap there is nothing to reorder. -/
theorem itemState_perm (evaluator : Option (α → α → Bool)) {items items' : List (Item α)}
    (hperm : items.Perm items') (i : Item α) :
    stateOf evaluator i.pair (others items i) = stateOf evaluator i.pair (others items' i) := by
  have hothers : (others items i).Perm (others items' i) := (hperm.filter _).map _
  cases hv : i.range.isValid with
  | true => exact stateOf_perm evaluator i.pair hothers (others_overlapping items i) hv
  | false =>
    have hnone : ∀ items : List (Item α), others items i = [] := fun items => by
      simp [others, pairs, Range.overlaps, hv]
    rw [hnone items, hnone items']

/-- Renumbering keeps the overlaps of every item, as long as the numbers are distinct. -/
theorem others_renumbered {γ : Type} {z : List γ} {f g : γ → Item α} {p : γ}
    (hf : (z.map fun p => (f p).ordinal).Nodup) (hg : (z.map fun p => (g p).ordinal).Nodup)
    (hpair : ∀ p ∈ z, (f p).pair = (g p).pair) (hp : p ∈ z) :
    others (z.map f) (f p) = others (z.map g) (g p) := by
  have hranges : ∀ q ∈ z, (f q).range = (g q).range := fun q hq => congrArg Prod.fst (hpair q hq)
  have hsame : ∀ q ∈ z, ((f q).ordinal != (f p).ordinal && (f p).range.overlaps (f q).range) =
      ((g q).ordinal != (g p).ordinal && (g p).range.overlaps (g q).range) := by
    intro q hq
    have hnumber : (f q).ordinal = (f p).ordinal ↔ (g q).ordinal = (g p).ordinal :=
      ⟨fun h => List.inj_on_of_nodup_map hf hq hp h ▸ rfl,
        fun h => List.inj_on_of_nodup_map hg hq hp h ▸ rfl⟩
    rw [hranges q hq, hranges p hp, Bool.eq_iff_iff]
    simp only [Bool.and_eq_true, bne_iff_ne, ne_eq, hnumber]
  simp only [others, pairs, List.filter_map, List.map_map, Function.comp_def]
  rw [List.filter_congr hsame]
  exact List.map_congr_left fun q hq => hpair q (List.mem_of_mem_filter hq)

/-- An item without its number, with its state. -/
def stated (evaluator : Option (α → α → Bool)) (items : List (Item α)) (i : Item α) :
    Range × α × OverlayState :=
  (i.range, i.value, stateOf evaluator i.pair (others items i))

theorem stated_perm (evaluator : Option (α → α → Bool)) {items items' : List (Item α)}
    (hperm : items.Perm items') :
    (items.map (stated evaluator items)).Perm (items'.map (stated evaluator items')) := by
  have hsame : stated evaluator items = stated evaluator items' := funext fun i => by
    rw [stated, itemState_perm evaluator hperm, stated]
  rw [hsame]
  exact hperm.map _

theorem stated_numbered (evaluator : Option (α → α → Bool)) {s : List (Item α)}
    (hd : (s.map Item.ordinal).Nodup) : (numbered 0 (s.map Item.pair)).map
      (stated evaluator (numbered 0 (s.map Item.pair))) = s.map (stated evaluator s) := by
  have hnew : numbered 0 (s.map Item.pair) =
      s.zipIdx.map fun p => (⟨p.1.range, p.1.value, p.2⟩ : Item α) := by
    rw [numbered, List.zipIdx_map, List.map_map]
    rfl
  have hold : s.zipIdx.map Prod.fst = s := List.zipIdx_map_fst 0 s
  have holdNodup : (s.zipIdx.map fun p => p.1.ordinal).Nodup := by
    have hmap : (s.zipIdx.map fun p => p.1.ordinal) = s.map Item.ordinal := by
      conv_rhs => rw [← hold, List.map_map]
      rfl
    rwa [hmap]
  have hnewNodup : (s.zipIdx.map fun p => p.2).Nodup := by
    rw [List.zipIdx_map_snd]
    exact List.nodup_range'
  rw [hnew, List.map_map]
  conv_rhs => rw [← hold, List.map_map]
  refine List.map_congr_left fun p hp => ?_
  have hothers := others_renumbered (f := Prod.fst)
    (g := fun p : Item α × Nat => (⟨p.1.range, p.1.value, p.2⟩ : Item α)) holdNodup hnewNodup
    (fun _ _ => rfl) hp
  simp only [Function.comp_apply, stated, hothers, Item.pair]

-- ---------------------------------------------------------------------------
-- Queries
-- ---------------------------------------------------------------------------

theorem overlapping_pairs (r : Reference α) (range : Range) :
    pairs (r.overlapping range) = (r.items.map Item.pair).filter (·.1.overlaps range) := by
  rw [overlapping, pairs, List.filter_map]
  rfl

theorem topology_eq (r : Reference α) (evaluator : Option (α → α → Bool)) (range : Range) (value : α) :
    r.topology evaluator range value =
      { status := (stateOf evaluator (range, value) (pairs (r.overlapping range))).topology
        isTop := (stateOf evaluator (range, value) (pairs (r.overlapping range))).isTop
        overlappingEntries := pairs (r.overlapping range) } := by
  simp [topology, stateOf, pairs, List.any_map, Function.comp_def]

/-- Sorted items of the same pairs list the same ranges. -/
theorem ranges_eq (hcmp : WeakComparator comparator) {r r' : Reference α}
    (hs : r.items.Pairwise (itemLess comparator · ·))
    (hs' : r'.items.Pairwise (itemLess comparator · ·))
    (hperm : (r'.items.map Item.pair).Perm (r.items.map Item.pair)) :
    r'.items.map Item.range = r.items.map Item.range := by
  have hle : ∀ r : Reference α, r.items.Pairwise (itemLess comparator · ·) →
      (r.items.map Item.range).Pairwise fun a b => rangeLess comparator b a = false := fun r hs => by
    refine List.pairwise_map.mpr (hs.imp fun {a b} hab => ?_)
    rw [itemLess_eq, thenBy_iff] at hab
    exact hab.elim (rangeLess_strictTotal hcmp).asymm And.left
  have hranges : (r'.items.map Item.range).Perm (r.items.map Item.range) := by
    simpa [List.map_map, Function.comp_def, Item.pair] using hperm.map Prod.fst
  exact hranges.eq_of_pairwise (fun a b _ _ hab hba => rangeLess_tie hcmp hba hab) (hle r' hs')
    (hle r hs)

/-- Every item has a valid range. -/
def Valid (r : Reference α) : Prop := ∀ i ∈ r.items, i.range.isValid = true

theorem Valid.insert {r : Reference α} (h : r.Valid) {item : Range × α} (hv : item.1.isValid = true) :
    (r.insert comparator item).Valid := by
  intro i hi
  rcases (List.mem_orderedInsert _).mp hi with rfl | hi
  · exact hv
  · exact h i hi

theorem Valid.foldl {items : List (Range × α)} {r : Reference α} (h : r.Valid)
    (hv : ∀ e ∈ items, e.1.isValid = true) : (items.foldl (Reference.insert comparator) r).Valid := by
  induction items generalizing r with
  | nil => exact h
  | cons e items ih =>
    obtain ⟨he, hv⟩ := List.forall_mem_cons.mp hv
    exact ih (h.insert he) hv

theorem Valid.apply {r : Reference α} (h : r.Valid) (op : Op α) :
    (r.apply comparator evaluator op).1.Valid := by
  cases op with
  | add range value cb =>
    simp only [Reference.apply]
    split
    · rename_i hv
      exact h.insert hv
    · exact h
  | addWithTopology range value cb =>
    simp only [Reference.apply]
    split
    · rename_i hv
      exact h.insert hv
    · exact h
  | removeByRange range matcher =>
    simp only [Reference.apply]
    split
    · exact fun i hi => h i (List.eraseP_subset hi)
    · exact h
  | removeAllOverlapping range =>
    simp only [Reference.apply]
    split
    · exact fun i hi => h i (List.mem_of_mem_filter hi)
    · exact h
  | clear => exact fun i hi => by cases hi
  | enumerateCanonicalMove order => exact fun i hi => by cases hi
  | reconstructFromCanonical items =>
    simp only [Reference.apply]
    split
    · rename_i hv
      exact Valid.foldl (fun i hi => by cases hi) (by simpa using hv)
    · exact h
  | registerStateCallback accepts context callback => exact h
  | unregisterStateCallback registration => exact h

theorem Valid.run {r : Reference α} (h : r.Valid) (ops : List (Op α)) :
    (r.run comparator evaluator ops).Valid := by
  induction ops generalizing r with
  | nil => exact h
  | cons op ops ih => exact ih (h.apply op)

end Reference

-- ---------------------------------------------------------------------------
-- The tree
-- ---------------------------------------------------------------------------

namespace Tree

variable {t u : Tree α} {r r' : Reference α}

theorem Refines.sorted (h : t.Refines r) (hcmp : WeakComparator t.canonicalComparator)
    (hwf : t.Wellformed) : r.items.Pairwise (itemLess t.canonicalComparator · ·) := by
  rw [← h.items, List.pairwise_map]
  refine hwf.sorted.imp fun hab => ?_
  rwa [itemLess_item, ← entryLess_eq hcmp]

theorem Refines.distinct (h : t.Refines r) (hwf : t.Wellformed) :
    (r.items.map Item.ordinal).Nodup := by
  rw [← h.items, List.map_map]
  exact hwf.distinct

theorem Refines.stated (h : t.Refines r) (hc : t.Current) :
    t.entries.map (fun e => (e.range, e.value, e.state)) =
      r.items.map (Reference.stated t.priorityEvaluator r.items) := by
  rw [← h.items, List.map_map]
  refine List.map_congr_left fun e he => ?_
  rw [hc e he, Reference.overlayState_item]
  rfl

/-- The callbacks that the insertions of a reconstruction make. -/
def rebuildCalls (t : Tree α) : Tree α → List (Range × α) → List (StateChange α)
  | _, [] => []
  | rebuilt, (range, value) :: rest =>
    let (onStateChange, callbackRegistrationId) := t.callbackForReconstruction value
    match rebuilt.insertEntry
        { range, value, ordinal := rebuilt.nextOrdinal, onStateChange, callbackRegistrationId } with
    | some outcome => outcome.calls ++ rebuildCalls t outcome.tree rest
    | none => []

theorem updateStates_suppress (t : Tree α) (olds : List (Entry α × OverlayState)) :
    (t.updateStates olds).1.suppressCallbacks = t.suppressCallbacks := by
  induction olds generalizing t with
  | nil => rfl
  | cons p rest ih => exact ih _

theorem updateStatesAndNotify_suppressed {β : Type} (hs : t.suppressCallbacks = true)
    (olds : List (Entry α × OverlayState)) (value : β) :
    (t.updateStatesAndNotify olds value).calls = [] ∧
      (t.updateStatesAndNotify olds value).tree.suppressCallbacks = true := by
  simp [updateStatesAndNotify, hs, updateStates_suppress]

theorem insertEntry_suppressed (hs : t.suppressCallbacks = true) (ho : t.insertEntry e = some o) :
    o.calls = [] ∧ o.tree.suppressCallbacks = true := by
  unfold insertEntry at ho
  split at ho
  · cases ho
    exact ⟨rfl, hs⟩
  · obtain ⟨n, hn, ho⟩ := Option.bind_eq_some_iff.mp ho
    cases ho
    refine updateStatesAndNotify_suppressed ?_ _ true
    exact hs

theorem rebuildCalls_nil (hs : u.suppressCallbacks = true) (items : List (Range × α)) :
    t.rebuildCalls u items = [] := by
  induction items generalizing u with
  | nil => rfl
  | cons item rest ih =>
    obtain ⟨range, value⟩ := item
    rw [rebuildCalls]
    simp only
    split
    · rename_i o ho
      obtain ⟨hcalls, hs'⟩ := insertEntry_suppressed hs ho
      rw [hcalls, ih hs', List.nil_append]
    · rfl

/-- Every entry carries the first matching registration of a tree. -/
def Registered (u t : Tree α) : Prop := ∀ e ∈ t.entries,
  e.onStateChange = (u.callbackForReconstruction e.value).1 ∧
    e.callbackRegistrationId = (u.callbackForReconstruction e.value).2

theorem reconstructFromCanonical_registered (hcmp : WeakComparator u.canonicalComparator)
    {items : List (Range × α)} (hv : ∀ e ∈ items, e.1.isValid = true) :
    ∃ o, u.reconstructFromCanonical items = some o ∧ o.result = .ok () ∧ o.calls = [] ∧
      u.Registered o.tree := by
  have hscratch : u.scratch.Wellformed := .empty rfl rfl
  obtain ⟨t', ht', -, -, hP⟩ := rebuild_spec (t := u) (u := u.scratch) (d := [])
    (P := fun r _ => u.Registered r)
    (fun {r o l item d} _ _ hreg hat _ hm => by
      intro e he
      rw [hm.entries] at he
      obtain ⟨x, hx, rfl⟩ := List.mem_map.mp he
      have hkept : (restate r.priorityEvaluator l (·.range.overlaps item.1) x).onStateChange =
          x.onStateChange ∧ (restate r.priorityEvaluator l (·.range.overlaps item.1) x).value =
          x.value ∧ (restate r.priorityEvaluator l (·.range.overlaps item.1)
          x).callbackRegistrationId = x.callbackRegistrationId := by
        unfold restate
        split <;> exact ⟨rfl, rfl, rfl⟩
      rw [hkept.1, hkept.2.1, hkept.2.2]
      rcases List.mem_cons.mp (hat.perm.mem_iff.mp hx) with rfl | hx
      · exact ⟨rfl, rfl⟩
      · exact hreg x hx)
    hcmp hscratch hv (fun e he => by cases he)
  exact ⟨_, reconstructFromCanonical_valid hv ht', rfl, rfl, hP⟩

/-- The same answer, up to the order of the entries of one range. -/
def SameTopology : Except Exn (TopologyResult α) → Except Exn (TopologyResult α) → Prop
  | .ok a, .ok b => a.status = b.status ∧ a.isTop = b.isTop ∧
      a.overlappingEntries.map Prod.fst = b.overlappingEntries.map Prod.fst ∧
      a.overlappingEntries.Perm b.overlappingEntries
  | .error a, .error b => a = b
  | _, _ => False

theorem queryTopology_invalid (hv : range.isValid = false) (value : α) :
    t.queryTopology range value = .error (.invalidArgument "range is invalid") := by
  simp [queryTopology, findOverlapping, forEachOverlapping, hv, bind, Except.bind]

theorem sameTopology (hcmp : WeakComparator t.canonicalComparator)
    (hsettings : u.canonicalComparator = t.canonicalComparator ∧
      u.priorityEvaluator = t.priorityEvaluator)
    (h : t.Refines r) (h' : u.Refines r') (hwf : t.Wellformed) (hwf' : u.Wellformed)
    (hperm : (r'.items.map Item.pair).Perm (r.items.map Item.pair)) (range : Range) (value : α) :
    SameTopology (u.queryTopology range value) (t.queryTopology range value) := by
  cases hv : range.isValid with
  | false =>
    rw [queryTopology_invalid hv, queryTopology_invalid hv]
    rfl
  | true =>
    have hover : (Reference.pairs (r'.overlapping range)).Perm
        (Reference.pairs (r.overlapping range)) := by
      rw [Reference.overlapping_pairs, Reference.overlapping_pairs]
      exact hperm.filter _
    have heach : Overlapping range ((Reference.pairs (r'.overlapping range)).map Prod.fst) := by
      intro o ho
      simp only [Reference.pairs, Reference.overlapping, List.map_map, List.mem_map,
        List.mem_filter] at ho
      obtain ⟨i, ⟨-, hi⟩, rfl⟩ := ho
      rw [Range.overlaps_comm]
      exact hi
    have hstate := Reference.stateOf_perm t.priorityEvaluator (range, value) hover heach hv
    rw [topology_refines h hwf hv, topology_refines h' hwf' hv, hsettings.2,
      Reference.topology_eq, Reference.topology_eq]
    refine ⟨congrArg OverlayState.topology hstate, congrArg OverlayState.isTop hstate, ?_, hover⟩
    have hranges := Reference.ranges_eq hcmp (h.sorted hcmp hwf)
      (hsettings.1 ▸ h'.sorted (hsettings.1 ▸ hcmp) hwf') hperm
    have hfst : ∀ r : Reference α, (Reference.pairs (r.overlapping range)).map Prod.fst =
        (r.items.map Item.range).filter (·.overlaps range) := fun r => by
      rw [Reference.overlapping, Reference.pairs, List.filter_map, List.map_map]
      rfl
    rw [hfst, hfst, hranges]

/-- What a reconstruction from an enumeration leaves of a destination. -/
structure Restored (t u : Tree α) (duplicateOrder : Option (α → α → Bool)) (o : Outcome α Unit) :
    Prop where
  result : o.result = .ok ()
  enumeration : o.tree.enumerateCanonical duplicateOrder = t.enumerateCanonical duplicateOrder
  states : (o.tree.entries.map fun e => (e.range, e.value, e.state)).Perm
    (t.entries.map fun e => (e.range, e.value, e.state))
  queries : ∀ range value, SameTopology (o.tree.queryTopology range value)
    (t.queryTopology range value)
  callbacks : ∀ e ∈ o.tree.entries, e.onStateChange =
    (u.callbackRegistrations.find? (·.matches e.value)).map fun registration =>
      fun _ item oldState newState =>
        registration.callback registration.context item oldState newState
  silent : o.calls = [] ∧
    u.rebuildCalls u.scratch (t.enumerateCanonical duplicateOrder) = []

theorem callbackForReconstruction_fst (u : Tree α) (value : α) :
    (u.callbackForReconstruction value).1 =
      (u.callbackRegistrations.find? (·.matches value)).map fun registration =>
        fun _ item oldState newState =>
          registration.callback registration.context item oldState newState := by
  unfold callbackForReconstruction
  cases u.callbackRegistrations.find? (·.matches value) <;> rfl

theorem restored (hcmp : WeakComparator t.canonicalComparator) (hd : WeakDuplicates duplicateOrder)
    (hsettings : u.canonicalComparator = t.canonicalComparator ∧
      u.priorityEvaluator = t.priorityEvaluator)
    (hwf : t.Wellformed) (hc : t.Current) (h : t.Refines r) (hvalid : r.Valid)
    (hwf' : u.Wellformed) (hc' : u.Current) (h' : u.Refines r') :
    ∃ o, u.reconstructFromCanonical (t.enumerateCanonical duplicateOrder) = some o ∧
      t.Restored u duplicateOrder o := by
  have hitems := enumerate_refines hcmp h duplicateOrder
  have hcmp' : WeakComparator u.canonicalComparator := hsettings.1 ▸ hcmp
  have hsorted := h.sorted hcmp hwf
  have hlisted : ((r.ordered t.canonicalComparator duplicateOrder).map Item.pair).Perm
      (r.items.map Item.pair) := r.ordered_perm.map _
  have hv : ∀ e ∈ t.enumerateCanonical duplicateOrder, e.1.isValid = true := by
    intro e he
    rw [hitems, Reference.enumerate_eq] at he
    obtain ⟨i, hi, rfl⟩ := List.mem_map.mp (hlisted.mem_iff.mp he)
    exact hvalid i hi
  obtain ⟨o, ho, hok, hcalls, hreg⟩ := reconstructFromCanonical_registered hcmp' hv
  have hkeeps : u.Keeps (u.reconstructFromCanonical (t.enumerateCanonical duplicateOrder)) :=
    reconstructFromCanonical_keeps hcmp' hwf'
  obtain ⟨o', ho', hwfo, hset⟩ := hkeeps
  obtain rfl := Option.some.inj (ho'.symm.trans ho)
  have hco := reconstructFromCanonical_current hcmp' hc' ho
  have hsettings' : o'.tree.canonicalComparator = t.canonicalComparator ∧
      o'.tree.priorityEvaluator = t.priorityEvaluator :=
    ⟨hset.comparator.trans hsettings.1, hset.priority.trans hsettings.2⟩
  -- the items of the new tree, numbered in the order of the enumeration
  obtain ⟨R, hR, hperm⟩ : ∃ R : Reference α, o'.tree.Refines R ∧
      R.items.Perm (Reference.numbered 0 (r.enumerate t.canonicalComparator duplicateOrder)) := by
    have hrefines :
        u.StepRefines r' (.reconstructFromCanonical (t.enumerateCanonical duplicateOrder)) :=
      reconstructFromCanonical_refines hcmp' h'
    obtain ⟨p, hp, hpr, -⟩ := hrefines
    have htree : p.tree = o'.tree := by
      rw [apply, ho] at hp
      cases hp
      rfl
    rw [htree, Reference.apply, if_pos (by simpa using hv)] at hpr
    refine ⟨_, hpr, ?_⟩
    rw [hitems]
    exact (Reference.foldl_insert u.canonicalComparator {} _).1
  have hR_sorted := hsettings'.1 ▸ hR.sorted (hsettings'.1 ▸ hcmp) hwfo
  have hordered := Reference.enumerate_rebuilt hcmp hd hsorted hR_sorted hperm
  have hpairs : (R.items.map Item.pair).Perm (r.items.map Item.pair) := by
    refine (hperm.map Item.pair).trans ?_
    rw [Reference.numbered_pair]
    exact hlisted
  refine ⟨o', ho, hok, ?_, ?_, fun range value => ?_, fun e he => ?_, hcalls,
    rebuildCalls_nil rfl _⟩
  · rw [enumerate_refines (hsettings'.1 ▸ hcmp) hR, hsettings'.1, hitems, Reference.enumerate_eq,
      hordered, Reference.numbered_pair]
  · rw [hR.stated hco, h.stated hc, hsettings'.2]
    refine (Reference.stated_perm _ hperm).trans ?_
    rw [Reference.enumerate_eq, Reference.stated_numbered]
    · exact Reference.stated_perm _ r.ordered_perm
    · exact (r.ordered_perm.map Item.ordinal).nodup_iff.mpr (h.distinct hwf)
  · exact sameTopology hcmp hsettings' h hR hwf hwfo hpairs range value
  · rw [(hreg e he).1, callbackForReconstruction_fst]

/-- Every tree that can be built comes back in every destination with its comparator and its
priorities; a list with an invalid range is refused and changes nothing. -/
theorem history_roundTrip (comparator : Option (Range → Range → Bool))
    (evaluator : Option (α → α → Bool)) (hcmp : WeakComparator comparator)
    (ops ops' : List (Op α)) :
    ∃ t u, (constructed comparator evaluator).run ops = some t ∧
      (constructed comparator evaluator).run ops' = some u ∧
      (∀ duplicateOrder, WeakDuplicates duplicateOrder →
        ∃ o, u.reconstructFromCanonical (t.enumerateCanonical duplicateOrder) = some o ∧
          t.Restored u duplicateOrder o) ∧
      ∀ items : List (Range × α), (∃ item ∈ items, item.1.isValid = false) →
        u.reconstructFromCanonical items = some
          { tree := u, calls := []
            result := .error (.invalidArgument "canonical entries contain an invalid range") } := by
  have hempty : (constructed comparator evaluator).Wellformed := .empty rfl rfl
  have hnone : (constructed comparator evaluator).Refines {} := ⟨rfl, rfl⟩
  have hreached : ∀ ops : List (Op α), ∃ t r, (constructed comparator evaluator).run ops = some t ∧
      t.Wellformed ∧ (constructed comparator evaluator).SameSettings t ∧ t.Current ∧ t.Refines r ∧
      r.Valid := by
    intro ops
    obtain ⟨t, ht, hwf, hset, hc⟩ := run_current hcmp hempty (fun e he => by cases he) ops
    obtain ⟨t', ht', -, -, hr⟩ := run_refines hcmp hempty hnone ops
    obtain rfl := Option.some.inj (ht.symm.trans ht')
    exact ⟨t, _, ht, hwf, hset, hc, hr, Reference.Valid.run (fun i hi => by cases hi) ops⟩
  obtain ⟨t, r, ht, hwf, hset, hc, hr, hvalid⟩ := hreached ops
  obtain ⟨u, r', hu, hwf', hset', hc', hr', -⟩ := hreached ops'
  refine ⟨t, u, ht, hu, fun duplicateOrder hd => ?_, fun items ⟨item, hmem, hv⟩ => ?_⟩
  · exact restored (hset.weakComparator hcmp) hd
      ⟨hset'.comparator.trans hset.comparator.symm, hset'.priority.trans hset.priority.symm⟩
      hwf hc hr hvalid hwf' hc' hr'
  · exact reconstructFromCanonical_invalid fun hall => by simp [hall item hmem] at hv

theorem history_roundTrip_default :
    ∃ t u, (constructed (α := Nat) (some defaultRangeLess) (some fun a b => a < b)).run
        [.add ⟨0, 9⟩ 1 none, .add ⟨0, 9⟩ 2 none, .add ⟨2, 3⟩ 3 none] = some t ∧
      (constructed (α := Nat) (some defaultRangeLess) (some fun a b => a < b)).run
        [.add ⟨4, 5⟩ 1 none] = some u ∧
      (∀ duplicateOrder, WeakDuplicates duplicateOrder →
        ∃ o, u.reconstructFromCanonical (t.enumerateCanonical duplicateOrder) = some o ∧
          t.Restored u duplicateOrder o) ∧
      ∀ items : List (Range × Nat), (∃ item ∈ items, item.1.isValid = false) →
        u.reconstructFromCanonical items = some
          { tree := u, calls := []
            result := .error (.invalidArgument "canonical entries contain an invalid range") } :=
  history_roundTrip _ _ weakComparator_default _ _

end Tree
end Dmn.IntervalBTree
