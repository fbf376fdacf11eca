import Dmn.IntervalBTree.Invariant

/-!
# What a mutation does to the listing

Each public mutation returns, keeps the tree well formed, and changes the
listing of its entries in one place: an entry comes in at its sorted place or
goes out, and the overlay states of the affected entries are stored anew.
-/

namespace Dmn.IntervalBTree

open Lib Node

variable {α : Type}

-- ---------------------------------------------------------------------------
-- Overlay states of a listing
-- ---------------------------------------------------------------------------

namespace Tree

/-- The state of an entry computed from scratch over a listing. -/
def overlayState (priorityEvaluator : Option (α → α → Bool)) (entries : List (Entry α))
    (candidate : Entry α) : OverlayState :=
  let overlaps := overlapsOf entries candidate
  { topology := classifyTopology candidate.range (overlaps.map Entry.range)
    isTop := match priorityEvaluator with
      | some higher => !overlaps.any fun e => higher e.value candidate.value
      | none => true }

theorem calculateState_eq (t : Tree α) (e : Entry α) :
    t.calculateState e = overlayState t.priorityEvaluator t.entries e := rfl

theorem overlapsOf_congr {e e' : Entry α} (h : e'.SameItem e) (l : List (Entry α)) :
    overlapsOf l e' = overlapsOf l e := by
  simp only [overlapsOf, h.ordinal, h.range]

theorem overlapsOf_map {f : Entry α → Entry α} (hf : ∀ e, (f e).SameItem e) (l : List (Entry α))
    (e : Entry α) : overlapsOf (l.map f) e = (overlapsOf l e).map f := by
  rw [overlapsOf, List.filter_map]
  congr 1
  exact List.filter_congr fun x _ => by simp [(hf x).ordinal, (hf x).range]

/-- The stored states play no part in the computed ones. -/
theorem overlayState_map {f : Entry α → Entry α} (hf : ∀ e, (f e).SameItem e)
    (prio : Option (α → α → Bool)) (l : List (Entry α)) {e e' : Entry α} (he : e'.SameItem e) :
    overlayState prio (l.map f) e' = overlayState prio l e := by
  have hr : Entry.range ∘ f = Entry.range := funext fun x => (hf x).range
  simp only [overlayState, overlapsOf_congr he, overlapsOf_map hf, List.map_map, hr, he.range,
    he.value, List.any_map, Function.comp_def, (hf _).value]

theorem overlayState_congr (prio : Option (α → α → Bool)) (l : List (Entry α)) {e e' : Entry α}
    (he : e'.SameItem e) : overlayState prio l e' = overlayState prio l e := by
  simpa using overlayState_map (f := id) .refl prio l he

/-- The entries of `olds` are those of the listing, up to what may be rewritten. -/
def Names (olds : List (Entry α × OverlayState)) (l : List (Entry α)) : Prop :=
  ∀ p ∈ olds, ∀ e ∈ l, p.1.ordinal = e.ordinal → p.1.SameItem e

/-- The entries whose computed state is not the old one. -/
def transitionsOf (prio : Option (α → α → Bool)) (l : List (Entry α))
    (olds : List (Entry α × OverlayState)) : List (StateChange α) :=
  olds.filterMap fun p =>
    if p.2 ≠ overlayState prio l p.1 then some ⟨p.1, p.2, overlayState prio l p.1⟩ else none

/-- The affected entries take their computed states, the others keep theirs. -/
def restate (prio : Option (α → α → Bool)) (l : List (Entry α)) (affected : Entry α → Bool)
    (e : Entry α) : Entry α :=
  if affected e then { e with state := overlayState prio l e } else e

theorem restate_sameItem (prio : Option (α → α → Bool)) (l : List (Entry α))
    (affected : Entry α → Bool) (e : Entry α) : (restate prio l affected e).SameItem e := by
  unfold restate
  split <;> exact ⟨rfl, rfl, rfl⟩

/-- The entries that `olds` names. -/
def named (olds : List (Entry α × OverlayState)) (e : Entry α) : Bool :=
  olds.any (·.1.ordinal == e.ordinal)

theorem setState_sameItem (ordinal : Nat) (state : OverlayState) (e : Entry α) :
    (if e.ordinal = ordinal then { e with state } else e).SameItem e := by
  split <;> exact ⟨rfl, rfl, rfl⟩

theorem Names.map {f : Entry α → Entry α} (hf : ∀ e, (f e).SameItem e) (h : Names olds l) :
    Names olds (l.map f) := by
  intro p hp e he hord
  obtain ⟨x, hx, rfl⟩ := List.mem_map.mp he
  have hsame := h p hp x hx (hord.trans (hf x).ordinal)
  exact ⟨hsame.range.trans (hf x).range.symm, hsame.value.trans (hf x).value.symm, hord⟩

theorem updateStates_cons (t : Tree α) (entry : Entry α) (oldState : OverlayState)
    (rest : List (Entry α × OverlayState)) :
    t.updateStates ((entry, oldState) :: rest) =
      let r := (t.setState entry.ordinal (t.calculateState entry)).updateStates rest
      (r.1, if oldState ≠ t.calculateState entry then
        ⟨entry, oldState, t.calculateState entry⟩ :: r.2 else r.2) := rfl

theorem updateStates_spec (t : Tree α) (olds : List (Entry α × OverlayState))
    (hn : Names olds t.entries) :
    ∃ f, (∀ e, (f e).SameItem e) ∧ (t.updateStates olds).1 = t.mapEntries f ∧
      (∀ e ∈ t.entries, f e = restate t.priorityEvaluator t.entries (named olds) e) ∧
      (t.updateStates olds).2 = transitionsOf t.priorityEvaluator t.entries olds := by
  induction olds generalizing t with
  | nil => exact ⟨id, .refl, (mapEntries_id t).symm, by simp [restate, named], rfl⟩
  | cons p rest ih =>
    obtain ⟨entry, oldState⟩ := p
    rw [updateStates_cons, calculateState_eq]
    generalize hnew : overlayState t.priorityEvaluator t.entries entry = new
    obtain ⟨g, hg, hgdef, ht⟩ : ∃ g : Entry α → Entry α, (∀ e, (g e).SameItem e) ∧
        (∀ e, g e = if e.ordinal = entry.ordinal then { e with state := new } else e) ∧
        t.setState entry.ordinal new = t.mapEntries g :=
      ⟨_, setState_sameItem entry.ordinal new, fun _ => rfl, rfl⟩
    rw [ht]
    have hst : ∀ {e e'}, e'.SameItem e → overlayState t.priorityEvaluator (t.mapEntries g).entries e' =
        overlayState t.priorityEvaluator t.entries e := by
      intro e e' he
      rw [entries_mapEntries]
      exact overlayState_map hg _ _ he
    obtain ⟨f, hf, htree, hfe, hch⟩ := ih (t.mapEntries g) (by
      rw [entries_mapEntries]
      exact Names.map hg fun p hp => hn p (List.mem_cons_of_mem _ hp))
    refine ⟨f ∘ g, fun e => (hf _).trans (hg e), ?_, ?_, ?_⟩
    · rw [← mapEntries_mapEntries, ← htree]
    · intro e he
      rw [Function.comp_apply, hfe (g e) (by rw [entries_mapEntries]; exact List.mem_map_of_mem he)]
      have hst' : overlayState (t.mapEntries g).priorityEvaluator (t.mapEntries g).entries (g e) =
          overlayState t.priorityEvaluator t.entries e := hst (hg e)
      simp only [restate, named, hst', (hg e).ordinal, List.any_cons]
      by_cases hord : e.ordinal = entry.ordinal
      · have hsame := hn (entry, oldState) (by simp) e he hord.symm
        have hstate : new = overlayState t.priorityEvaluator t.entries e :=
          hnew.symm.trans (overlayState_congr _ _ hsame)
        simp [hgdef, hord, hstate]
      · rw [hgdef, if_neg hord]
        exact if_congr (by simp [Ne.symm hord]) rfl rfl
    · have hst' : overlayState (t.mapEntries g).priorityEvaluator (t.mapEntries g).entries =
          overlayState t.priorityEvaluator t.entries := funext fun e => hst (.refl e)
      simp only [hch, transitionsOf, List.filterMap_cons, hst', hnew]
      split <;> simp_all

-- ---------------------------------------------------------------------------
-- insertRoot and eraseEntry
-- ---------------------------------------------------------------------------

theorem entries_some {t : Tree α} (h : t.root = some n) : t.entries = n.collectEntriesInOrder := by
  simp [entries, h]

theorem entries_none {t : Tree α} (h : t.root = none) : t.entries = [] := by
  simp [entries, h]

/-- A root that is not full takes the entry. -/
theorem insertRoot_room {t : Tree α} (ho : StrictTotalOn t.less Entry.ordinal)
    (hacc : Accepts t.less entry n.collectEntriesInOrder) (hb : Balanced d n)
    (hroom : n.entries.length ≤ 2) :
    ∃ n', n.insertNonFull t.less entry (n.height + 1) = some n' ∧ Balanced d n' ∧
      InsertedAt t.less entry n.collectEntriesInOrder n'.collectEntriesInOrder ∧
      n.entries.length ≤ n'.entries.length :=
  insertNonFull_spec ho hb hroom hacc (by rw [hb.height_eq]; omega)

theorem insertRoot_spec {t : Tree α} (hcmp : WeakComparator t.canonicalComparator)
    (hs : t.Shaped) (hacc : Accepts t.less entry t.entries) :
    ∃ n, t.insertRoot entry = some n ∧ (∃ d, Balanced d n) ∧ 1 ≤ n.entries.length ∧
      InsertedAt t.less entry t.entries n.collectEntriesInOrder := by
  have ho := entryLess_strictTotal (α := α) hcmp
  cases hr : t.root with
  | none =>
    rw [entries_none hr] at hacc ⊢
    have hb : Balanced 0 (node [] [] Int64.minValue true : Node α) := .leaf (by simp) rfl
    obtain ⟨n, hn, hb', hat, -⟩ := insertRoot_room (t := t) ho (by simpa using hacc) hb (by simp)
    refine ⟨n, by simpa [insertRoot, hr, maxKeys, minimumDegree] using hn, ⟨_, hb'⟩, ?_,
      by simpa using hat⟩
    obtain ⟨es, m, rfl, -⟩ := hb'.leaf_inv
    have hlen := hat.perm.length_eq
    simp only [collect_leaf, List.length_cons, List.length_nil] at hlen
    exact hlen.ge
  | some n =>
    rw [entries_some hr] at hacc ⊢
    obtain ⟨⟨d, hb⟩, hpos⟩ := hs n hr
    by_cases hfull : n.entries.length = 3
    · -- the root splits under a new one
      obtain ⟨l, p, r, hl, hr', hll, hrl, hcol, hsplit⟩ := splitChild_spec (u := []) (y := [])
        (w := []) (z := []) (m := Int64.minValue) (f := false) hb hfull rfl rfl
      have hb' : Balanced (d + 1) (node [p] [l, r] Int64.minValue false).refreshNodeMaxEnd :=
        .branch_refresh (by simp) (by simp [hl, hr']) (by simp [hll, hrl]) (by simp)
      have hcol' : (node [p] [l, r] Int64.minValue false).refreshNodeMaxEnd.collectEntriesInOrder =
          n.collectEntriesInOrder := by simp [hcol]
      obtain ⟨n', hn', hb'', hat, hle⟩ := insertRoot_room (t := t) ho (hcol' ▸ hacc) hb' (by simp)
      refine ⟨n', ?_, ⟨_, hb''⟩, by simpa using hle, hcol' ▸ hat⟩
      simp only [List.nil_append, List.length_nil] at hsplit
      simp [insertRoot, hr, maxKeys, minimumDegree, hfull, hsplit, hn']
    · obtain ⟨n', hn', hb', hat, hle⟩ := insertRoot_room (t := t) ho hacc hb
        (by have := hb.entries_le; omega)
      exact ⟨n', by simpa [insertRoot, hr, maxKeys, minimumDegree, hfull] using hn', ⟨_, hb'⟩,
        by omega, hat⟩

/-- An empty root gives way to its only child, or to nothing. -/
def shrinkRoot (n : Node α) : Option (Node α) :=
  if n.entries.isEmpty then (if n.isLeaf then none else n.children.head?) else some n

theorem shrinkRoot_spec (hb : Balanced d n) (hn : shrinkRoot n = some n') :
    (∃ d, Balanced d n') ∧ 1 ≤ n'.entries.length := by
  unfold shrinkRoot at hn
  cases hb with
  | leaf h3 hm =>
    split at hn
    · simp at hn
    · rename_i h
      obtain rfl := Option.some.inj hn
      refine ⟨⟨0, .leaf h3 hm⟩, ?_⟩
      simpa [List.length_pos_iff, Nat.one_le_iff_ne_zero] using h
  | @branch d es cs m hlen hcs hne h3 hm =>
    split at hn
    · have hc : n' ∈ cs := List.mem_of_head? (by simpa using hn)
      exact ⟨⟨d, hcs n' hc⟩, hne n' hc⟩
    · rename_i h
      obtain rfl := Option.some.inj hn
      refine ⟨⟨d + 1, .branch hlen hcs hne h3 hm⟩, ?_⟩
      simpa [List.length_pos_iff, Nat.one_le_iff_ne_zero] using h

theorem collect_shrinkRoot (hb : Balanced d n) :
    ((shrinkRoot n).map collectEntriesInOrder).getD [] = n.collectEntriesInOrder := by
  unfold shrinkRoot
  cases hb with
  | leaf h3 hm =>
    split
    · rename_i h
      simpa using h
    · rfl
  | @branch d es cs m hlen hcs hne h3 hm =>
    split
    · rename_i h
      obtain rfl : es = [] := by simpa using h
      obtain ⟨c, rfl⟩ := List.length_eq_one_iff.mp hlen
      simp
    · rfl

theorem eraseEntry_spec {t : Tree α} (hcmp : WeakComparator t.canonicalComparator) (hs : t.Shaped)
    (hh : Holds t.less target t.entries) (ht : target ∈ t.entries) :
    ∃ n, t.eraseEntry target = some { t with root := n, size := t.size - 1 } ∧
      ({ t with root := n, size := t.size - 1 } : Tree α).Shaped ∧
      RemovedAt target t.entries ({ t with root := n, size := t.size - 1 } : Tree α).entries := by
  have ho := entryLess_strictTotal (α := α) hcmp
  cases hr : t.root with
  | none => simp [entries_none hr] at ht
  | some n =>
    rw [entries_some hr] at hh ht
    obtain ⟨⟨d, hb⟩, hpos⟩ := hs n hr
    obtain ⟨n', hn', hb', hat, -⟩ := IntervalBTree.eraseEntry_spec ho hb hpos hh ht
      (f := n.height + 1) (by rw [hb.height_eq]; omega)
    refine ⟨shrinkRoot n', ?_, fun n'' hn'' => shrinkRoot_spec hb' hn'', ?_⟩
    · simp only [eraseEntry, hr, hn', Option.bind_eq_bind, Option.bind_some]
      rfl
    · rw [entries_some hr]
      have hcol := collect_shrinkRoot hb'
      cases hsh : shrinkRoot n' <;> simpa [entries, hsh, ← hcol] using hat

-- ---------------------------------------------------------------------------
-- Insertion and removal
-- ---------------------------------------------------------------------------

/-- A mutation that kept the entries `kept` and left the listing `l`, with the
states of the affected entries stored anew. -/
structure Mutated (t : Tree α) (kept l : List (Entry α)) (affected : Entry α → Bool) (value : β)
    (o : Outcome α β) : Prop where
  wellformed : o.tree.Wellformed
  settings : t.SameSettings o.tree
  entries : o.tree.entries = l.map (restate t.priorityEvaluator l affected)
  calls : o.calls = if t.suppressCallbacks then [] else
    (dispatch (transitionsOf t.priorityEvaluator l
      ((kept.filter affected).map fun e => (e, e.state)))).1
  result : o.result = if !t.suppressCallbacks && (dispatch (transitionsOf t.priorityEvaluator l
      ((kept.filter affected).map fun e => (e, e.state)))).2 then .error .callback else .ok value

theorem updateStatesAndNotify_spec {t : Tree α} (h : t.Wellformed) (hn : Names o t.entries)
    (value : β) :
    (t.updateStatesAndNotify o value).tree.Wellformed ∧
    t.SameSettings (t.updateStatesAndNotify o value).tree ∧
    (t.updateStatesAndNotify o value).tree.nextOrdinal = t.nextOrdinal ∧
    (t.updateStatesAndNotify o value).tree.entries =
      t.entries.map (restate t.priorityEvaluator t.entries (named o)) ∧
    (t.updateStatesAndNotify o value).calls = (if t.suppressCallbacks then [] else
      (dispatch (transitionsOf t.priorityEvaluator t.entries o)).1) ∧
    (t.updateStatesAndNotify o value).result =
      if !t.suppressCallbacks && (dispatch (transitionsOf t.priorityEvaluator t.entries o)).2
      then .error .callback else .ok value := by
  obtain ⟨f, hf, htree, hfe, hch⟩ := updateStates_spec t o hn
  have heq : t.updateStates o = (t.mapEntries f, transitionsOf t.priorityEvaluator t.entries o) :=
    Prod.ext htree hch
  have hfields : (t.updateStatesAndNotify o value).tree = t.mapEntries f ∧
      (t.updateStatesAndNotify o value).calls = (if t.suppressCallbacks then [] else
        (dispatch (transitionsOf t.priorityEvaluator t.entries o)).1) ∧
      (t.updateStatesAndNotify o value).result =
        if !t.suppressCallbacks && (dispatch (transitionsOf t.priorityEvaluator t.entries o)).2
        then .error .callback else .ok value := by
    cases hs : t.suppressCallbacks <;> simp [updateStatesAndNotify, heq, hs]
  rw [hfields.1]
  refine ⟨h.mapEntries hf, ⟨rfl, rfl, rfl⟩, rfl, ?_, hfields.2⟩
  rw [entries_mapEntries]
  exact List.map_congr_left hfe

theorem Wellformed.unique {t : Tree α} (h : t.Wellformed) (ha : a ∈ t.entries) (hb : b ∈ t.entries)
    (hord : a.ordinal = b.ordinal) : a = b :=
  List.inj_on_of_nodup_map h.distinct ha hb hord

theorem Wellformed.accepts {t : Tree α} (h : t.Wellformed) (hord : entry.ordinal = t.nextOrdinal) :
    Accepts t.less entry t.entries :=
  ⟨h.sorted, fun x hx => by have := h.below x hx; omega⟩

theorem range_overlaps_self {r : Range} (h : r.isValid) : r.overlaps r := by
  simp only [Range.isValid, decide_eq_true_eq] at h
  simp [Range.overlaps, Range.isValid, h]

/-- The survivors of a mutation with the states they had. -/
def saved (kept : List (Entry α)) : List (Entry α × OverlayState) := kept.map fun e => (e, e.state)

theorem Wellformed.names {t : Tree α} (h : t.Wellformed) (hk : ∀ x ∈ kept, x ∈ t.entries) :
    Names (saved kept) t.entries := by
  intro p hp e he hord
  obtain ⟨x, hx, rfl⟩ := List.mem_map.mp hp
  exact h.unique (hk x hx) he hord ▸ .refl x

theorem named_saved : named (saved kept) e = true ↔ ∃ x ∈ kept, x.ordinal = e.ordinal := by
  simp [named, saved]

/-- The named survivors are the affected ones. -/
theorem Wellformed.named_filter {t : Tree α} (h : t.Wellformed) (he : e ∈ t.entries)
    (p : Entry α → Bool) : named (saved (t.entries.filter p)) e = p e := by
  rw [Bool.eq_iff_iff, named_saved]
  constructor
  · rintro ⟨x, hx, hord⟩
    obtain ⟨hx, hpx⟩ := List.mem_filter.mp hx
    exact h.unique hx he hord ▸ hpx
  · exact fun hpe => ⟨e, List.mem_filter.mpr ⟨he, hpe⟩, rfl⟩

/-- The tree with the entry in it, before any state is computed. -/
def inserted (t : Tree α) (n : Node α) : Tree α :=
  { t with root := some n, nextOrdinal := t.nextOrdinal + 1, size := t.size + 1 }

theorem Wellformed.inserted {t : Tree α} (h : t.Wellformed)
    (hcmp : WeakComparator t.canonicalComparator) (hb : ∃ d, Balanced d n)
    (hpos : 1 ≤ n.entries.length) (hord : entry.ordinal = t.nextOrdinal)
    (hat : InsertedAt t.less entry t.entries n.collectEntriesInOrder) : (t.inserted n).Wellformed := by
  have hperm := hat.perm
  refine ⟨?_, hat.pairwise (entryLess_strictTotal hcmp) h.sorted, ?_, ?_, ?_⟩
  · rintro _ ⟨⟩
    exact ⟨hb, hpos⟩
  · show t.size + 1 = n.collectEntriesInOrder.length
    rw [hperm.length_eq, List.length_cons, h.size_eq]
  · refine (hperm.map Entry.ordinal).nodup_iff.mpr (List.nodup_cons.mpr ⟨?_, h.distinct⟩)
    intro hmem
    obtain ⟨x, hx, hxo⟩ := List.mem_map.mp hmem
    have := h.below x hx
    omega
  · intro e he
    show e.ordinal < t.nextOrdinal + 1
    rcases List.mem_cons.mp (hperm.subset he) with rfl | he
    · omega
    · have := h.below e he
      omega

theorem insertEntry_eq {t : Tree α} (hv : entry.range.isValid) (hn : t.insertRoot entry = some n) :
    t.insertEntry entry = some (((t.inserted n).setState entry.ordinal
      ((t.inserted n).calculateState entry)).updateStatesAndNotify
        (saved (t.entries.filter (·.range.overlaps entry.range))) true) := by
  simp only [insertEntry, hv, hn, Option.bind_eq_bind, Option.bind_some]
  rfl

theorem insertEntry_spec {t : Tree α} (hcmp : WeakComparator t.canonicalComparator)
    (h : t.Wellformed) (hv : k.range.isValid) (hord : k.ordinal = t.nextOrdinal) :
    ∃ o l, t.insertEntry k = some o ∧ InsertedAt t.less k t.entries l ∧
      o.tree.nextOrdinal = t.nextOrdinal + 1 ∧
      Mutated t t.entries l (·.range.overlaps k.range) true o := by
  obtain ⟨n, hn, hb, hpos, hat⟩ := insertRoot_spec hcmp h.shaped (h.accepts hord)
  have hins := h.inserted hcmp hb hpos hord hat
  generalize hl : n.collectEntriesInOrder = l at hat
  have hle : (t.inserted n).entries = l := hl
  -- the new k takes its state before the affected ones do
  obtain ⟨g, hg, hgdef, ht⟩ : ∃ g : Entry α → Entry α, (∀ e, (g e).SameItem e) ∧
      (∀ e, g e = if e.ordinal = k.ordinal then
        { e with state := overlayState t.priorityEvaluator l k } else e) ∧
      (t.inserted n).setState k.ordinal ((t.inserted n).calculateState k) =
        (t.inserted n).mapEntries g :=
    ⟨_, setState_sameItem k.ordinal (overlayState t.priorityEvaluator l k), fun _ => rfl,
      by rw [calculateState_eq, hle]; rfl⟩
  have hgl : ((t.inserted n).mapEntries g).entries = l.map g := by rw [entries_mapEntries, hle]
  have hsub : ∀ x ∈ t.entries, x ∈ l := fun x hx => hat.perm.symm.subset (List.mem_cons_of_mem _ hx)
  have hnames : Names (saved (t.entries.filter (·.range.overlaps k.range))) l := hle ▸
    hins.names fun x hx => hle ▸ hsub x (List.mem_of_mem_filter hx)
  obtain ⟨hwf, hset, hnext, hent, hcalls, hres⟩ :=
    updateStatesAndNotify_spec (hins.mapEntries hg) (hgl ▸ hnames.map hg) true
  have htrans : ∀ olds, transitionsOf ((t.inserted n).mapEntries g).priorityEvaluator (l.map g) olds =
      transitionsOf t.priorityEvaluator l olds := by
    intro olds
    simp only [transitionsOf, overlayState_map hg _ _ (.refl _)]
    rfl
  rw [hgl, htrans] at hcalls hres
  refine ⟨_, l, ht ▸ insertEntry_eq hv hn, hat, hnext, hwf,
    ⟨hset.comparator, hset.priority, hset.suppress⟩, ?_, hcalls, hres⟩
  rw [hent, hgl, List.map_map]
  refine List.map_congr_left fun e he => ?_
  have hstate : overlayState ((t.inserted n).mapEntries g).priorityEvaluator (l.map g) (g e) =
      overlayState t.priorityEvaluator l e := overlayState_map hg _ _ (hg e)
  rw [Function.comp_apply, restate, hstate, restate]
  rcases List.mem_cons.mp (hat.perm.subset he) with rfl | he
  · have hge : g e = { e with state := overlayState t.priorityEvaluator l e } := by simp [hgdef]
    simp [hge, range_overlaps_self hv]
  · have hge : g e = e := by
      have := h.below e he
      rw [hgdef, if_neg (by omega)]
    rw [hge, h.named_filter he]

theorem eraseEntry_wellformed {t : Tree α} (hcmp : WeakComparator t.canonicalComparator)
    (h : t.Wellformed) (ht : target ∈ t.entries) :
    ∃ t', t.eraseEntry target = some t' ∧ t'.Wellformed ∧
      t'.entries = t.entries.filter (·.ordinal != target.ordinal) ∧ t.SameSettings t' ∧
      t'.nextOrdinal = t.nextOrdinal := by
  obtain ⟨n, herase, hshaped, hat⟩ := eraseEntry_spec hcmp h.shaped
    ⟨h.sorted, fun x hx hord => h.unique hx ht hord⟩ ht
  have hlen := hat.perm.length_eq
  have hsub := hat.sublist
  refine ⟨_, herase, ⟨hshaped, h.sorted.sublist hsub, ?_, h.distinct.sublist (hsub.map _),
    fun e he => h.below e (hsub.subset he)⟩, hat.eq_filter h.distinct, ⟨rfl, rfl, rfl⟩, rfl⟩
  have hsize := h.size_eq
  rw [List.length_cons] at hlen
  show t.size - 1 = _
  omega

/-- The entries that are none of the targets. -/
def without (targets l : List (Entry α)) : List (Entry α) :=
  l.filter fun e => !targets.any (·.ordinal == e.ordinal)

theorem without_single (l : List (Entry α)) (target : Entry α) :
    without [target] l = l.filter (·.ordinal != target.ordinal) :=
  List.filter_congr fun e _ => by simp [bne, BEq.comm (a := e.ordinal)]

theorem foldlM_eraseEntry {t : Tree α} (hcmp : WeakComparator t.canonicalComparator)
    (h : t.Wellformed) (hd : (l.map Entry.ordinal).Nodup) (ht : ∀ x ∈ l, x ∈ t.entries) :
    ∃ t', l.foldlM eraseEntry t = some t' ∧ t'.Wellformed ∧
      t'.entries = without l t.entries ∧ t.SameSettings t' ∧
      t'.nextOrdinal = t.nextOrdinal := by
  induction l generalizing t with
  | nil => exact ⟨t, rfl, h, by simp [without], ⟨rfl, rfl, rfl⟩, rfl⟩
  | cons x xs ih =>
    obtain ⟨hx, hd⟩ := List.nodup_cons.mp hd
    obtain ⟨t1, h1, hwf1, hent1, hset1, hnext1⟩ := eraseEntry_wellformed hcmp h (ht x (by simp))
    obtain ⟨t2, h2, hwf2, hent2, hset2, hnext2⟩ := ih (hset1.weakComparator hcmp) hwf1 hd (by
      intro y hy
      rw [hent1, List.mem_filter]
      refine ⟨ht y (List.mem_cons_of_mem _ hy), ?_⟩
      simpa using fun heq : y.ordinal = x.ordinal => hx (heq ▸ List.mem_map_of_mem hy))
    refine ⟨t2, by simp [List.foldlM_cons, h1, h2], hwf2, ?_, hset1.trans hset2, hnext2.trans hnext1⟩
    rw [hent2, hent1, without, without, List.filter_filter]
    exact List.filter_congr fun e _ => by simp [Bool.and_comm, bne, BEq.comm (a := e.ordinal)]

/-- A tree its targets have been erased from notifies their neighbours. -/
theorem Mutated.of_erased {t t' : Tree α} {a : Entry α → Bool}
    (hwf : t'.Wellformed) (hset : t.SameSettings t') (value : β) :
    Mutated t t'.entries t'.entries a value
      (t'.updateStatesAndNotify (saved (t'.entries.filter a)) value) ∧
    (t'.updateStatesAndNotify (saved (t'.entries.filter a)) value).tree.nextOrdinal =
      t'.nextOrdinal := by
  obtain ⟨hwf', hset', hnext', hent', hcalls, hres⟩ := updateStatesAndNotify_spec hwf
    (hwf.names fun x hx => List.mem_of_mem_filter hx) value (o := saved (t'.entries.filter a))
  rw [hset.priority] at hent' hcalls hres
  rw [hset.suppress] at hcalls hres
  refine ⟨⟨hwf', hset.trans hset', ?_, hcalls, hres⟩, hnext'⟩
  rw [hent']
  refine List.map_congr_left fun e he => ?_
  rw [restate, restate, hwf.named_filter he]

theorem removeByRange_spec {t : Tree α} (hcmp : WeakComparator t.canonicalComparator)
    (h : t.Wellformed) (hv : range.isValid) (hf : t.findExactEntry range matcher = some target) :
    ∃ o, t.removeByRange range matcher = some o ∧ o.tree.nextOrdinal = t.nextOrdinal ∧
      Mutated t (without [target] t.entries) (without [target] t.entries)
        (·.range.overlaps target.range) true o := by
  obtain ⟨t', herase, hwf, hent, hset, hnext⟩ :=
    eraseEntry_wellformed hcmp h (List.mem_of_find?_eq_some hf)
  obtain ⟨hm, hn⟩ := Mutated.of_erased (a := (·.range.overlaps target.range)) hwf hset true
  rw [hent, ← without_single] at hm hn
  refine ⟨_, ?_, hn.trans hnext, hm⟩
  simp only [removeByRange, hv, hf, herase, Option.bind_eq_bind, Option.bind_some, without_single,
    List.filter_filter, Bool.and_comm (_ != _)]
  rfl

/-- The entries a batch removal takes. -/
abbrev targetsOf (t : Tree α) (range : Range) : List (Entry α) :=
  t.entries.filter (·.range.overlaps range)

theorem removeAllOverlapping_spec {t : Tree α} (hcmp : WeakComparator t.canonicalComparator)
    (h : t.Wellformed) (hv : range.isValid) (hne : t.targetsOf range ≠ []) :
    ∃ o, t.removeAllOverlapping range = some o ∧ o.tree.nextOrdinal = t.nextOrdinal ∧
      Mutated t (without (t.targetsOf range) t.entries) (without (t.targetsOf range) t.entries)
        (fun e => (t.targetsOf range).any fun target => e.range.overlaps target.range)
        (t.targetsOf range).length o := by
  obtain ⟨t', herase, hwf, hent, hset, hnext⟩ := foldlM_eraseEntry (l := t.targetsOf range) hcmp h
    (h.distinct.sublist (List.filter_sublist.map _)) fun x hx => List.mem_of_mem_filter hx
  obtain ⟨hm, hn⟩ := Mutated.of_erased
    (a := fun e => (t.targetsOf range).any fun target => e.range.overlaps target.range)
    hwf hset (t.targetsOf range).length
  rw [hent] at hm hn
  refine ⟨_, ?_, hn.trans hnext, hm⟩
  have hemp : (t.targetsOf range).isEmpty = false := by simpa using hne
  simp only [removeAllOverlapping, hv, hemp, herase, Option.bind_eq_bind, Option.bind_some, without,
    List.filter_filter, Bool.and_comm (!_)]
  rfl

-- ---------------------------------------------------------------------------
-- Histories
-- ---------------------------------------------------------------------------

/-- The registrations of a tree play no part in its invariant. -/
theorem Wellformed.congr {t t' : Tree α} (h : t.Wellformed) (hroot : t'.root = t.root)
    (hsize : t'.size = t.size) (hnext : t'.nextOrdinal = t.nextOrdinal)
    (hcmp : t'.canonicalComparator = t.canonicalComparator) : t'.Wellformed := by
  have hent : t'.entries = t.entries := by rw [entries, hroot]; rfl
  refine ⟨fun n hn => h.shaped n (hroot ▸ hn), ?_, ?_, ?_, ?_⟩
  · rw [hent, less, hcmp]
    exact h.sorted
  · rw [hent, hsize, h.size_eq]
  · rw [hent]
    exact h.distinct
  · rw [hent, hnext]
    exact h.below

theorem Wellformed.empty {t : Tree α} (hroot : t.root = none) (hsize : t.size = 0) :
    t.Wellformed := by
  have hent := entries_none hroot
  exact ⟨by simp [Shaped, hroot], by simp [hent], by simp [hent, hsize], by simp [hent],
    by simp [hent]⟩

/-- The entry a reconstruction inserts. -/
def reconstructed (t rebuilt : Tree α) (item : Range × α) : Entry α where
  range := item.1
  value := item.2
  ordinal := rebuilt.nextOrdinal
  onStateChange := (t.callbackForReconstruction item.2).1
  callbackRegistrationId := (t.callbackForReconstruction item.2).2

theorem rebuild_cons {t rebuilt : Tree α}
    (hins : rebuilt.insertEntry (reconstructed t rebuilt item) = some o) :
    t.rebuild rebuilt (item :: rest) = t.rebuild o.tree rest := by
  obtain ⟨range, value⟩ := item
  rw [reconstructed] at hins
  simp only [rebuild, hins, Option.bind_eq_bind, Option.bind_some]

/-- A reconstruction inserts one entry after the other, and keeps what each
insertion keeps. -/
theorem rebuild_spec {t u : Tree α} {d items : List (Range × α)}
    {P : Tree α → List (Range × α) → Prop}
    (hstep : ∀ {r o l item d}, r.Wellformed → item.1.isValid → P r d →
      InsertedAt r.less (reconstructed t r item) r.entries l → o.tree.nextOrdinal = r.nextOrdinal + 1 →
      Mutated r r.entries l (·.range.overlaps item.1) true o → P o.tree (d ++ [item]))
    (hcmp : WeakComparator u.canonicalComparator) (h : u.Wellformed)
    (hv : ∀ e ∈ items, e.1.isValid) (hP : P u d) :
    ∃ t', t.rebuild u items = some t' ∧ t'.Wellformed ∧ u.SameSettings t' ∧
      P t' (d ++ items) := by
  induction items generalizing u d with
  | nil => exact ⟨u, rfl, h, .refl u, by simpa using hP⟩
  | cons e rest ih =>
    have hve : (reconstructed t u e).range.isValid := hv e (by simp)
    have hord : (reconstructed t u e).ordinal = u.nextOrdinal := rfl
    obtain ⟨o, l, hins, hat, hnext, hm⟩ := insertEntry_spec hcmp h hve hord
    obtain ⟨t', ht', hwf', hset', hP'⟩ := ih (hm.settings.weakComparator hcmp) hm.wellformed
      (fun x hx => hv x (List.mem_cons_of_mem _ hx)) (hstep h hve hP hat hnext hm)
    exact ⟨t', (rebuild_cons hins).trans ht', hwf', hm.settings.trans hset', by simpa using hP'⟩

/-- The empty tree a reconstruction starts from. -/
def scratch (t : Tree α) : Tree α :=
  { canonicalComparator := t.canonicalComparator, priorityEvaluator := t.priorityEvaluator
    suppressCallbacks := true }

/-- The tree takes over what has been rebuilt. -/
def adopt (t rebuilt : Tree α) : Tree α :=
  { t with root := rebuilt.root, size := rebuilt.size, nextOrdinal := rebuilt.nextOrdinal }

theorem reconstructFromCanonical_invalid {t : Tree α} {entries : List (Range × α)}
    (hv : ¬∀ e ∈ entries, e.1.isValid) :
    t.reconstructFromCanonical entries = some
      { tree := t, result := .error (.invalidArgument "canonical entries contain an invalid range") } := by
  have hany : (entries.any fun e => !e.1.isValid) = true := by simpa using hv
  simp only [reconstructFromCanonical, hany]
  rfl

theorem reconstructFromCanonical_valid {t t' : Tree α} {entries : List (Range × α)}
    (hv : ∀ e ∈ entries, e.1.isValid)
    (h : t.rebuild t.scratch entries = some t') :
    t.reconstructFromCanonical entries = some { tree := t.adopt t', result := .ok () } := by
  have hany : (entries.any fun e => !e.1.isValid) = false := by simpa using hv
  rw [scratch] at h
  simp only [reconstructFromCanonical, hany, h, Option.bind_eq_bind, Option.bind_some]
  rfl

/-- The mutation returns and leaves a well-formed tree with the same settings. -/
def Keeps (t : Tree α) (result : Option (Outcome α β)) : Prop :=
  ∃ o, result = some o ∧ o.tree.Wellformed ∧ t.SameSettings o.tree

/-- A rejected or idle mutation leaves the tree as it is. -/
theorem Wellformed.keeps {t : Tree α} {x : Option (Outcome α β)} (h : t.Wellformed)
    (hx : x = some ⟨t, calls, result⟩) : t.Keeps x :=
  ⟨_, hx, h, .refl t⟩

theorem Mutated.keeps {t : Tree α} {value : β} (h : t.Mutated kept l affected value o)
    (hx : x = some o) : t.Keeps x :=
  ⟨o, hx, h.wellformed, h.settings⟩

theorem Keeps.map {t : Tree α} {x : Option (Outcome α β)} (h : t.Keeps x) {f : Outcome α β → Outcome α γ}
    (hf : ∀ o, (f o).tree = o.tree) : t.Keeps (x.map f) := by
  obtain ⟨o, rfl, hwf, hset⟩ := h
  exact ⟨f o, rfl, (hf o).symm ▸ hwf, (hf o).symm ▸ hset⟩

section
variable {t : Tree α}

def rejected (t : Tree α) : Outcome α β :=
  { tree := t, result := .error (.invalidArgument "range is invalid") }

theorem insertEntry_invalid (hv : entry.range.isValid = false) :
    t.insertEntry entry = some t.rejected := by
  simp [insertEntry, hv, rejected]

theorem add_invalid (hv : range.isValid = false) : t.add range value cb = some t.rejected := by
  simp [add, hv, rejected]

theorem removeByRange_invalid (hv : range.isValid = false) :
    t.removeByRange range matcher = some t.rejected := by
  simp [removeByRange, hv, rejected]

theorem removeByRange_none (hv : range.isValid) (hf : t.findExactEntry range matcher = none) :
    t.removeByRange range matcher = some { tree := t, result := .ok false } := by
  simp [removeByRange, hv, hf]

theorem removeAllOverlapping_invalid (hv : range.isValid = false) :
    t.removeAllOverlapping range = some t.rejected := by
  simp [removeAllOverlapping, hv, rejected]

theorem insertEntry_keeps (hcmp : WeakComparator t.canonicalComparator) (h : t.Wellformed)
    (hord : e.ordinal = t.nextOrdinal) : t.Keeps (t.insertEntry e) := by
  by_cases hv : e.range.isValid
  · obtain ⟨o, l, hins, -, -, hm⟩ := insertEntry_spec hcmp h hv hord
    exact hm.keeps hins
  · exact h.keeps (insertEntry_invalid (by simpa using hv))

theorem add_keeps (hcmp : WeakComparator t.canonicalComparator) (h : t.Wellformed) :
    t.Keeps (t.add range value cb) := by
  unfold add
  split
  · exact h.keeps rfl
  · exact insertEntry_keeps hcmp h rfl

theorem addWithTopology_keeps (hcmp : WeakComparator t.canonicalComparator) (h : t.Wellformed) :
    t.Keeps (t.addWithTopology range value cb) := by
  unfold addWithTopology
  cases t.queryTopology range value with
  | error exn => exact h.keeps rfl
  | ok topology =>
    obtain ⟨o, ho, hwf, hset⟩ := insertEntry_keeps hcmp h
      (e := { range, value, ordinal := t.nextOrdinal, onStateChange := cb }) rfl
    exact ⟨_, by rw [ho]; rfl, hwf, hset⟩

theorem removeByRange_keeps (hcmp : WeakComparator t.canonicalComparator) (h : t.Wellformed) :
    t.Keeps (t.removeByRange range matcher) := by
  by_cases hv : range.isValid
  · cases hf : t.findExactEntry range matcher with
    | none => exact h.keeps (removeByRange_none hv hf)
    | some target =>
      obtain ⟨o, hrem, -, hm⟩ := removeByRange_spec hcmp h hv hf
      exact hm.keeps hrem
  · exact h.keeps (removeByRange_invalid (by simpa using hv))

theorem removeAllOverlapping_idle (hv : range.isValid) (hne : t.targetsOf range = []) :
    t.removeAllOverlapping range = some { tree := t, result := .ok 0 } := by
  have hemp : (t.targetsOf range).isEmpty = true := by simpa using hne
  simp only [removeAllOverlapping, hv, hemp]
  rfl

theorem removeAllOverlapping_keeps (hcmp : WeakComparator t.canonicalComparator)
    (h : t.Wellformed) : t.Keeps (t.removeAllOverlapping range) := by
  by_cases hv : range.isValid
  · by_cases hne : t.targetsOf range = []
    · exact h.keeps (removeAllOverlapping_idle hv hne)
    · obtain ⟨o, hrem, -, hm⟩ := removeAllOverlapping_spec hcmp h hv hne
      exact hm.keeps hrem
  · exact h.keeps (removeAllOverlapping_invalid (by simpa using hv))

theorem reconstructFromCanonical_keeps (hcmp : WeakComparator t.canonicalComparator)
    (h : t.Wellformed) : t.Keeps (t.reconstructFromCanonical items) := by
  by_cases hv : ∀ e ∈ items, e.1.isValid = true
  · have hscratch : t.scratch.Wellformed := .empty rfl rfl
    obtain ⟨t', ht', hwf, hset, -⟩ := rebuild_spec (t := t) (u := t.scratch) (d := [])
      (P := fun _ _ => True) (fun _ _ _ _ _ _ => trivial) hcmp hscratch hv trivial
    exact ⟨_, reconstructFromCanonical_valid hv ht', hwf.congr rfl rfl rfl hset.comparator.symm,
      ⟨rfl, rfl, rfl⟩⟩
  · exact h.keeps (reconstructFromCanonical_invalid hv)

theorem registerStateCallback_tree (t : Tree α) (accepts : α → Bool) (context : Nat)
    (callback : Nat → α → OverlayState → OverlayState → CallbackOutcome) :
    (t.registerStateCallback accepts context callback).tree = { t with
      callbackRegistrations :=
        (t.registerStateCallback accepts context callback).tree.callbackRegistrations
      nextCallbackRegistrationId :=
        (t.registerStateCallback accepts context callback).tree.nextCallbackRegistrationId } := by
  unfold registerStateCallback
  split <;> rfl

/-- What `unregisterStateCallback` leaves of an entry. -/
def detach (registration : Nat) (e : Entry α) : Entry α :=
  if e.callbackRegistrationId = registration then
    { e with onStateChange := none, callbackRegistrationId := 0 }
  else e

theorem detach_sameItem (registration : Nat) (e : Entry α) :
    (detach registration e).SameItem e := by
  unfold detach
  split <;> exact ⟨rfl, rfl, rfl⟩

theorem unregisterStateCallback_tree (t : Tree α) (registration : Nat) :
    t.unregisterStateCallback registration = t ∨
      t.unregisterStateCallback registration = { t.mapEntries (detach registration) with
        callbackRegistrations := t.callbackRegistrations.eraseP (·.id == registration) } := by
  unfold unregisterStateCallback
  split
  · exact .inr rfl
  · exact .inl rfl

theorem apply_keeps (hcmp : WeakComparator t.canonicalComparator) (h : t.Wellformed) (op : Op α) :
    t.Keeps (t.apply op) := by
  cases op with
  | add range value cb => exact (add_keeps hcmp h).map fun _ => rfl
  | addWithTopology range value cb => exact (addWithTopology_keeps hcmp h).map fun _ => rfl
  | removeByRange range matcher => exact (removeByRange_keeps hcmp h).map fun _ => rfl
  | removeAllOverlapping range => exact (removeAllOverlapping_keeps hcmp h).map fun _ => rfl
  | clear => exact ⟨_, rfl, .empty rfl rfl, ⟨rfl, rfl, rfl⟩⟩
  | enumerateCanonicalMove order => exact ⟨_, rfl, .empty rfl rfl, ⟨rfl, rfl, rfl⟩⟩
  | reconstructFromCanonical items => exact (reconstructFromCanonical_keeps hcmp h).map fun _ => rfl
  | registerStateCallback accepts context callback =>
    refine ⟨_, rfl, ?_⟩
    rw [Outcome.reply, registerStateCallback_tree]
    exact ⟨h.congr rfl rfl rfl rfl, ⟨rfl, rfl, rfl⟩⟩
  | unregisterStateCallback registration =>
    refine ⟨_, rfl, ?_⟩
    rcases unregisterStateCallback_tree t registration with heq | heq <;> simp only [heq]
    · exact ⟨h, .refl t⟩
    · exact ⟨(h.mapEntries (detach_sameItem registration)).congr rfl rfl rfl rfl, ⟨rfl, rfl, rfl⟩⟩

end

/-- Every history of mutations runs to its end on a well-formed tree, and
leaves one. -/
theorem run_wellformed {t : Tree α} (hcmp : WeakComparator t.canonicalComparator)
    (h : t.Wellformed) (ops : List (Op α)) :
    ∃ t', t.run ops = some t' ∧ t'.Wellformed ∧ t.SameSettings t' := by
  induction ops generalizing t with
  | nil => exact ⟨t, rfl, h, .refl t⟩
  | cons op ops ih =>
    obtain ⟨o, ho, hwf, hset⟩ := apply_keeps hcmp h op
    obtain ⟨t', ht', hwf', hset'⟩ := ih (hset.weakComparator hcmp) hwf
    exact ⟨t', by simp [run, ho, ht'], hwf', hset.trans hset'⟩

/-- The tree of the constructor. -/
def constructed (canonicalComparator : Option (Range → Range → Bool))
    (priorityEvaluator : Option (α → α → Bool)) : Tree α :=
  { canonicalComparator, priorityEvaluator }

/-- Whatever is done to a tree from its construction on, it is a sorted,
balanced, exactly counted B-tree with exact endpoint metadata. -/
theorem history_wellformed (comparator : Option (Range → Range → Bool))
    (evaluator : Option (α → α → Bool)) (hcmp : WeakComparator comparator) (ops : List (Op α)) :
    ∃ t, (constructed comparator evaluator).run ops = some t ∧ t.Wellformed := by
  have hempty : (constructed comparator evaluator).Wellformed := .empty rfl rfl
  obtain ⟨t, ht, hwf, -⟩ := run_wellformed hcmp hempty ops
  exact ⟨t, ht, hwf⟩

theorem history_wellformed_default :
    ∃ t, (constructed (α := Nat) (some defaultRangeLess) (some fun a b => a < b)).run
      [.add ⟨0, 9⟩ 1 none, .add ⟨0, 9⟩ 2 none, .removeByRange ⟨0, 9⟩ none] = some t ∧ t.Wellformed :=
  history_wellformed _ _ weakComparator_default _

end Tree
end Dmn.IntervalBTree
