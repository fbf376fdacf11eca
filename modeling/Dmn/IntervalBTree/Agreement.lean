import Dmn.IntervalBTree.Overlay

/-!
# The query, the insertion and the stored state

`queryTopology` asks the tree before an insertion what `insertEntry` computes from the listing
after it. They agree, and `addWithTopology` returns the one and stores the other.
-/

namespace Dmn.IntervalBTree

open Lib

variable {α : Type}

/-- The entry's callback threw. -/
def StateChange.Threw (change : StateChange α) : Prop :=
  ∃ callback, change.entry.onStateChange = some callback ∧
    callback change.entry.range change.entry.value change.oldState change.newState = .threw

namespace Tree

variable {t : Tree α}

theorem dispatch_threw {changes : List (StateChange α)} (h : (dispatch changes).2 = true) :
    ∃ change ∈ (dispatch changes).1, change.Threw := by
  induction changes with
  | nil => cases h
  | cons c cs ih =>
    unfold dispatch at h ⊢
    cases hcb : c.entry.onStateChange with
    | none =>
      simp only [hcb] at h
      exact ih h
    | some cb =>
      simp only [hcb] at h ⊢
      cases hout : cb c.entry.range c.entry.value c.oldState c.newState with
      | returned =>
        simp only [hout] at h ⊢
        obtain ⟨change, hmem, hthrew⟩ := ih h
        exact ⟨change, List.mem_cons_of_mem _ hmem, hthrew⟩
      | threw => exact ⟨c, List.mem_cons_self, cb, hcb, hout⟩

theorem Mutated.result_ok {value : β} (hm : t.Mutated kept l affected value o)
    (hreturned : ∀ change ∈ o.calls, ¬ change.Threw) : o.result = .ok value := by
  rw [hm.result]
  rw [hm.calls] at hreturned
  split
  · rename_i h
    obtain ⟨hs, hd⟩ := Bool.and_eq_true_iff.mp h
    rw [if_neg (by simpa using hs)] at hreturned
    obtain ⟨change, hmem, hthrew⟩ := dispatch_threw hd
    exact absurd hthrew (hreturned change hmem)
  · rfl

/-- The pruned traversal finds the entries that overlap, in order. -/
theorem queryTopology_eq (h : t.Wellformed) (hv : range.isValid) (value : α) :
    t.queryTopology range value = .ok
      { overlappingEntries := (t.targetsOf range).map fun e => (e.range, e.value)
        status := classifyTopology range ((t.targetsOf range).map Entry.range)
        isTop := match t.priorityEvaluator with
          | some higher => !(t.targetsOf range).any fun e => higher e.value value
          | none => true } := by
  simp only [queryTopology, findOverlapping, forEachOverlapping_eq h hv, bind, Except.bind, pure,
    Except.pure, List.map_map, List.any_map]
  rfl

/-- What overlaps the new entry after the insertion overlapped its range before. -/
theorem overlapsOf_inserted (h : t.Wellformed) (hat : InsertedAt t.less k t.entries l)
    (hord : k.ordinal = t.nextOrdinal) : overlapsOf l k = t.targetsOf k.range := by
  obtain ⟨l1, l2, heq, rfl, -, -⟩ := hat
  have hother : ∀ e ∈ t.entries, (e.ordinal != k.ordinal && k.range.overlaps e.range) =
      e.range.overlaps k.range := fun e he => by
    have hne : e.ordinal ≠ k.ordinal := by
      have := h.below e he
      omega
    rw [bne_iff_ne.mpr hne, Bool.true_and, Range.overlaps_comm]
  rw [overlapsOf, List.filter_append, List.filter_cons_of_neg (by simp), ← List.filter_append,
    ← heq]
  exact List.filter_congr hother

theorem overlayState_inserted (h : t.Wellformed) (hat : InsertedAt t.less k t.entries l)
    (hord : k.ordinal = t.nextOrdinal) (hv : k.range.isValid) {topology : TopologyResult α}
    (hq : t.queryTopology k.range k.value = .ok topology) :
    overlayState t.priorityEvaluator l k = ⟨topology.status, topology.isTop⟩ := by
  rw [queryTopology_eq h hv] at hq
  cases hq
  cases hp : t.priorityEvaluator <;> simp [overlayState, overlapsOf_inserted h hat hord]

/-- What a query says before an insertion is what the insertion returns and stores. -/
structure Agree (t : Tree α) (range : Range) (value : α) (topology : TopologyResult α)
    (o : Outcome α (Bool × TopologyResult α)) : Prop where
  stored : ∃ e ∈ o.tree.entries, e.ordinal = t.nextOrdinal ∧
    (∀ x ∈ t.entries, x.ordinal ≠ e.ordinal) ∧ e.range = range ∧ e.value = value ∧
    e.state = ⟨topology.status, topology.isTop⟩
  only : ∀ e ∈ o.tree.entries, (∀ x ∈ t.entries, x.ordinal ≠ e.ordinal) →
    e.ordinal = t.nextOrdinal
  returned : (∀ change ∈ o.calls, ¬ change.Threw) → o.result = .ok (true, topology)
  result : ∀ reply, o.result = .ok reply → reply = (true, topology)

theorem addWithTopology_agree (hcmp : WeakComparator t.canonicalComparator) (h : t.Wellformed)
    (hv : range.isValid) (hq : t.queryTopology range value = .ok topology)
    (cb : Option (StateChangeCallback α)) :
    ∃ o, t.addWithTopology range value cb = some o ∧ t.Agree range value topology o := by
  obtain ⟨o, l, hins, hat, -, hm⟩ := insertEntry_spec hcmp h
    (k := { range, value, ordinal := t.nextOrdinal, onStateChange := cb }) hv rfl
  have hperm := hat.perm
  refine ⟨_, by rw [addWithTopology, hq]; simp only [hins]; rfl, ?_, ?_, ?_, ?_⟩
  · refine ⟨_, by rw [hm.entries]; exact List.mem_map_of_mem (hperm.mem_iff.mpr List.mem_cons_self),
      ?_⟩
    rw [restate, if_pos (range_overlaps_self hv)]
    refine ⟨rfl, fun x hx => (h.below x hx).ne, rfl, rfl, ?_⟩
    exact overlayState_inserted h hat rfl hv hq
  · intro e he hnew
    rw [hm.entries] at he
    obtain ⟨x, hx, rfl⟩ := List.mem_map.mp he
    have hsame := restate_sameItem t.priorityEvaluator l (·.range.overlaps range) x
    rw [hsame.ordinal] at hnew ⊢
    rcases List.mem_cons.mp (hperm.mem_iff.mp hx) with rfl | hx
    · rfl
    · exact absurd rfl (hnew x hx)
  · intro hreturned
    simp [hm.result_ok hreturned, Except.map]
  · intro reply hreply
    have hresult := hm.result
    split at hresult
    · simp [hresult, Except.map] at hreply
    · simpa [hresult, Except.map, eq_comm] using hreply

/-- In every tree that can be built, for every valid range. A query only reads the tree. -/
theorem history_topology (comparator : Option (Range → Range → Bool))
    (evaluator : Option (α → α → Bool)) (hcmp : WeakComparator comparator) (ops : List (Op α)) :
    ∃ t, (constructed comparator evaluator).run ops = some t ∧
      ∀ range value, range.isValid → ∃ topology, t.queryTopology range value = .ok topology ∧
        topology.overlappingEntries =
          (t.entries.filter (·.range.overlaps range)).map (fun e => (e.range, e.value)) ∧
        ∀ cb, ∃ o, t.addWithTopology range value cb = some o ∧
          t.Agree range value topology o := by
  obtain ⟨t, ht, hwf, hset⟩ := run_wellformed (t := constructed comparator evaluator) hcmp
    (.empty rfl rfl) ops
  refine ⟨t, ht, fun range value hv => ⟨_, queryTopology_eq hwf hv value, rfl, fun cb => ?_⟩⟩
  exact addWithTopology_agree (hset.weakComparator hcmp) hwf hv (queryTopology_eq hwf hv value) cb

theorem history_topology_default :
    ∃ t, (constructed (α := Nat) (some defaultRangeLess) (some fun a b => a < b)).run
        [.add ⟨0, 9⟩ 1 none, .add ⟨2, 3⟩ 2 none] = some t ∧
      ∀ range value, range.isValid → ∃ topology, t.queryTopology range value = .ok topology ∧
        topology.overlappingEntries =
          (t.entries.filter (·.range.overlaps range)).map (fun e => (e.range, e.value)) ∧
        ∀ cb, ∃ o, t.addWithTopology range value cb = some o ∧
          t.Agree range value topology o :=
  history_topology _ _ weakComparator_default _

end Tree
end Dmn.IntervalBTree
