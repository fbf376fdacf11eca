import Dmn.IntervalBTree.Query

/-!
# Overlay states are current

A mutation recomputes the states of the entries that overlap what came in or
went out. No other computed state can have changed, so the stored states are
always the computed ones, and the callbacks announce exactly the differences.
-/

namespace Dmn.IntervalBTree

open Lib

variable {α : Type}

/-- The mutations that announce state changes. -/
def Op.notifies : Op α → Bool
  | .add .. | .addWithTopology .. | .removeByRange .. | .removeAllOverlapping .. => true
  | _ => false

namespace Tree

/-- Every stored state is the one computed from scratch. -/
def Current (t : Tree α) : Prop :=
  ∀ e ∈ t.entries, e.state = overlayState t.priorityEvaluator t.entries e

/-- The surviving entries with a callback whose computed state differs, in the
order of the listing before the mutation. -/
def notifications (prio : Option (α → α → Bool)) (before after : List (Entry α)) :
    List (StateChange α) :=
  before.filterMap fun e =>
    if after.any (·.ordinal == e.ordinal) && e.onStateChange.isSome &&
        overlayState prio before e != overlayState prio after e then
      some ⟨e, overlayState prio before e, overlayState prio after e⟩
    else none

theorem overlayState_of_overlapsOf (h : overlapsOf l e = overlapsOf l' e)
    (prio : Option (α → α → Bool)) : overlayState prio l e = overlayState prio l' e := by
  simp only [overlayState, h]

/-- Without an exception every collected transition with a callback is announced. -/
theorem dispatch_eq {changes : List (StateChange α)} (h : (dispatch changes).2 = false) :
    (dispatch changes).1 = changes.filter fun c => c.entry.onStateChange.isSome := by
  induction changes with
  | nil => rfl
  | cons c cs ih =>
    unfold dispatch at h ⊢
    cases hcb : c.entry.onStateChange with
    | none =>
      simp only [hcb] at h ⊢
      simp [ih h, hcb]
    | some cb =>
      simp only [hcb] at h ⊢
      cases hout : cb c.entry.range c.entry.value c.oldState c.newState with
      | returned =>
        simp only [hout] at h ⊢
        simp [ih h, hcb]
      | threw => simp [hout] at h

/-- A mutation touches no computed state but those of the affected entries. -/
structure Local (t : Tree α) (kept l : List (Entry α)) (affected : Entry α → Bool) : Prop where
  kept_eq : kept = t.entries.filter fun e => l.any (·.ordinal == e.ordinal)
  survives : ∀ e ∈ l, affected e = false → e ∈ t.entries
  same : ∀ e, affected e = false → overlapsOf l e = overlapsOf t.entries e

section
variable {t : Tree α} {value : β} {o : Outcome α β}

theorem Mutated.overlayState_eq (hm : t.Mutated kept l affected value o) (prio : Option (α → α → Bool))
    (e : Entry α) : overlayState prio o.tree.entries e = overlayState prio l e := by
  rw [hm.entries]
  exact overlayState_map (restate_sameItem _ _ _) _ _ (.refl e)

theorem Mutated.current (hm : t.Mutated kept l affected value o) (hl : t.Local kept l affected)
    (hc : t.Current) : o.tree.Current := by
  intro e' he'
  rw [hm.overlayState_eq, hm.settings.priority]
  rw [hm.entries] at he'
  obtain ⟨e, he, rfl⟩ := List.mem_map.mp he'
  rw [overlayState_congr _ _ (restate_sameItem _ _ _ e), restate]
  cases ha : affected e
  · rw [if_neg (by simp), hc e (hl.survives e he ha)]
    exact overlayState_of_overlapsOf (hl.same e ha).symm _
  · rw [if_pos rfl]

/-- The saved states were current, so the transitions are the differences. -/
theorem Local.transitions (hl : t.Local kept l affected) (hc : t.Current) :
    (transitionsOf t.priorityEvaluator l (saved (kept.filter affected))).filter
        (fun c => c.entry.onStateChange.isSome) =
      notifications t.priorityEvaluator t.entries l := by
  rw [transitionsOf, saved, List.filterMap_map, List.filter_filterMap, hl.kept_eq,
    List.filter_filter, List.filterMap_filter, notifications]
  refine List.filterMap_congr fun e he => ?_
  have hstate := hc e he
  cases ha : affected e
  · simp [overlayState_of_overlapsOf (hl.same e ha)]
  · by_cases hs : overlayState t.priorityEvaluator t.entries e = overlayState t.priorityEvaluator l e <;>
      cases hcb : e.onStateChange <;>
      by_cases hsv : l.any (·.ordinal == e.ordinal) <;>
      simp [hstate, hs, hcb, hsv]

theorem notifications_congr (prio : Option (α → α → Bool)) (before : List (Entry α))
    {f : Entry α → Entry α} (hf : ∀ e, (f e).SameItem e) (l : List (Entry α)) :
    notifications prio before (l.map f) = notifications prio before l := by
  refine List.filterMap_congr fun e _ => ?_
  have hany : (l.map f).any (·.ordinal == e.ordinal) = l.any (·.ordinal == e.ordinal) := by
    simp [List.any_map, Function.comp_def, (hf _).ordinal]
  rw [hany, overlayState_map hf prio l (.refl e)]

theorem Mutated.calls_eq (hm : t.Mutated kept l affected value o) (hl : t.Local kept l affected)
    (hc : t.Current) (hs : t.suppressCallbacks = false) (hthrow : o.result ≠ .error .callback) :
    o.calls = notifications t.priorityEvaluator t.entries o.tree.entries := by
  have hnot : (dispatch (transitionsOf t.priorityEvaluator l (saved (kept.filter affected)))).2 =
      false := by
    cases hd : (dispatch (transitionsOf t.priorityEvaluator l (saved (kept.filter affected)))).2
    · rfl
    · refine absurd ?_ hthrow
      rw [hm.result, hs]
      exact if_pos hd
  rw [hm.entries, notifications_congr _ _ (restate_sameItem _ _ _), ← hl.transitions hc,
    ← dispatch_eq hnot, hm.calls, hs]
  rfl

end

theorem Local.insert {t : Tree α} (hat : InsertedAt t.less entry t.entries l)
    (hv : entry.range.isValid) : t.Local t.entries l (·.range.overlaps entry.range) := by
  obtain ⟨l1, l2, heq, rfl, -, -⟩ := hat
  refine ⟨?_, ?_, ?_⟩
  · refine (List.filter_eq_self.mpr fun e he => ?_).symm
    rw [heq] at he
    simp only [List.any_eq_true, beq_iff_eq]
    exact ⟨e, by simp only [List.mem_append, List.mem_cons] at he ⊢; tauto, rfl⟩
  · intro e he ha
    rcases List.mem_append.mp he with he | he
    · simp [heq, he]
    · rcases List.mem_cons.mp he with rfl | he
      · simp [range_overlaps_self hv] at ha
      · simp [heq, he]
  · intro e ha
    rw [heq, overlapsOf, overlapsOf, List.filter_append, List.filter_cons_of_neg (by simp [ha]),
      List.filter_append]

/-- An entry that overlaps no target keeps its overlaps. -/
theorem Local.erase {t : Tree α} {targets : List (Entry α)} {affected : Entry α → Bool}
    (hwf : t.Wellformed) (hsub : ∀ x ∈ targets, x ∈ t.entries)
    (ha : ∀ e, affected e = false → ∀ x ∈ targets, e.range.overlaps x.range = false) :
    t.Local (without targets t.entries) (without targets t.entries) affected := by
  refine ⟨?_, fun e he _ => List.mem_of_mem_filter he, ?_⟩
  · refine List.filter_congr fun e he => ?_
    rw [Bool.eq_iff_iff]
    simp only [without, List.any_filter, List.any_eq_true, Bool.and_eq_true, beq_iff_eq]
    constructor
    · exact fun hne => ⟨e, he, hne, rfl⟩
    · rintro ⟨x, hx, hne, hord⟩
      exact hwf.unique hx he hord ▸ hne
  · intro e hne
    rw [overlapsOf, without, List.filter_filter, overlapsOf]
    refine List.filter_congr fun x hx => ?_
    by_cases hx' : targets.any (·.ordinal == x.ordinal) = true
    · obtain ⟨y, hy, hord⟩ := List.any_eq_true.mp hx'
      obtain rfl := hwf.unique (hsub y hy) hx (by simpa using hord)
      simp [ha e hne y hy]
    · simp [hx']

section
variable {t : Tree α}

/-- A mutation leaves current states and announces exactly the differences. -/
def Exact (t : Tree α) (x : Option (Outcome α β)) : Prop :=
  ∃ o, x = some o ∧ o.tree.Current ∧ (t.suppressCallbacks = false → o.result ≠ .error .callback →
    o.calls = notifications t.priorityEvaluator t.entries o.tree.entries)

theorem Mutated.exact {value : β} (hm : t.Mutated kept l affected value o)
    (hl : t.Local kept l affected) (hc : t.Current) (hx : x = some o) : t.Exact x :=
  ⟨o, hx, hm.current hl hc, hm.calls_eq hl hc⟩

/-- Nothing changes, and there is nothing to announce. -/
theorem Current.exact {x : Option (Outcome α β)} (hc : t.Current)
    (hx : x = some ⟨t, [], result⟩) : t.Exact x :=
  ⟨_, hx, hc, fun _ _ => (List.filterMap_eq_nil_iff.mpr fun e _ => by simp).symm⟩

theorem Exact.map {x : Option (Outcome α β)} (h : t.Exact x) {f : Outcome α β → Outcome α γ}
    (htree : ∀ o, (f o).tree = o.tree) (hcalls : ∀ o, (f o).calls = o.calls)
    (hres : ∀ o, (f o).result ≠ .error .callback → o.result ≠ .error .callback) :
    t.Exact (x.map f) := by
  obtain ⟨o, rfl, hc, hex⟩ := h
  refine ⟨f o, rfl, (htree o).symm ▸ hc, fun hs hthrow => ?_⟩
  rw [htree, hcalls]
  exact hex hs (hres o hthrow)

theorem insertEntry_exact (hcmp : WeakComparator t.canonicalComparator) (hwf : t.Wellformed)
    (hc : t.Current) (hord : e.ordinal = t.nextOrdinal) : t.Exact (t.insertEntry e) := by
  cases hv : e.range.isValid with
  | false => exact hc.exact (insertEntry_invalid hv)
  | true =>
    obtain ⟨o, l, hins, hat, -, hm⟩ := insertEntry_spec hcmp hwf hv hord
    exact hm.exact (.insert hat hv) hc hins

theorem removeByRange_exact (hcmp : WeakComparator t.canonicalComparator) (hwf : t.Wellformed)
    (hc : t.Current) : t.Exact (t.removeByRange range matcher) := by
  cases hv : range.isValid with
  | false => exact hc.exact (removeByRange_invalid hv)
  | true =>
    cases hf : t.findExactEntry range matcher with
    | none => exact hc.exact (removeByRange_none hv hf)
    | some target =>
      obtain ⟨o, hrem, -, hm⟩ := removeByRange_spec hcmp hwf hv hf
      refine hm.exact (.erase hwf ?_ ?_) hc hrem
      · simpa using List.mem_of_find?_eq_some hf
      · simp

theorem removeAllOverlapping_exact (hcmp : WeakComparator t.canonicalComparator)
    (hwf : t.Wellformed) (hc : t.Current) : t.Exact (t.removeAllOverlapping range) := by
  cases hv : range.isValid with
  | false => exact hc.exact (removeAllOverlapping_invalid hv)
  | true =>
    by_cases hne : t.targetsOf range = []
    · exact hc.exact (removeAllOverlapping_idle hv hne)
    · obtain ⟨o, hrem, -, hm⟩ := removeAllOverlapping_spec hcmp hwf hv hne
      refine hm.exact (.erase hwf (fun x hx => List.mem_of_mem_filter hx) ?_) hc hrem
      intro e he x hx
      simpa using List.any_eq_false.mp he x hx

theorem addWithTopology_exact (hcmp : WeakComparator t.canonicalComparator) (hwf : t.Wellformed)
    (hc : t.Current) : t.Exact (t.addWithTopology range value cb) := by
  unfold addWithTopology
  cases t.queryTopology range value with
  | error exn => exact hc.exact rfl
  | ok topology =>
    obtain ⟨o, hins, hc', hex⟩ := insertEntry_exact hcmp hwf hc
      (e := { range, value, ordinal := t.nextOrdinal, onStateChange := cb }) rfl
    refine ⟨_, by rw [hins]; rfl, hc', fun hs hthrow => hex hs fun heq => hthrow ?_⟩
    simp [heq, Except.map]

theorem Outcome.reply_ne_callback {f : β → Reply α} (o : Outcome α β)
    (h : (o.reply f).result ≠ .error .callback) : o.result ≠ .error .callback :=
  fun heq => h (by simp [Outcome.reply, heq, Except.map])

theorem apply_exact (hcmp : WeakComparator t.canonicalComparator) (hwf : t.Wellformed)
    (hc : t.Current) {op : Op α} (hop : op.notifies) : t.Exact (t.apply op) := by
  cases op with
  | add range value cb =>
    refine Exact.map ?_ (fun _ => rfl) (fun _ => rfl) Outcome.reply_ne_callback
    unfold add
    split
    · exact hc.exact rfl
    · exact insertEntry_exact hcmp hwf hc rfl
  | addWithTopology range value cb =>
    exact (addWithTopology_exact hcmp hwf hc).map (fun _ => rfl) (fun _ => rfl)
      Outcome.reply_ne_callback
  | removeByRange range matcher =>
    exact (removeByRange_exact hcmp hwf hc).map (fun _ => rfl) (fun _ => rfl)
      Outcome.reply_ne_callback
  | removeAllOverlapping range =>
    exact (removeAllOverlapping_exact hcmp hwf hc).map (fun _ => rfl) (fun _ => rfl)
      Outcome.reply_ne_callback
  | _ => simp [Op.notifies] at hop

theorem Current.congr {t' : Tree α} (hc : t.Current) (hroot : t'.root = t.root)
    (hprio : t'.priorityEvaluator = t.priorityEvaluator) : t'.Current := by
  have hent : t'.entries = t.entries := by rw [entries, hroot]; rfl
  rw [Current, hent, hprio]
  exact hc

theorem reconstructFromCanonical_current (hcmp : WeakComparator t.canonicalComparator)
    (hc : t.Current) (ho : t.reconstructFromCanonical items = some o) : o.tree.Current := by
  by_cases hv : ∀ e ∈ items, e.1.isValid = true
  · have hscratch : t.scratch.Wellformed := .empty rfl rfl
    have hstart : t.scratch.Current := fun e he => by cases he
    have hstep : ∀ {r o l item}, r.Wellformed → item.1.isValid = true → r.Current →
        InsertedAt r.less (reconstructed t r item) r.entries l →
        o.tree.nextOrdinal = r.nextOrdinal + 1 →
        r.Mutated r.entries l (·.range.overlaps item.1) true o → o.tree.Current := by
      intro r o l item _ hvi hcr hat _ hm
      have hl := Local.insert hat (show (reconstructed t r item).range.isValid from hvi)
      exact hm.current hl hcr
    obtain ⟨t', ht', hwf, hset, hc'⟩ := rebuild_spec (t := t) (u := t.scratch) (d := [])
      (P := fun r _ => r.Current) (fun {_ _ _ _ _} => hstep) hcmp hscratch hv hstart
    obtain rfl := Option.some.inj ((reconstructFromCanonical_valid hv ht').symm.trans ho)
    exact hc'.congr rfl hset.priority.symm
  · obtain rfl := Option.some.inj ((reconstructFromCanonical_invalid hv).symm.trans ho)
    exact hc

theorem apply_current (hcmp : WeakComparator t.canonicalComparator) (hwf : t.Wellformed)
    (hc : t.Current) {op : Op α} (ho : t.apply op = some o) : o.tree.Current := by
  by_cases hop : op.notifies
  · obtain ⟨o', ho', hc', -⟩ := apply_exact hcmp hwf hc hop
    exact Option.some.inj (ho'.symm.trans ho) ▸ hc'
  · cases op with
    | reconstructFromCanonical items =>
      obtain ⟨o', ho', rfl⟩ := Option.map_eq_some_iff.mp ho
      exact reconstructFromCanonical_current hcmp hc ho'
    | clear =>
      obtain rfl := Option.some.inj ho
      exact fun e he => by cases he
    | enumerateCanonicalMove order =>
      obtain rfl := Option.some.inj ho
      exact fun e he => by cases he
    | registerStateCallback accepts context callback =>
      obtain rfl := Option.some.inj ho
      rw [Outcome.reply, registerStateCallback_tree]
      exact hc.congr rfl rfl
    | unregisterStateCallback registration =>
      obtain rfl := Option.some.inj ho
      rcases unregisterStateCallback_tree t registration with heq | heq <;> simp only [heq]
      · exact hc
      · intro e' he'
        change e' ∈ (t.mapEntries (detach registration)).entries at he'
        rw [entries_mapEntries] at he'
        obtain ⟨e, he, rfl⟩ := List.mem_map.mp he'
        have hstate : (detach registration e).state = e.state := by
          unfold detach
          split <;> rfl
        change _ = overlayState t.priorityEvaluator (t.mapEntries (detach registration)).entries _
        rw [entries_mapEntries, overlayState_map (detach_sameItem registration) _ _
          (detach_sameItem registration e), hstate]
        exact hc e he
    | _ => simp [Op.notifies] at hop

theorem run_current (hcmp : WeakComparator t.canonicalComparator) (hwf : t.Wellformed)
    (hc : t.Current) (ops : List (Op α)) :
    ∃ t', t.run ops = some t' ∧ t'.Wellformed ∧ t.SameSettings t' ∧ t'.Current := by
  induction ops generalizing t with
  | nil => exact ⟨t, rfl, hwf, .refl t, hc⟩
  | cons op ops ih =>
    obtain ⟨o, ho, hwf', hset⟩ := apply_keeps hcmp hwf op
    obtain ⟨t', ht', hwf'', hset', hc'⟩ :=
      ih (hset.weakComparator hcmp) hwf' (apply_current hcmp hwf hc ho)
    exact ⟨t', by simp [run, ho, ht'], hwf'', hset.trans hset', hc'⟩

end

/-- After any history the stored states are the computed ones, and an addition
or removal whose callbacks return announces exactly the differences it makes. -/
theorem history_current (comparator : Option (Range → Range → Bool))
    (evaluator : Option (α → α → Bool)) (hcmp : WeakComparator comparator) (ops : List (Op α)) :
    ∃ t, (constructed comparator evaluator).run ops = some t ∧ t.Current ∧
      ∀ op : Op α, op.notifies → ∃ o, t.apply op = some o ∧ o.tree.Current ∧
        (o.result ≠ .error .callback →
          o.calls = notifications evaluator t.entries o.tree.entries) := by
  have hempty : (constructed comparator evaluator).Wellformed := .empty rfl rfl
  obtain ⟨t, ht, hwf, hset, hc⟩ := run_current hcmp hempty (fun e he => by cases he) ops
  refine ⟨t, ht, hc, fun op hop => ?_⟩
  obtain ⟨o, ho, hc', hex⟩ := apply_exact (hset.weakComparator hcmp) hwf hc hop
  refine ⟨o, ho, hc', fun hthrow => ?_⟩
  rw [hex hset.suppress hthrow, hset.priority]
  rfl

theorem history_current_default :
    ∃ t, (constructed (α := Nat) (some defaultRangeLess) (some fun a b => a < b)).run
        [.add ⟨0, 9⟩ 1 none, .add ⟨2, 3⟩ 2 none] = some t ∧ t.Current ∧
      ∀ op : Op Nat, op.notifies → ∃ o, t.apply op = some o ∧ o.tree.Current ∧
        (o.result ≠ .error .callback →
          o.calls = notifications (some fun a b => a < b) t.entries o.tree.entries) :=
  history_current _ _ weakComparator_default _

end Tree
end Dmn.IntervalBTree
