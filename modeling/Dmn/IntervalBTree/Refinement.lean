import Dmn.IntervalBTree.Query

/-!
# The tree refines a sorted list

What the tree is for: a list of ranges with their values, in canonical order.
The tree and the list take the same mutations, give the same answers and stay
related by reading the entries of the tree in order.
-/

namespace Dmn.IntervalBTree

open Lib

variable {α : Type}

structure Item (α : Type) where
  range : Range
  value : α
  ordinal : Nat

def Entry.item (e : Entry α) : Item α := ⟨e.range, e.value, e.ordinal⟩

/-- By the comparator, then by the endpoints, then by insertion. -/
def itemLess (comparator : Option (Range → Range → Bool)) : Item α → Item α → Bool :=
  thenBy (fun a b => (comparator.getD fun _ _ => false) a.range b.range)
    (thenBy (fun a b => defaultRangeLess a.range b.range) fun a b => a.ordinal < b.ordinal)

/-- The list, and the ordinal of the next element. -/
structure Reference (α : Type) where
  items : List (Item α) := []
  nextOrdinal : Nat := 0

-- ---------------------------------------------------------------------------
-- Operations on the list
-- ---------------------------------------------------------------------------

namespace Reference

variable (comparator : Option (Range → Range → Bool)) (evaluator : Option (α → α → Bool))

def insert (r : Reference α) (item : Range × α) : Reference α where
  items := r.items.orderedInsert (itemLess comparator · ·) ⟨item.1, item.2, r.nextOrdinal⟩
  nextOrdinal := r.nextOrdinal + 1

def overlapping (r : Reference α) (range : Range) : List (Item α) :=
  r.items.filter (·.range.overlaps range)

def pairs (items : List (Item α)) : List (Range × α) := items.map fun i => (i.range, i.value)

/-- The element a removal is after. -/
def accepts (range : Range) (matcher : Option (α → Bool)) (i : Item α) : Bool :=
  decide (i.range = range) && matcher.all fun m => m i.value

def topology (r : Reference α) (range : Range) (value : α) : TopologyResult α where
  status := classifyTopology range ((r.overlapping range).map Item.range)
  isTop := evaluator.all fun higher => !(r.overlapping range).any fun i => higher i.value value
  overlappingEntries := pairs (r.overlapping range)

def enumerationLess (duplicateOrder : Option (α → α → Bool)) (a b : Item α) : Bool :=
  if a.range = b.range then
    match duplicateOrder with
    | some less => less a.value b.value
    | none => a.ordinal < b.ordinal
  else itemLess comparator a b

def enumerate (r : Reference α) (duplicateOrder : Option (α → α → Bool)) : List (Range × α) :=
  pairs (r.items.insertionSort fun a b => !enumerationLess comparator duplicateOrder b a)

def invalidRange : Exn := .invalidArgument "range is invalid"

/-- A mutation of the list and its reply; about registrations the list has
nothing to say. -/
def apply (r : Reference α) : Op α → Reference α × Option (Except Exn (Reply α))
  | .add range value _ =>
    if range.isValid then (r.insert comparator (range, value), some (.ok (.flag true)))
    else (r, some (.error invalidRange))
  | .addWithTopology range value _ =>
    if range.isValid then
      (r.insert comparator (range, value),
        some (.ok (.topology true (r.topology evaluator range value))))
    else (r, some (.error invalidRange))
  | .removeByRange range matcher =>
    if range.isValid then
      ({ r with items := r.items.eraseP (accepts range matcher) },
        some (.ok (.flag (r.items.any (accepts range matcher)))))
    else (r, some (.error invalidRange))
  | .removeAllOverlapping range =>
    if range.isValid then
      ({ r with items := r.items.filter fun i => !i.range.overlaps range },
        some (.ok (.count (r.overlapping range).length)))
    else (r, some (.error invalidRange))
  | .clear => ({}, some (.ok .done))
  | .enumerateCanonicalMove order => ({}, some (.ok (.entries (r.enumerate comparator order))))
  | .reconstructFromCanonical items =>
    if items.all (·.1.isValid) then (items.foldl (insert comparator) {}, some (.ok .done))
    else (r, some (.error (.invalidArgument "canonical entries contain an invalid range")))
  | .registerStateCallback .. => (r, none)
  | .unregisterStateCallback _ => (r, none)

def run (r : Reference α) (ops : List (Op α)) : Reference α :=
  ops.foldl (fun r op => (r.apply comparator evaluator op).1) r

end Reference

-- ---------------------------------------------------------------------------
-- The listing of the tree, as items
-- ---------------------------------------------------------------------------

theorem itemLess_item (comparator : Option (Range → Range → Bool)) (a b : Entry α) :
    itemLess comparator a.item b.item = canonicalLess comparator a b := rfl

theorem itemLess_strictTotal (h : WeakComparator comparator) :
    StrictTotalOn (itemLess (α := α) comparator) Item.ordinal where
  irrefl i := by
    simp [itemLess, thenBy, h.getD.irrefl, defaultRangeLess_strictTotal.irrefl]
  trans := by
    intro a b c
    exact (canonicalLess_strictTotal h).trans (a := { a with }) (b := { b with }) (c := { c with })
  connected := by
    intro a b
    exact (canonicalLess_strictTotal h).connected (a := { a with }) (b := { b with })

theorem item_eq_of_sameItem {e e' : Entry α} (h : e.SameItem e') : e.item = e'.item := by
  simp only [Entry.item, h.range, h.value, h.ordinal]

theorem map_item_of_sameItem {f : Entry α → Entry α} (hf : ∀ e, (f e).SameItem e)
    (l : List (Entry α)) : (l.map f).map Entry.item = l.map Entry.item := by
  rw [List.map_map]
  exact List.map_congr_left fun e _ => item_eq_of_sameItem (hf e)

namespace Tree

theorem Mutated.items {t : Tree α} {value : β} (h : t.Mutated kept l affected value o) :
    o.tree.entries.map Entry.item = l.map Entry.item := by
  rw [h.entries, map_item_of_sameItem (restate_sameItem _ _ _)]

/-- The tree read in order is the list. -/
structure Refines (t : Tree α) (r : Reference α) : Prop where
  items : t.entries.map Entry.item = r.items
  nextOrdinal : t.nextOrdinal = r.nextOrdinal

/-- The mutation answers as expected, unless a client callback threw. -/
def Answers (result : Except Exn (Reply α)) (expected : Option (Except Exn (Reply α))) : Prop :=
  ∀ reply, expected = some reply → result = reply ∨ result = .error .callback

theorem Answers.of_eq {reply : Except Exn (Reply α)} (h : result = reply) :
    Answers result (some reply) := by
  rintro _ ⟨⟩
  exact .inl h

section
variable {t : Tree α} {r : Reference α}

theorem Refines.overlapping (h : t.Refines r) (range : Range) :
    (t.targetsOf range).map Entry.item = r.overlapping range := by
  rw [Reference.overlapping, ← h.items, List.filter_map]
  rfl

theorem Refines.insert (hcmp : WeakComparator t.canonicalComparator) (h : t.Refines r)
    {o : Outcome α β} {value : β}
    (hat : InsertedAt t.less entry t.entries l) (hord : entry.ordinal = t.nextOrdinal)
    (hnext : o.tree.nextOrdinal = t.nextOrdinal + 1)
    (hm : t.Mutated kept l affected value o) :
    o.tree.Refines (r.insert t.canonicalComparator (entry.range, entry.value)) where
  items := by
    have hat' : InsertedAt (itemLess t.canonicalComparator) entry.item (t.entries.map Entry.item)
        (l.map Entry.item) := hat.map fun a b => by
      rw [itemLess_item, less, entryLess_eq hcmp]
    rw [hm.items, hat'.eq_orderedInsert (itemLess_strictTotal hcmp), h.items, Reference.insert,
      Entry.item, hord, h.nextOrdinal]
  nextOrdinal := by rw [hnext, h.nextOrdinal, Reference.insert]

theorem accepts_item (range : Range) (matcher : Option (α → Bool)) (e : Entry α) :
    Reference.accepts range matcher e.item = (e.range.start == range.start &&
      e.range.end == range.end && match matcher with
        | some accepts => accepts e.value
        | none => true) := by
  have hr : decide (e.range = range) = (e.range.start == range.start && e.range.end == range.end) := by
    rw [decide_eq_decide.mpr Range.eq_iff, Bool.decide_and]
    rfl
  rw [Reference.accepts, show decide (e.item.range = range) = _ from hr]
  cases matcher <;> rfl

theorem findExactEntry_eq (t : Tree α) (range : Range) (matcher : Option (α → Bool)) :
    t.findExactEntry range matcher =
      t.entries.find? (Reference.accepts range matcher ∘ Entry.item) := by
  rw [findExactEntry]
  congr 1
  funext e
  exact (accepts_item range matcher e).symm

theorem eraseP_eq_without (h : t.Wellformed) (hf : t.entries.find? p = some target) :
    t.entries.eraseP p = without [target] t.entries := by
  rw [without_single]
  exact (RemovedAt.of_find? hf).eq_filter h.distinct

theorem without_targetsOf (h : t.Wellformed) (range : Range) :
    without (t.targetsOf range) t.entries = t.entries.filter fun e => !e.range.overlaps range := by
  refine List.filter_congr fun e he => ?_
  have := h.named_filter he (·.range.overlaps range)
  simp only [named, saved, List.any_map, Function.comp_def] at this
  rw [this]

theorem topology_refines (h : t.Refines r) (hwf : t.Wellformed) (hv : range.isValid) (value : α) :
    t.queryTopology range value = .ok (r.topology t.priorityEvaluator range value) := by
  have hfind : t.findOverlapping range = .ok (Reference.pairs (r.overlapping range)) := by
    rw [findOverlapping, forEachOverlapping_eq hwf hv, ← h.overlapping, Reference.pairs, List.map_map]
    rfl
  have hprio : ∀ l : List (Item α), (match t.priorityEvaluator with
      | some higher => !(Reference.pairs l).any fun e => higher e.2 value
      | none => true) = t.priorityEvaluator.all fun higher => !l.any fun i => higher i.value value := by
    intro l
    cases t.priorityEvaluator <;> simp [Reference.pairs, List.any_map, Function.comp_def]
  have hfst : ∀ l : List (Item α), (Reference.pairs l).map Prod.fst = l.map Item.range := by
    simp [Reference.pairs]
  simp only [queryTopology, hfind, bind, Except.bind, pure, Except.pure, hfst, Reference.topology]
  exact congrArg (fun isTop => Except.ok (TopologyResult.mk _ isTop _)) (hprio _)

theorem enumerate_refines (hcmp : WeakComparator t.canonicalComparator) (h : t.Refines r)
    (order : Option (α → α → Bool)) :
    t.enumerateCanonical order = r.enumerate t.canonicalComparator order := by
  have hless : ∀ a b : Entry α, t.enumerationLess order a b =
      Reference.enumerationLess t.canonicalComparator order a.item b.item := by
    intro a b
    by_cases hr : a.range = b.range
    · rw [Reference.enumerationLess.eq_def, if_pos (show a.item.range = b.item.range from hr),
        enumerationLess.eq_def, if_pos (Range.eq_iff.mp hr)]
      rfl
    · rw [Reference.enumerationLess.eq_def, if_neg (show ¬a.item.range = b.item.range from hr),
        enumerationLess.eq_def, if_neg (Range.eq_iff.not.mp hr), itemLess_item, less, entryLess_eq hcmp]
  have hsort := List.map_insertionSort (fun a b => (!t.enumerationLess order b a) = true)
    (fun a b => (!Reference.enumerationLess t.canonicalComparator order b a) = true) Entry.item
    t.entries fun a _ b _ => by rw [hless]
  rw [Reference.enumerate, ← h.items, ← hsort, Reference.pairs, List.map_map]
  rfl

/-- What one mutation does to the tree it does to the list. -/
def StepRefines (t : Tree α) (r : Reference α) (op : Op α) : Prop :=
  ∃ o, t.apply op = some o ∧
    o.tree.Refines (r.apply t.canonicalComparator t.priorityEvaluator op).1 ∧
    Answers o.result (r.apply t.canonicalComparator t.priorityEvaluator op).2

theorem Mutated.answers {value : β} (h : t.Mutated kept l affected value o) {f : β → Reply α} :
    Answers (o.result.map f) (some (.ok (f value))) := by
  rintro _ ⟨⟩
  rw [h.result]
  split
  · exact .inr rfl
  · exact .inl rfl

theorem add_refines (hcmp : WeakComparator t.canonicalComparator) (hwf : t.Wellformed)
    (h : t.Refines r) : t.StepRefines r (.add range value cb) := by
  cases hv : range.isValid with
  | false =>
    refine ⟨_, by rw [apply, add_invalid hv]; rfl, ?_, ?_⟩ <;> simp only [Reference.apply, hv]
    · exact h
    · exact .of_eq rfl
  | true =>
    obtain ⟨o, l, hins, hat, hnext, hm⟩ := insertEntry_spec hcmp hwf
      (k := { range, value, ordinal := t.nextOrdinal, onStateChange := cb }) hv rfl
    refine ⟨o.reply .flag, by simp [apply, add, hv, hins], ?_, ?_⟩ <;>
      simp only [Reference.apply, hv, ↓reduceIte]
    · exact (h.insert hcmp hat rfl hnext hm :)
    · exact hm.answers

theorem addWithTopology_refines (hcmp : WeakComparator t.canonicalComparator) (hwf : t.Wellformed)
    (h : t.Refines r) : t.StepRefines r (.addWithTopology range value cb) := by
  cases hv : range.isValid with
  | false =>
    have hq : t.queryTopology range value = .error Reference.invalidRange := by
      simp [queryTopology, findOverlapping, forEachOverlapping, hv, Reference.invalidRange, bind,
        Except.bind]
    refine ⟨_, by rw [apply, addWithTopology, hq]; rfl, ?_, ?_⟩ <;> simp only [Reference.apply, hv]
    · exact h
    · exact .of_eq rfl
  | true =>
    obtain ⟨o, l, hins, hat, hnext, hm⟩ := insertEntry_spec hcmp hwf
      (k := { range, value, ordinal := t.nextOrdinal, onStateChange := cb }) hv rfl
    refine ⟨_, by rw [apply, addWithTopology, topology_refines h hwf hv]; simp only [hins]; rfl, ?_, ?_⟩ <;>
      simp only [Reference.apply, hv, ↓reduceIte]
    · exact (h.insert hcmp hat rfl hnext hm :)
    · rintro _ ⟨⟩
      simp only [Outcome.reply, hm.result]
      split
      · exact .inr rfl
      · exact .inl rfl

theorem removeByRange_refines (hcmp : WeakComparator t.canonicalComparator) (hwf : t.Wellformed)
    (h : t.Refines r) : t.StepRefines r (.removeByRange range matcher) := by
  cases hv : range.isValid with
  | false =>
    refine ⟨_, by rw [apply, removeByRange_invalid hv]; rfl, ?_, ?_⟩ <;> simp only [Reference.apply, hv]
    · exact h
    · exact .of_eq rfl
  | true =>
    have hitems : r.items.any (Reference.accepts range matcher) =
        (t.findExactEntry range matcher).isSome := by
      rw [← h.items, List.any_map, findExactEntry_eq, List.isSome_find?]
    have herase : r.items.eraseP (Reference.accepts range matcher) =
        (t.entries.eraseP (Reference.accepts range matcher ∘ Entry.item)).map Entry.item := by
      rw [← h.items, List.eraseP_map]
    cases hf : t.findExactEntry range matcher with
    | none =>
      refine ⟨_, by rw [apply, removeByRange_none hv hf]; rfl, ?_, ?_⟩ <;>
        simp only [Reference.apply, hv, ↓reduceIte, hitems, herase, hf]
      · rw [List.eraseP_of_forall_not (List.find?_eq_none.mp (findExactEntry_eq t range matcher ▸ hf)),
          h.items]
        exact h
      · exact .of_eq rfl
    | some target =>
      obtain ⟨o, hrem, hnext, hm⟩ := removeByRange_spec hcmp hwf hv hf
      refine ⟨o.reply .flag, by simp [apply, hrem], ?_, ?_⟩ <;>
        simp only [Reference.apply, hv, ↓reduceIte, hitems, herase, hf]
      · rw [eraseP_eq_without hwf (findExactEntry_eq t range matcher ▸ hf)]
        exact ⟨hm.items, hnext.trans h.nextOrdinal⟩
      · exact hm.answers

theorem removeAllOverlapping_refines (hcmp : WeakComparator t.canonicalComparator)
    (hwf : t.Wellformed) (h : t.Refines r) : t.StepRefines r (.removeAllOverlapping range) := by
  have hcount : (r.overlapping range).length = (t.targetsOf range).length := by
    rw [← h.overlapping, List.length_map]
  have hrest : r.items.filter (fun i => !i.range.overlaps range) =
      (without (t.targetsOf range) t.entries).map Entry.item := by
    rw [without_targetsOf hwf, ← h.items, List.filter_map]
    rfl
  cases hv : range.isValid with
  | false =>
    refine ⟨_, by rw [apply, removeAllOverlapping_invalid hv]; rfl, ?_, ?_⟩ <;>
      simp only [Reference.apply, hv]
    · exact h
    · exact .of_eq rfl
  | true =>
    by_cases hne : t.targetsOf range = []
    · refine ⟨_, by rw [apply, removeAllOverlapping_idle hv hne]; rfl, ?_, ?_⟩ <;>
        simp only [Reference.apply, hv, ↓reduceIte, hcount, hrest, hne]
      · refine ⟨?_, h.nextOrdinal⟩
        simp [without]
        rfl
      · exact .of_eq rfl
    · obtain ⟨o, hrem, hnext, hm⟩ := removeAllOverlapping_spec hcmp hwf hv hne
      refine ⟨o.reply .count, by simp [apply, hrem], ?_, ?_⟩ <;>
        simp only [Reference.apply, hv, ↓reduceIte, hcount, hrest]
      · exact ⟨hm.items, hnext.trans h.nextOrdinal⟩
      · exact hm.answers

theorem reconstructFromCanonical_refines (hcmp : WeakComparator t.canonicalComparator)
    (h : t.Refines r) : t.StepRefines r (.reconstructFromCanonical items) := by
  by_cases hv : ∀ e ∈ items, e.1.isValid = true
  · have hall : items.all (·.1.isValid) = true := by simpa using hv
    have hscratch : t.scratch.Wellformed := .empty rfl rfl
    obtain ⟨t', ht', hwf, hset, hP⟩ := rebuild_spec (t := t) (u := t.scratch) (d := [])
      (P := fun r done => r.canonicalComparator = t.canonicalComparator ∧
        r.Refines (done.foldl (Reference.insert t.canonicalComparator) {}))
      (fun _ _ hP hat hnext hm => by
        refine ⟨hm.settings.comparator.trans hP.1, ?_⟩
        rw [List.foldl_append, List.foldl_cons, List.foldl_nil, ← hP.1]
        rw [← hP.1] at hcmp
        have := hP.2.insert hcmp hat rfl hnext hm
        rw [← hP.1] at this
        exact this)
      hcmp hscratch hv ⟨rfl, rfl, rfl⟩
    refine ⟨Outcome.reply ⟨t.adopt t', [], .ok ()⟩ fun _ => .done, ?_, ?_, ?_⟩
    · rw [apply, reconstructFromCanonical_valid hv ht']
      rfl
    · simp only [Reference.apply, hall, ↓reduceIte]
      exact ⟨hP.2.items, hP.2.nextOrdinal⟩
    · simp only [Reference.apply, hall, ↓reduceIte]
      exact .of_eq rfl
  · have hall : items.all (·.1.isValid) = false := by simpa using hv
    refine ⟨_, by rw [apply, reconstructFromCanonical_invalid hv]; rfl, ?_, ?_⟩ <;>
      simp only [Reference.apply, hall]
    · exact h
    · exact .of_eq rfl

theorem apply_refines (hcmp : WeakComparator t.canonicalComparator) (hwf : t.Wellformed)
    (h : t.Refines r) (op : Op α) : t.StepRefines r op := by
  cases op with
  | add range value cb => exact add_refines hcmp hwf h
  | addWithTopology range value cb => exact addWithTopology_refines hcmp hwf h
  | removeByRange range matcher => exact removeByRange_refines hcmp hwf h
  | removeAllOverlapping range => exact removeAllOverlapping_refines hcmp hwf h
  | clear => exact ⟨_, rfl, ⟨rfl, rfl⟩, .of_eq rfl⟩
  | enumerateCanonicalMove order =>
    refine ⟨_, rfl, ⟨rfl, rfl⟩, .of_eq ?_⟩
    simp only [Outcome.reply, enumerateCanonicalMove, enumerate_refines hcmp h]
    rfl
  | reconstructFromCanonical items => exact reconstructFromCanonical_refines hcmp h
  | registerStateCallback accepts context callback =>
    refine ⟨_, rfl, ?_, by simp [Answers, Reference.apply]⟩
    rw [Outcome.reply, registerStateCallback_tree]
    exact ⟨h.items, h.nextOrdinal⟩
  | unregisterStateCallback registration =>
    refine ⟨_, rfl, ?_, by simp [Answers, Reference.apply]⟩
    rcases unregisterStateCallback_tree t registration with heq | heq <;> simp only [heq]
    · exact h
    · refine ⟨?_, h.nextOrdinal⟩
      show (t.mapEntries _).entries.map Entry.item = r.items
      rw [entries_mapEntries, map_item_of_sameItem (detach_sameItem registration), h.items]

theorem run_refines (hcmp : WeakComparator t.canonicalComparator) (hwf : t.Wellformed)
    (h : t.Refines r) (ops : List (Op α)) :
    ∃ t', t.run ops = some t' ∧ t'.Wellformed ∧ t.SameSettings t' ∧
      t'.Refines (r.run t.canonicalComparator t.priorityEvaluator ops) := by
  induction ops generalizing t r with
  | nil => exact ⟨t, rfl, hwf, .refl t, h⟩
  | cons op ops ih =>
    obtain ⟨o, ho, hr, -⟩ := apply_refines hcmp hwf h op
    obtain ⟨o', ho', hwf', hset⟩ := apply_keeps hcmp hwf op
    obtain rfl : o = o' := Option.some.inj (ho.symm.trans ho')
    obtain ⟨t', ht', hwf'', hset', hr'⟩ := ih (hset.weakComparator hcmp) hwf' hr
    rw [hset.comparator, hset.priority] at hr'
    exact ⟨t', by simp [run, ho, ht'], hwf'', hset.trans hset', hr'⟩

/-- The queries of the tree are those of the list. -/
structure SameAnswers (t : Tree α) (r : Reference α) : Prop where
  sorted : r.items.Pairwise (itemLess t.canonicalComparator · ·)
  enumerateCanonical : t.enumerateCanonical none = Reference.pairs r.items
  forEachOverlapping : ∀ range, t.forEachOverlapping range =
    if range.isValid then .ok (Reference.pairs (r.overlapping range))
    else .error Reference.invalidRange
  findOverlapping : ∀ range, t.findOverlapping range =
    if range.isValid then .ok (Reference.pairs (r.overlapping range))
    else .error Reference.invalidRange
  hasOverlap : ∀ range, t.hasOverlap range = !(r.overlapping range).isEmpty

theorem Refines.sameAnswers (hcmp : WeakComparator t.canonicalComparator) (hwf : t.Wellformed)
    (h : t.Refines r) : t.SameAnswers r where
  sorted := by
    rw [← h.items, List.pairwise_map]
    exact hwf.sorted.imp fun hab => by
      rwa [itemLess_item, ← entryLess_eq hcmp]
  enumerateCanonical := by
    rw [enumerateCanonical_eq hcmp hwf, ← h.items, Reference.pairs, List.map_map]
    rfl
  forEachOverlapping range := by
    split
    · rename_i hv
      rw [forEachOverlapping_eq hwf hv, ← h.overlapping, Reference.pairs, List.map_map]
      rfl
    · rename_i hv
      simp [Tree.forEachOverlapping, hv, Reference.invalidRange]
  findOverlapping range := by
    split
    · rename_i hv
      rw [Tree.findOverlapping, forEachOverlapping_eq hwf hv, ← h.overlapping, Reference.pairs,
        List.map_map]
      rfl
    · rename_i hv
      simp [Tree.findOverlapping, Tree.forEachOverlapping, hv, Reference.invalidRange]
  hasOverlap range := by
    rw [hasOverlap_eq hwf, ← h.overlapping, List.isEmpty_map, Bool.eq_iff_iff]
    simp [targetsOf, List.filter_eq_nil_iff]

end

/-- After any history the tree reads as the list the history makes, answers the
queries as the list does, and takes the next mutation as the list does. -/
theorem history_refines (comparator : Option (Range → Range → Bool))
    (evaluator : Option (α → α → Bool)) (hcmp : WeakComparator comparator) (ops : List (Op α)) :
    ∃ t, (constructed comparator evaluator).run ops = some t ∧
      t.Refines (Reference.run comparator evaluator {} ops) ∧
      t.SameAnswers (Reference.run comparator evaluator {} ops) ∧
      ∀ op, t.StepRefines (Reference.run comparator evaluator {} ops) op := by
  have hempty : (constructed comparator evaluator).Wellformed := .empty rfl rfl
  obtain ⟨t, ht, hwf, hset, hr⟩ := run_refines (r := {}) hcmp hempty ⟨rfl, rfl⟩ ops
  have hcmp' := hset.weakComparator hcmp
  exact ⟨t, ht, hr, hr.sameAnswers hcmp' hwf, apply_refines hcmp' hwf hr⟩

theorem history_refines_default :
    ∃ t, (constructed (α := Nat) (some defaultRangeLess) none).run
        [.add ⟨0, 9⟩ 1 none, .add ⟨2, 3⟩ 2 none, .removeAllOverlapping ⟨4, 5⟩] = some t ∧
      t.Refines (Reference.run (some defaultRangeLess) none {}
        [.add ⟨0, 9⟩ 1 none, .add ⟨2, 3⟩ 2 none, .removeAllOverlapping ⟨4, 5⟩]) ∧
      t.SameAnswers (Reference.run (some defaultRangeLess) none {}
        [.add ⟨0, 9⟩ 1 none, .add ⟨2, 3⟩ 2 none, .removeAllOverlapping ⟨4, 5⟩]) ∧
      ∀ op, t.StepRefines (Reference.run (some defaultRangeLess) none {}
        [.add ⟨0, 9⟩ 1 none, .add ⟨2, 3⟩ 2 none, .removeAllOverlapping ⟨4, 5⟩]) op :=
  history_refines _ _ weakComparator_default _

end Tree
end Dmn.IntervalBTree
