import Dmn.Lib.Transition
import Mathlib.Data.List.Range
import Mathlib.Data.List.Perm.Subperm
import Mathlib.Data.Fintype.Basic

/-!
# The pipe with scheduled writes

`Dmn_Pipe` constructed with `enable_scheduled_writes`. What happens under the
mutex is one step: a write, a selection of the worker, the count of a processed
item, and each look of a `waitForEmpty` call at what it waits for. Accepted
items are numbered, for the record; the code keeps only the two totals, and a
`waitForEmpty` call compares them. Where the worker takes no item that is newer
than a snapshot before it has taken those of the snapshot, the comparison is
right.
-/

namespace Dmn.Pipe

open Dmn.Lib

structure Entry (T : Type) where
  number : Nat
  item : T
  deriving DecidableEq

/-- The worker in `scheduledProcessingLoop`. -/
inductive Worker (T : Type)
  | selecting
  | processing (entry : Entry T)
  -- The callback has returned, and the item is not counted yet.
  | counting
  -- The callback has thrown.
  | failing (entry : Entry T)
  | stopped (entry : Option (Entry T))
  deriving DecidableEq

/-- A call of `waitForEmpty`. -/
inductive Waiter
  | idle
  | waiting (inboundCount : Nat)
  -- It returned, before or after a shutdown.
  | returned (inboundCount : Nat) (shutdown : Bool)
  | threw
  deriving DecidableEq

-- The two counters are 64 bits wide in the source; 2^64 items are taken not to be written.
structure State (ι T : Type) where
  queue : List (Entry T) := []
  scheduledQueue : List (Int × Entry T) := []
  count : Nat := 0
  submittedCount : Nat := 0
  processingException : Bool := false
  shutdownFlag : Bool := false
  -- What the steady clock says.
  now : Int := 0
  worker : Worker T := .selecting
  waiter : ι → Waiter := fun _ => .idle
  -- The accepted items, in order.
  accepted : List (Entry T) := []
  -- The items whose callback has returned.
  processed : List (Entry T) := []

inductive Action (ι T : Type)
  | write (item : T)
  | writeAt (deadline : Int) (item : T)
  | shutdown
  | tick (now : Int)
  | select
  -- The callback returns, or throws.
  | callback (throws : Bool)
  | account
  | waitForEmpty (t : ι)
  | wake (t : ι)

namespace State

variable {ι T : Type}

/-- Behind the items with the same deadline. -/
def emplace (deadline : Int) (entry : Entry T) : List (Int × Entry T) → List (Int × Entry T)
  | [] => [(deadline, entry)]
  | x :: queue => if x.1 ≤ deadline then x :: emplace deadline entry queue else (deadline, entry) :: x :: queue

/-- What the worker takes: ordinary items before scheduled ones that are due. -/
def selects (s : State ι T) : Option (Entry T) :=
  if s.processingException then none
  else
    match s.queue with
    | entry :: _ => some entry
    | [] =>
      match s.scheduledQueue with
      | (deadline, entry) :: _ => if deadline ≤ s.now then some entry else none
      | [] => none

def select (s : State ι T) : State ι T :=
  if s.processingException then { s with worker := .stopped none }
  else
    match s.queue with
    | entry :: queue => { s with queue, worker := .processing entry }
    | [] =>
      match s.scheduledQueue with
      | (deadline, entry) :: scheduledQueue =>
        if deadline ≤ s.now then { s with scheduledQueue, worker := .processing entry } else s
      | [] => if s.shutdownFlag then { s with worker := .stopped none } else s

/-- The condition of `m_empty_cond`. -/
def finished (s : State ι T) (inboundCount : Nat) : Bool :=
  decide (inboundCount ≤ s.count) || s.processingException || s.shutdownFlag

def step [DecidableEq ι] (s : State ι T) : Action ι T → Option (State ι T)
  | .write item =>
    some <| if s.shutdownFlag then s else { s with
      queue := s.queue ++ [⟨s.submittedCount, item⟩]
      submittedCount := s.submittedCount + 1
      accepted := s.accepted ++ [⟨s.submittedCount, item⟩] }
  | .writeAt deadline item =>
    some <| if s.shutdownFlag then s else { s with
      scheduledQueue := emplace deadline ⟨s.submittedCount, item⟩ s.scheduledQueue
      submittedCount := s.submittedCount + 1
      accepted := s.accepted ++ [⟨s.submittedCount, item⟩] }
  | .shutdown => some { s with shutdownFlag := true }
  | .tick now => if s.now ≤ now then some { s with now } else none
  | .select =>
    match s.worker with
    | .selecting => some s.select
    | _ => none
  | .callback throws =>
    match s.worker with
    | .processing entry =>
      some <| if throws then { s with worker := .failing entry } else { s with
        worker := .counting
        processed := s.processed ++ [entry] }
    | _ => none
  | .account =>
    match s.worker with
    | .counting => some { s with count := s.count + 1, worker := .selecting }
    | .failing entry => some { s with processingException := true, worker := .stopped (some entry) }
    | _ => none
  | .waitForEmpty t =>
    match s.waiter t with
    | .waiting _ => none
    | _ => some { s with waiter := Function.update s.waiter t (.waiting s.submittedCount) }
  | .wake t =>
    match s.waiter t with
    | .waiting inboundCount =>
      if s.finished inboundCount then
        some { s with waiter := Function.update s.waiter t <|
          if s.processingException then .threw else .returned inboundCount s.shutdownFlag }
      else none
    | _ => none

/-- The item a worker has taken and not handed back. -/
def hand (s : State ι T) : Option (Entry T) :=
  match s.worker with
  | .processing entry | .failing entry => some entry
  | .stopped entry => entry
  | .selecting | .counting => none

def queued (s : State ι T) : List (Entry T) := s.queue ++ s.scheduledQueue.map Prod.snd

/-- The items that were accepted before a snapshot have been processed. -/
def Covered (s : State ι T) (inboundCount : Nat) : Prop :=
  ∀ entry ∈ s.accepted, entry.number < inboundCount → entry ∈ s.processed

/-- The worker does not pass over an item that a call waits for. -/
def Respects (s : State ι T) : Waiter → Prop
  | .waiting inboundCount =>
    (∃ entry ∈ s.selects, inboundCount ≤ entry.number) → ∀ entry ∈ s.queued, inboundCount ≤ entry.number
  | .idle | .returned _ _ | .threw => True

/-- The worker takes no item that is newer than the snapshot of a waiting call
while an item of the snapshot is queued. -/
def InOrder (s : State ι T) : Action ι T → Prop
  | .select => ∀ t, s.Respects (s.waiter t)
  | .write _ | .writeAt _ _ | .shutdown | .tick _ | .callback _ | .account | .waitForEmpty _ | .wake _ => True

-- ---------------------------------------------------------------------------
-- Every accepted item is in one place
-- ---------------------------------------------------------------------------

variable {s s' : State ι T}

structure Accounted (s : State ι T) : Prop where
  placed : (s.processed ++ s.hand.toList ++ s.queued).Perm s.accepted
  numbered : s.accepted.map Entry.number = List.range s.submittedCount
  counted : s.count + (if s.worker matches .counting then 1 else 0) = s.processed.length

theorem emplace_perm (deadline : Int) (entry : Entry T) (queue : List (Int × Entry T)) :
    (emplace deadline entry queue).Perm ((deadline, entry) :: queue) := by
  induction queue with
  | nil => exact .refl _
  | cons x queue ih =>
    unfold emplace
    split
    · exact (ih.cons x).trans (.swap ..)
    · exact .refl _

/-- What a selection does. -/
theorem select_cases (s : State ι T) :
    (∃ entry ∈ s.selects, s.select.worker = .processing entry ∧ s.queued.Perm (entry :: s.select.queued)) ∨
    (s.select.worker = s.worker ∨ s.select.worker = .stopped none) ∧ s.select.queued = s.queued := by
  unfold select selects
  by_cases hexception : s.processingException
  · simp only [hexception, if_true]
    exact .inr ⟨.inr trivial, rfl⟩
  · simp only [hexception, if_false, Bool.false_eq_true]
    cases hqueue : s.queue with
    | cons entry queue => exact .inl ⟨entry, rfl, rfl, by simp [queued, hqueue]⟩
    | nil =>
      cases hscheduled : s.scheduledQueue with
      | nil =>
        dsimp only
        split
        · exact .inr ⟨.inr rfl, by simp [queued, hqueue, hscheduled]⟩
        · exact .inr ⟨.inl rfl, rfl⟩
      | cons x scheduledQueue =>
        dsimp only
        split
        · exact .inl ⟨x.2, rfl, rfl, by simp [queued, hqueue, hscheduled]⟩
        · exact .inr ⟨.inl rfl, rfl⟩

/-- A selection touches neither the totals nor the record. -/
theorem select_same (s : State ι T) :
    s.select.processed = s.processed ∧ s.select.accepted = s.accepted ∧
      s.select.submittedCount = s.submittedCount ∧ s.select.count = s.count ∧
      s.select.waiter = s.waiter := by
  unfold select
  split
  · exact ⟨rfl, rfl, rfl, rfl, rfl⟩
  · split
    · exact ⟨rfl, rfl, rfl, rfl, rfl⟩
    · split
      · split <;> exact ⟨rfl, rfl, rfl, rfl, rfl⟩
      · split <;> exact ⟨rfl, rfl, rfl, rfl, rfl⟩

theorem Accounted.empty : ({} : State ι T).Accounted where
  placed := .refl _
  numbered := rfl
  counted := rfl

/-- An item is accepted. -/
theorem Accounted.accept (h : s.Accounted) (entry : Entry T) (hentry : entry.number = s.submittedCount)
    (hworker : s'.worker = s.worker) (hcount : s'.count = s.count) (hprocessed : s'.processed = s.processed)
    (hsubmitted : s'.submittedCount = s.submittedCount + 1)
    (haccepted : s'.accepted = s.accepted ++ [entry]) (hqueued : s'.queued.Perm (s.queued ++ [entry])) :
    s'.Accounted where
  placed := by
    have hhand : s'.hand = s.hand := by
      unfold hand
      rw [hworker]
    rw [hprocessed, hhand, haccepted]
    refine (hqueued.append_left _).trans ?_
    rw [← List.append_assoc]
    exact h.placed.append_right _
  numbered := by
    rw [haccepted, hsubmitted, List.range_succ, List.map_append, h.numbered, ← hentry]
    rfl
  counted := by
    rw [hworker, hcount, hprocessed]
    exact h.counted

theorem Accounted.select (h : s.Accounted) (hworker : s.worker = .selecting) : s.select.Accounted := by
  obtain ⟨hprocessed, haccepted, hsubmitted, hcount, -⟩ := select_same s
  have hhand : s.hand = none := by
    unfold hand
    rw [hworker]
  have hplaced := h.placed
  have hcounted := h.counted
  simp only [hhand, hworker, Option.toList_none, List.append_nil] at hplaced hcounted
  refine ⟨?_, by rw [haccepted, hsubmitted]; exact h.numbered, ?_⟩
  · rw [hprocessed, haccepted]
    refine List.Perm.trans ?_ hplaced
    rw [List.append_assoc]
    refine List.Perm.append_left _ ?_
    rcases select_cases s with ⟨entry, -, hnew, hqueued⟩ | ⟨hnew | hnew, hqueued⟩
    · have : s.select.hand = some entry := by
        unfold hand
        rw [hnew]
      rw [this]
      exact hqueued.symm
    · have : s.select.hand = none := by
        unfold hand
        rw [hnew, hworker]
      rw [this, hqueued]
      exact .refl _
    · have : s.select.hand = none := by
        unfold hand
        rw [hnew]
      rw [this, hqueued]
      exact .refl _
  · rw [hcount, hprocessed]
    rcases select_cases s with ⟨entry, -, hnew, -⟩ | ⟨hnew | hnew, -⟩
    · rw [hnew]
      exact hcounted
    · rw [hnew, hworker]
      exact hcounted
    · rw [hnew]
      exact hcounted

theorem Accounted.step [DecidableEq ι] {x : Action ι T} (h : s.Accounted) (hs : s.step x = some s') :
    s'.Accounted := by
  cases x with
  | write item =>
    obtain rfl := Option.some.inj hs
    split
    · exact h
    · refine h.accept ⟨s.submittedCount, item⟩ rfl rfl rfl rfl rfl rfl ?_
      simp only [queued, List.append_assoc]
      exact List.perm_append_comm.append_left _
  | writeAt deadline item =>
    obtain rfl := Option.some.inj hs
    split
    · exact h
    · refine h.accept ⟨s.submittedCount, item⟩ rfl rfl rfl rfl rfl rfl ?_
      simp only [queued, List.append_assoc]
      refine List.Perm.append_left _ ?_
      refine ((emplace_perm ..).map _).trans ?_
      exact (List.perm_append_singleton ..).symm
  | shutdown =>
    obtain rfl := Option.some.inj hs
    exact ⟨h.placed, h.numbered, h.counted⟩
  | tick now =>
    simp only [State.step] at hs
    split at hs
    · obtain rfl := Option.some.inj hs
      exact ⟨h.placed, h.numbered, h.counted⟩
    · cases hs
  | select =>
    simp only [State.step] at hs
    split at hs
    · rename_i hworker
      exact Option.some.inj hs ▸ h.select hworker
    · cases hs
  | callback throws =>
    simp only [State.step] at hs
    split at hs
    · rename_i entry hworker
      obtain rfl := Option.some.inj hs
      have hplaced := h.placed
      have hcounted := h.counted
      simp only [hand, hworker] at hplaced hcounted
      cases throws with
      | true => exact ⟨hplaced, h.numbered, hcounted⟩
      | false =>
        refine ⟨?_, h.numbered, ?_⟩
        · simpa [hand, queued] using hplaced
        · simpa using hcounted
    · cases hs
  | account =>
    simp only [State.step] at hs
    split at hs
    · rename_i hworker
      obtain rfl := Option.some.inj hs
      have hplaced := h.placed
      have hcounted := h.counted
      simp only [hand, hworker] at hplaced hcounted
      exact ⟨hplaced, h.numbered, hcounted⟩
    · rename_i entry hworker
      obtain rfl := Option.some.inj hs
      have hplaced := h.placed
      have hcounted := h.counted
      simp only [hand, hworker] at hplaced hcounted
      exact ⟨hplaced, h.numbered, hcounted⟩
    · cases hs
  | waitForEmpty t =>
    simp only [State.step] at hs
    split at hs
    · cases hs
    · obtain rfl := Option.some.inj hs
      exact ⟨h.placed, h.numbered, h.counted⟩
  | wake t =>
    simp only [State.step] at hs
    split at hs
    · split at hs
      · obtain rfl := Option.some.inj hs
        exact ⟨h.placed, h.numbered, h.counted⟩
      · cases hs
    · cases hs

-- ---------------------------------------------------------------------------
-- A snapshot
-- ---------------------------------------------------------------------------

/-- Nothing that is newer than the snapshot has been taken. -/
def Untouched (s : State ι T) (inboundCount : Nat) : Prop :=
  ∀ entry ∈ s.processed ++ s.hand.toList, entry.number < inboundCount

structure Watched (s : State ι T) : Prop where
  waiting : ∀ t n, s.waiter t = .waiting n → n ≤ s.submittedCount ∧ (s.Untouched n ∨ s.Covered n)
  returned : ∀ t n down, s.waiter t = .returned n down → n ≤ s.submittedCount ∧ (down = false → s.Covered n)

theorem Accounted.number_lt {entry : Entry T} (h : s.Accounted) (hentry : entry ∈ s.accepted) :
    entry.number < s.submittedCount := by
  have hmem : entry.number ∈ s.accepted.map Entry.number := List.mem_map_of_mem hentry
  rw [h.numbered] at hmem
  exact List.mem_range.mp hmem

theorem Accounted.nodup (h : s.Accounted) : (s.accepted.map Entry.number).Nodup := by
  rw [h.numbered]
  exact List.nodup_range

/-- As many items as the snapshot has, none of them newer, are the snapshot. -/
theorem Accounted.covered (h : s.Accounted) (hn : s.Untouched n) (hcount : n ≤ s.count) :
    s.Covered n := by
  have hsub : s.processed ⊆ s.accepted := fun entry hentry =>
    h.placed.subset (List.mem_append_left _ (List.mem_append_left _ hentry))
  have hnodup : (s.processed.map Entry.number).Nodup := by
    refine List.Nodup.sublist ?_ ((h.placed.map Entry.number).nodup_iff.mpr h.nodup)
    exact ((List.sublist_append_left ..).trans (List.sublist_append_left ..)).map _
  have hrange : s.processed.map Entry.number ⊆ List.range n := fun k hk => by
    obtain ⟨entry, hentry, rfl⟩ := List.mem_map.mp hk
    exact List.mem_range.mpr (hn entry (List.mem_append_left _ hentry))
  have hlength : (List.range n).length ≤ (s.processed.map Entry.number).length := by
    rw [List.length_range, List.length_map, ← h.counted]
    omega
  have hperm := (hnodup.subperm hrange).perm_of_length_le hlength
  intro entry hentry hlt
  obtain ⟨entry', hentry', hnumber⟩ := List.mem_map.mp (hperm.symm.subset (List.mem_range.mpr hlt))
  obtain rfl := List.inj_on_of_nodup_map h.nodup (hsub hentry') hentry hnumber
  exact hentry'

/-- A selection that takes a newer item leaves nothing of the snapshot behind. -/
theorem Accounted.select_watched (h : s.Accounted) (hworker : s.worker = .selecting)
    (hok : (∃ entry ∈ s.selects, n ≤ entry.number) → ∀ entry ∈ s.queued, n ≤ entry.number)
    (hn : s.Untouched n) : s.select.Untouched n ∨ s.Covered n := by
  have hhand : s.hand = none := by
    unfold hand
    rw [hworker]
  have hold : ∀ entry ∈ s.processed, entry.number < n := fun entry hentry =>
    hn entry (List.mem_append_left _ hentry)
  obtain ⟨hprocessed, -⟩ := select_same s
  rcases select_cases s with ⟨entry, hselects, hnew, -⟩ | ⟨hnew, -⟩
  · have hhand' : s.select.hand = some entry := by
      unfold hand
      rw [hnew]
    by_cases hlt : entry.number < n
    · refine .inl fun e he => ?_
      rw [hprocessed, hhand'] at he
      rcases List.mem_append.mp he with he | he
      · exact hold e he
      · rwa [List.mem_singleton.mp he]
    · refine .inr fun e he helt => ?_
      have hqueued := hok ⟨entry, hselects, not_lt.mp hlt⟩
      have hplaced := h.placed.symm.subset he
      rw [hhand, Option.toList_none, List.append_nil] at hplaced
      exact (List.mem_append.mp hplaced).resolve_right fun hq => absurd helt (hqueued e hq).not_gt
  · have hhand' : s.select.hand = none := by
      unfold hand
      rcases hnew with hnew | hnew
      · rw [hnew, hworker]
      · rw [hnew]
    refine .inl fun e he => ?_
    rw [hprocessed, hhand', Option.toList_none, List.append_nil] at he
    exact hold e he

theorem Watched.empty : ({} : State ι T).Watched := ⟨nofun, nofun⟩

/-- The calls stay as they are, and what they wait for as well. -/
theorem Watched.congr (h : s.Watched) (hwaiter : s'.waiter = s.waiter)
    (hsubmitted : s.submittedCount ≤ s'.submittedCount)
    (huntouched : ∀ n, s.Untouched n → s'.Untouched n ∨ s'.Covered n)
    (hcovered : ∀ n, n ≤ s.submittedCount → s.Covered n → s'.Covered n) : s'.Watched where
  waiting t n ht := by
    rw [hwaiter] at ht
    obtain ⟨hle, hn⟩ := h.waiting t n ht
    exact ⟨hle.trans hsubmitted, hn.elim (huntouched n) fun hn => .inr (hcovered n hle hn)⟩
  returned t n down ht := by
    rw [hwaiter] at ht
    obtain ⟨hle, hn⟩ := h.returned t n down ht
    exact ⟨hle.trans hsubmitted, fun hdown => hcovered n hle (hn hdown)⟩

/-- An item that is accepted after a snapshot is not part of it. -/
theorem Watched.accept (h : s.Watched) (entry : Entry T) (hentry : entry.number = s.submittedCount)
    (hwaiter : s'.waiter = s.waiter) (hworker : s'.worker = s.worker) (hprocessed : s'.processed = s.processed)
    (hsubmitted : s'.submittedCount = s.submittedCount + 1)
    (haccepted : s'.accepted = s.accepted ++ [entry]) : s'.Watched := by
  have hhand : s'.hand = s.hand := by
    unfold hand
    rw [hworker]
  refine h.congr hwaiter (by omega) (fun n hn => .inl ?_) fun n hle hn => ?_
  · unfold Untouched
    rw [hprocessed, hhand]
    exact hn
  · intro e he hlt
    rw [hprocessed]
    rw [haccepted] at he
    rcases List.mem_append.mp he with he | he
    · exact hn e he hlt
    · rw [List.mem_singleton.mp he] at hlt
      omega

theorem Watched.step [DecidableEq ι] {x : Action ι T} (h : s.Watched) (ha : s.Accounted) (hok : s.InOrder x)
    (hs : s.step x = some s') : s'.Watched := by
  have hstay : ∀ {s' : State ι T}, s'.waiter = s.waiter → s'.submittedCount = s.submittedCount →
      s'.accepted = s.accepted → s'.processed = s.processed → s'.hand = s.hand → s'.Watched :=
    fun hwaiter hsubmitted haccepted hprocessed hhand => by
      refine h.congr hwaiter hsubmitted.ge (fun n hn => .inl ?_) fun n _ hn => ?_
      · unfold Untouched
        rw [hprocessed, hhand]
        exact hn
      · unfold Covered
        rw [hprocessed, haccepted]
        exact hn
  cases x with
  | write item =>
    obtain rfl := Option.some.inj hs
    split
    · exact h
    · exact h.accept ⟨s.submittedCount, item⟩ rfl rfl rfl rfl rfl rfl
  | writeAt deadline item =>
    obtain rfl := Option.some.inj hs
    split
    · exact h
    · exact h.accept ⟨s.submittedCount, item⟩ rfl rfl rfl rfl rfl rfl
  | shutdown =>
    obtain rfl := Option.some.inj hs
    exact hstay rfl rfl rfl rfl rfl
  | tick now =>
    simp only [State.step] at hs
    split at hs
    · obtain rfl := Option.some.inj hs
      exact hstay rfl rfl rfl rfl rfl
    · cases hs
  | select =>
    simp only [State.step] at hs
    split at hs
    · rename_i hworker
      obtain rfl := Option.some.inj hs
      obtain ⟨hprocessed, haccepted, hsubmitted, -, hwaiter⟩ := select_same s
      have hcovered : ∀ n, s.Covered n → s.select.Covered n := fun n hn => by
        unfold Covered
        rw [hprocessed, haccepted]
        exact hn
      refine ⟨fun t n ht => ?_, fun t n down ht => ?_⟩
      · rw [hwaiter] at ht
        rw [hsubmitted]
        obtain ⟨hle, hn⟩ := h.waiting t n ht
        have hokt := hok t
        rw [ht] at hokt
        refine ⟨hle, hn.elim (fun hn => ?_) fun hn => .inr (hcovered n hn)⟩
        exact (ha.select_watched hworker hokt hn).imp_right (hcovered n)
      · rw [hwaiter] at ht
        rw [hsubmitted]
        exact (h.returned t n down ht).imp_right fun hn hdown => hcovered n (hn hdown)
    · cases hs
  | callback throws =>
    simp only [State.step] at hs
    split at hs
    · rename_i entry hworker
      obtain rfl := Option.some.inj hs
      cases throws with
      | true =>
        exact hstay rfl rfl rfl rfl (by simp [hand, hworker])
      | false =>
        refine h.congr rfl le_rfl (fun n hn => .inl ?_) fun n _ hn e he hlt => ?_
        · simpa [Untouched, hand, hworker] using hn
        · exact List.mem_append_left _ (hn e he hlt)
    · cases hs
  | account =>
    simp only [State.step] at hs
    split at hs
    · rename_i hworker
      obtain rfl := Option.some.inj hs
      exact hstay rfl rfl rfl rfl (by simp [hand, hworker])
    · rename_i entry hworker
      obtain rfl := Option.some.inj hs
      exact hstay rfl rfl rfl rfl (by simp [hand, hworker])
    · cases hs
  | waitForEmpty t =>
    simp only [State.step] at hs
    split at hs
    · cases hs
    · obtain rfl := Option.some.inj hs
      refine ⟨fun u n hu => ?_, fun u n down hu => ?_⟩
      · by_cases hut : u = t
        · subst hut
          obtain rfl : s.submittedCount = n := by simpa using hu
          refine ⟨le_rfl, .inl fun e he => ?_⟩
          exact ha.number_lt (ha.placed.subset (List.mem_append_left _ he))
        · exact h.waiting u n (by simpa [hut] using hu)
      · have hut : u ≠ t := by
          rintro rfl
          simp at hu
        exact h.returned u n down (by simpa [hut] using hu)
  | wake t =>
    simp only [State.step] at hs
    split at hs
    · rename_i m hm
      split at hs
      · rename_i hfinished
        obtain rfl := Option.some.inj hs
        refine ⟨fun u n hu => ?_, fun u n down hu => ?_⟩
        · have hut : u ≠ t := by
            rintro rfl
            by_cases hexception : s.processingException <;> simp [hexception] at hu
          exact h.waiting u n (by simpa [hut] using hu)
        · by_cases hut : u = t
          · subst hut
            obtain ⟨hle, hn⟩ := h.waiting u m hm
            by_cases hexception : s.processingException
            · simp [hexception] at hu
            · obtain ⟨rfl, rfl⟩ : m = n ∧ s.shutdownFlag = down := by simpa [hexception] using hu
              refine ⟨hle, fun hdown => hn.elim (fun hn => ha.covered hn ?_) id⟩
              simpa [finished, hexception, hdown] using hfinished
          · exact h.returned u n down (by simpa [hut] using hu)
      · cases hs
    · cases hs

/-- Where the worker takes no newer item before those of a snapshot,
`waitForEmpty` returns when the snapshot has been processed. -/
theorem snapshot [DecidableEq ι] (h : ReachesBy step InOrder ({} : State ι T) s) (t : ι) (inboundCount : Nat)
    (ht : s.waiter t = .returned inboundCount false) : s.Covered inboundCount := by
  have hinv : s.Accounted ∧ s.Watched :=
    h.invariant (I := fun s => s.Accounted ∧ s.Watched) ⟨.empty, .empty⟩
      fun ⟨ha, hw⟩ hok hs => ⟨ha.step hs, hw.step ha hok hs⟩
  exact (hinv.2.returned t inboundCount false ht).2 rfl

instance (s : State ι T) (w : Waiter) : Decidable (s.Respects w) :=
  match w with
  | .waiting inboundCount => inferInstanceAs (Decidable
      ((∃ entry ∈ s.selects, inboundCount ≤ entry.number) → ∀ entry ∈ s.queued, inboundCount ≤ entry.number))
  | .idle | .returned _ _ | .threw => isTrue trivial

instance [Fintype ι] (s : State ι T) (x : Action ι T) : Decidable (s.InOrder x) :=
  match x with
  | .select => inferInstanceAs (Decidable (∀ t, s.Respects (s.waiter t)))
  | .write _ | .writeAt _ _ | .shutdown | .tick _ | .callback _ | .account | .waitForEmpty _ | .wake _ =>
    isTrue trivial

/-- A scheduled item and an ordinary one are processed while a call waits for both. -/
def inTime : List (Action (Fin 1) Nat) :=
  [.writeAt 5 7, .write 8, .waitForEmpty 0, .tick 5, .select, .callback false, .account, .select,
    .callback false, .account, .wake 0]

theorem snapshot_inTime :
    ((execBy step InOrder ({} : State (Fin 1) Nat) inTime).get (by decide)).Covered 2 :=
  snapshot (.of_execBy (Option.some_get _).symm) 0 2 (by decide)
/-- A call waits for an item that is not due; an ordinary item comes first. -/
def overtaken : List (Action (Fin 1) Nat) :=
  [.writeAt 100 7, .waitForEmpty 0, .write 8, .select, .callback false, .account, .wake 0]

theorem overtaken_notCovered :
    ((exec step ({} : State (Fin 1) Nat) overtaken).get (by decide)).waiter 0 = .returned 1 false ∧
    ¬((exec step ({} : State (Fin 1) Nat) overtaken).get (by decide)).Covered 1 := by
  refine ⟨by decide, fun h => ?_⟩
  have hmem := h ⟨0, 7⟩ (by decide) (by decide)
  revert hmem
  decide

end State
end Dmn.Pipe
