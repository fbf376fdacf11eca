import Dmn.Engine.Identity
import Dmn.Lib.Newest
import Dmn.Lib.Transition
import Mathlib

/-!
# The monitor event store

`Dmn_DeviceMonitorEventStore`: a bounded list of events in the order of their sequence numbers,
which the store assigns where the caller has none. The last number that there is can be assigned
more than once.
-/

namespace Dmn.Engine

open Dmn.Lib

/-- `Dmn_DeviceMonitorEvent`; `ε` is the type of the ANCS events. -/
structure MonitorEvent (ε : Type) where
  identity : Identity
  sequence : UInt64 := 0
  received : Int := 0
  event : ε
  deriving DecidableEq

/-- `Dmn_DeviceMonitorEventStore` -/
structure EventStore (ε : Type) where
  maximumEvents : Nat
  nextSequence : UInt64 := 1
  evictedEvents : UInt64 := 0
  events : List (MonitorEvent ε) := []
  deriving DecidableEq

variable {ε : Type}

def MonitorEvent.Upto (a b : MonitorEvent ε) : Prop := a.sequence ≤ b.sequence

instance : DecidableRel (MonitorEvent.Upto (ε := ε)) := fun a b =>
  inferInstanceAs (Decidable (a.sequence ≤ b.sequence))

instance : Std.Total (MonitorEvent.Upto (ε := ε)) where
  total a b := by
    simp only [MonitorEvent.Upto, UInt64.le_iff_toNat_le]
    exact Nat.le_total ..

instance : IsTrans (MonitorEvent ε) MonitorEvent.Upto where
  trans a b c := by
    simp only [MonitorEvent.Upto, UInt64.le_iff_toNat_le]
    exact Nat.le_trans

namespace EventStore

/-- The constructor. -/
def create (maximumEvents : Nat) : Except String (EventStore ε) :=
  if maximumEvents = 0 then .error "monitor event limit must be positive"
  else .ok { maximumEvents }

/-- The event as it is stored. -/
def numbered (s : EventStore ε) (event : MonitorEvent ε) : MonitorEvent ε :=
  if event.sequence = 0 then { event with sequence := s.nextSequence } else event

/-- `std::upper_bound` -/
def upperBound (events : List (MonitorEvent ε)) (sequence : UInt64) : Nat :=
  events.findIdx fun candidate => sequence < candidate.sequence

def append (s : EventStore ε) (event : MonitorEvent ε) : EventStore ε :=
  let event := s.numbered event
  let nextSequence :=
    if s.nextSequence < event.sequence + 1 then event.sequence + 1 else s.nextSequence
  let events := s.events.insertIdx (upperBound s.events event.sequence) event
  if events.length > s.maximumEvents then
    { s with nextSequence, events := events.eraseIdx 0, evictedEvents := s.evictedEvents + 1 }
  else { s with nextSequence, events }

/-- The store, and the number of the events that were removed. -/
def clear (s : EventStore ε) : EventStore ε × Nat :=
  ({ s with events := [], evictedEvents := 0 }, s.events.length)

end EventStore

-- ---------------------------------------------------------------------------
-- The store with its history
-- ---------------------------------------------------------------------------

namespace EventStore

inductive Action (ε : Type) where
  | append (event : MonitorEvent ε)
  | clear

structure Log (ε : Type) where
  store : EventStore ε
  -- As numbered, since the last `clear`.
  appended : List (MonitorEvent ε) := []
  -- All sequence numbers, and whether the store assigned them.
  numbers : List (Bool × UInt64) := []

namespace Log

def step (l : Log ε) : Action ε → Option (Log ε)
  | .append event =>
    let stored := l.store.numbered event
    some
      { store := l.store.append event
        appended := l.appended ++ [stored]
        numbers := l.numbers ++ [(decide (event.sequence = 0), stored.sequence)] }
  | .clear => some { l with store := l.store.clear.1, appended := [] }

/-- A caller gives any number but the last one. -/
def Given (_ : Log ε) : Action ε → Prop
  | .append event => event.sequence ≠ UInt64.ofNat (2 ^ 64 - 1)
  | .clear => True

/-- No number is asked for after the last one has been assigned. -/
def Numbered (l : Log ε) : Action ε → Prop
  | .append event =>
    event.sequence = 0 → ∀ e ∈ l.numbers, e.2 ≠ UInt64.ofNat (2 ^ 64 - 1)
  | .clear => True

/-- The newest events are kept, in order, and numbers that are assigned are new. -/
structure Kept (l : Log ε) : Prop where
  ordered : l.store.events.Pairwise (·.sequence ≤ ·.sequence)
  ties : ∀ sequence, (l.store.events.filter (·.sequence = sequence)).IsSuffix
    (l.appended.filter (·.sequence = sequence))
  retained : l.store.events =
    newest l.store.maximumEvents (l.appended.insertionSort MonitorEvent.Upto)
  counted : UInt64.ofNat l.store.events.length + l.store.evictedEvents =
    UInt64.ofNat l.appended.length
  countedBelow : l.appended.length < 2 ^ 64 →
    l.store.events.length + l.store.evictedEvents.toNat = l.appended.length
  fresh : l.numbers.Pairwise fun earlier later => later.1 = true → earlier.2 < later.2

-- ---------------------------------------------------------------------------
-- Every run
-- ---------------------------------------------------------------------------

/-- A number that is in use is below the next one, but for the last, which is the next one then. -/
structure Inv (l : Log ε) : Prop where
  retained : l.store.events =
    newest l.store.maximumEvents (l.appended.insertionSort MonitorEvent.Upto)
  evicted : l.store.evictedEvents = UInt64.ofNat (l.appended.length - l.store.maximumEvents)
  used : ∀ e ∈ l.numbers, e.2 < l.store.nextSequence ∨
    e.2 = UInt64.ofNat (2 ^ 64 - 1) ∧ l.store.nextSequence = UInt64.ofNat (2 ^ 64 - 1)

theorem Inv.created {maximumEvents : Nat} {store : EventStore ε}
    (created : create maximumEvents = .ok store) : ({ store } : Log ε).Inv := by
  unfold create at created
  split at created
  · cases created
  · obtain rfl := Except.ok.inj created
    exact ⟨by simp [newest], by simp, nofun⟩

end Log

theorem upperBound_eq (events : List (MonitorEvent ε)) (event : MonitorEvent ε) :
    events.insertIdx (upperBound events event.sequence) event =
      insertBehind MonitorEvent.Upto event events := by
  rw [← insertIdx_findIdx, upperBound]
  congr 2
  funext candidate
  simp only [MonitorEvent.Upto, UInt64.not_le]

theorem append_events (s : EventStore ε) (event : MonitorEvent ε) :
    (s.append event).events =
      let events := insertBehind MonitorEvent.Upto (s.numbered event) s.events
      if s.maximumEvents < events.length then events.drop 1 else events := by
  simp only [append, upperBound_eq]
  split
  · simp
  · rfl

theorem append_maximumEvents (s : EventStore ε) (event : MonitorEvent ε) :
    (s.append event).maximumEvents = s.maximumEvents := by
  unfold append
  dsimp only
  split <;> rfl

theorem append_evictedEvents (s : EventStore ε) (event : MonitorEvent ε) :
    (s.append event).evictedEvents =
      if s.maximumEvents < s.events.length + 1 then s.evictedEvents + 1 else s.evictedEvents := by
  simp only [append, upperBound_eq, length_insertBehind]
  split <;> rfl

/-- The next number is not below the one before, and above the one of the event if there is one. -/
theorem append_nextSequence (s : EventStore ε) (event : MonitorEvent ε) :
    s.nextSequence.toNat ≤ (s.append event).nextSequence.toNat ∧
      ((s.numbered event).sequence ≠ UInt64.ofNat (2 ^ 64 - 1) →
        (s.numbered event).sequence < (s.append event).nextSequence) := by
  have next : (s.append event).nextSequence =
      if s.nextSequence < (s.numbered event).sequence + 1 then (s.numbered event).sequence + 1
      else s.nextSequence := by
    unfold append
    dsimp only
    split <;> rfl
  rw [next]
  generalize (s.numbered event).sequence = sequence
  have bound := sequence.toNat_lt
  constructor
  · split
    · next below => exact Nat.le_of_lt (UInt64.lt_iff_toNat_lt.mp below)
    · exact Nat.le_refl _
  · intro other
    have below : sequence.toNat + 1 < 2 ^ 64 := by
      rw [Ne, ← UInt64.toNat_inj, UInt64.toNat_ofNat'] at other
      omega
    have succ : (sequence + 1).toNat = sequence.toNat + 1 := by
      rw [UInt64.toNat_add]
      exact Nat.mod_eq_of_lt below
    split
    · rw [UInt64.lt_iff_toNat_lt, succ]
      exact Nat.lt_succ_self _
    · next above =>
      rw [UInt64.lt_iff_toNat_lt, succ] at above
      rw [UInt64.lt_iff_toNat_lt]
      omega

namespace Log

variable {l l' : Log ε}

theorem Inv.append (h : l.Inv) (event : MonitorEvent ε)
    (given : event.sequence ≠ UInt64.ofNat (2 ^ 64 - 1)) :
    ({ store := l.store.append event
       appended := l.appended ++ [l.store.numbered event]
       numbers := l.numbers ++ [(decide (event.sequence = 0), (l.store.numbered event).sequence)] } :
      Log ε).Inv where
  retained := by
    rw [append_events, append_maximumEvents, newest_concat, ← h.retained]
  evicted := by
    have length : l.store.events.length = min l.store.maximumEvents l.appended.length := by
      rw [h.retained, length_newest, List.length_insertionSort]
    simp only [append_evictedEvents, append_maximumEvents, List.length_append, List.length_singleton,
      length, h.evicted]
    split
    · next full =>
      rw [show l.appended.length + 1 - l.store.maximumEvents =
        l.appended.length - l.store.maximumEvents + 1 by omega, UInt64.ofNat_add]
      rfl
    · next room =>
      rw [show l.appended.length + 1 - l.store.maximumEvents =
        l.appended.length - l.store.maximumEvents by omega]
  used e he := by
    obtain ⟨later, above⟩ := append_nextSequence l.store event
    have stays : l.store.nextSequence = UInt64.ofNat (2 ^ 64 - 1) →
        (l.store.append event).nextSequence = UInt64.ofNat (2 ^ 64 - 1) := fun last => by
      have bound := (l.store.append event).nextSequence.toNat_lt
      rw [last, UInt64.toNat_ofNat'] at later
      rw [← UInt64.toNat_inj, UInt64.toNat_ofNat']
      omega
    rcases List.mem_append.mp he with he | he
    · rcases h.used e he with below | ⟨last, next⟩
      · rw [UInt64.lt_iff_toNat_lt] at below ⊢
        exact .inl (Nat.lt_of_lt_of_le below later)
      · exact .inr ⟨last, stays next⟩
    · obtain rfl := List.mem_singleton.mp he
      by_cases last : (l.store.numbered event).sequence = UInt64.ofNat (2 ^ 64 - 1)
      · -- only the store can have given it
        refine .inr ⟨last, stays ?_⟩
        unfold numbered at last
        split at last
        · exact last
        · exact absurd last given
      · exact .inl (above last)

theorem Inv.step {a : Action ε} (h : l.Inv) (given : l.Given a) (ha : l.step a = some l') :
    l'.Inv := by
  cases a with
  | append event =>
    obtain rfl := Option.some.inj ha
    exact h.append event given
  | clear =>
    obtain rfl := Option.some.inj ha
    exact ⟨by simp [newest, clear], by simp [EventStore.clear], h.used⟩

/-- A number that is assigned is new, unless the last one has been. -/
theorem Inv.fresh_step {a : Action ε} (h : l.Inv) (ha : l.step a = some l') :
    (l'.numbers.Pairwise fun earlier later => later.1 = true → earlier.2 < later.2) ↔
      (l.numbers.Pairwise fun earlier later => later.1 = true → earlier.2 < later.2) ∧
        l.Numbered a := by
  cases a with
  | append event =>
    obtain rfl := Option.some.inj ha
    simp only [List.pairwise_append, List.pairwise_singleton, List.mem_singleton, forall_eq,
      true_and, decide_eq_true_eq]
    refine and_congr_right fun _ => ⟨fun fresh unnumbered e he last => ?_,
      fun new e he unnumbered => ?_⟩
    · have below := fresh e he unnumbered
      rw [last, UInt64.lt_iff_toNat_lt, UInt64.toNat_ofNat'] at below
      have bound := (l.store.numbered event).sequence.toNat_lt
      omega
    · rw [numbered, if_pos unnumbered]
      exact (h.used e he).resolve_right fun last => new unnumbered e he last.1
  | clear =>
    obtain rfl := Option.some.inj ha
    exact (and_iff_left trivial).symm

theorem Inv.kept (h : l.Inv)
    (fresh : l.numbers.Pairwise fun earlier later => later.1 = true → earlier.2 < later.2) :
    l.Kept := by
  have length : l.store.events.length = min l.store.maximumEvents l.appended.length := by
    rw [h.retained, length_newest, List.length_insertionSort]
  refine ⟨?_, fun sequence => ?_, h.retained, ?_, fun below => ?_, fresh⟩
  · rw [h.retained]
    exact (List.pairwise_insertionSort MonitorEvent.Upto _).sublist (List.drop_sublist ..)
  · have stable := filter_insertionSort (r := MonitorEvent.Upto) (p := fun e => e.sequence = sequence)
      (fun a b ha hb => by
        rw [MonitorEvent.Upto, of_decide_eq_true ha, of_decide_eq_true hb]
        exact UInt64.le_refl _) l.appended
    rw [h.retained, ← stable]
    exact (List.drop_suffix ..).filter _
  · rw [h.evicted, length, ← UInt64.ofNat_add]
    congr 1
    omega
  · rw [h.evicted, length, UInt64.toNat_ofNat', Nat.mod_eq_of_lt (by omega)]
    omega

/-- In every run: all of it holds exactly as long as no number is asked for after the last one. -/
theorem kept_iff {maximumEvents : Nat} {store : EventStore ε}
    (created : create maximumEvents = .ok store) (run : ReachesBy step Given { store } l) :
    l.Kept ↔ ReachesBy step (fun l a => Given l a ∧ Numbered l a) { store } l := by
  constructor
  · intro kept
    have fresh := kept.fresh
    clear kept
    induction run with
    | refl => exact .refl
    | tail a before given ha ih =>
      have h := before.invariant (I := Inv) (.created created) fun h given ha => h.step given ha
      obtain ⟨fresh, new⟩ := (h.fresh_step ha).mp fresh
      exact (ih fresh).tail a ⟨given, new⟩ ha
  · intro run
    obtain ⟨h, fresh⟩ := run.invariant (I := fun l : Log ε => l.Inv ∧
      l.numbers.Pairwise fun earlier later => later.1 = true → earlier.2 < later.2)
      ⟨.created created, .nil⟩ fun ⟨h, fresh⟩ ok ha =>
        ⟨h.step ok.1 ha, (h.fresh_step ha).mpr ⟨fresh, ok.2⟩⟩
    exact h.kept fresh

instance (l : Log ε) (a : Action ε) : Decidable (l.Given a) := by
  cases a <;> unfold Given <;> infer_instance

instance (l : Log ε) : (a : Action ε) → Decidable (l.Numbered a)
  | .append event =>
    have : Decidable (∀ e ∈ l.numbers, e.2 ≠ UInt64.ofNat (2 ^ 64 - 1)) := List.decidableBAll _ _
    inferInstanceAs (Decidable (event.sequence = 0 → ∀ e ∈ l.numbers, e.2 ≠ UInt64.ofNat (2 ^ 64 - 1)))
  | .clear => .isTrue trivial

def silent : MonitorEvent Unit := { identity := ⟨[], []⟩, event := () }

/-- Three events, one of them late, and room for two. -/
def late : List (Action Unit) :=
  [Action.append { silent with sequence := 7 }, .append { silent with sequence := 3 }, .append silent]

theorem kept_iff_late :
    ∃ l : Log Unit, l.store.events.map (·.sequence) = [7, 8] ∧ l.Kept := by
  have reached : ∃ l : Log Unit,
      ReachesBy step (fun l a => Given l a ∧ Numbered l a) { store := { maximumEvents := 2 } } l ∧
        l.store.events.map (·.sequence) = [7, 8] := by
    have ran : ((execBy step (fun l a => Given l a ∧ Numbered l a)
        { store := { maximumEvents := 2 } } late).any fun l =>
          decide (l.store.events.map (·.sequence) = [7, 8])) = true := by decide
    obtain ⟨l, ran, events⟩ := (Option.any_eq_true _ _).mp ran
    exact ⟨l, .of_execBy ran, of_decide_eq_true events⟩
  obtain ⟨l, run, events⟩ := reached
  have created : create 2 = .ok ({ maximumEvents := 2 } : EventStore Unit) := rfl
  exact ⟨l, events, (kept_iff created (run.mono fun _ _ ok => ok.1)).mpr run⟩

/-- The last number but one is given, and then two are asked for. -/
def exhausting : List (Action Unit) :=
  [Action.append { silent with sequence := UInt64.ofNat (2 ^ 64 - 2) }, .append silent, .append silent]

theorem kept_exhausted :
    ¬ ∀ (store : EventStore Unit) (l : Log Unit), create 5 = .ok store →
      ReachesBy step Given { store } l → l.Kept := by
  intro all
  have ran : ((execBy step Given { store := { maximumEvents := 5 } } exhausting).any fun l =>
      !decide (l.numbers.Pairwise fun earlier later => later.1 = true → earlier.2 < later.2)) =
      true := by decide
  obtain ⟨l, ran, repeated⟩ := (Option.any_eq_true _ _).mp ran
  have fresh := (all { maximumEvents := 5 } l rfl (.of_execBy ran)).fresh
  simp [fresh] at repeated

end Log
end EventStore
end Dmn.Engine
