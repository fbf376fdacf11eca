import Dmn.Engine.Identity
import Dmn.Lib.Mutex
import Dmn.Lib.Transition

/-!
# Connections

`Dmn_BluezEngineBackend`: its calls take `m_mutex` in turn, but for
`cancelConnect`, which stores a flag that every `connect` clears when it has
got the mutex.
-/

namespace Dmn.BluezBackend

open Dmn.Lib Dmn.Engine

inductive Kind
  | snapshot
  | setScanning
  | connect
  | disconnect
  deriving DecidableEq

inductive Outcome
  | success
  | cancelled
  | error
  deriving DecidableEq

/-- Where a call is. -/
inductive Pc
  | idle
  -- It waits for `m_mutex`.
  | called
  | locked
  -- In `connectDevice` or `disconnectDevice`.
  | changing
  | answered (ok : Bool)
  -- At the head of the loop.
  | polls
  -- In `snapshotLocked`.
  | looks
  | returned (outcome : Outcome)
  deriving DecidableEq

structure Call where
  kind : Kind := .snapshot
  identity : Identity := ⟨[], []⟩
  pc : Pc := .idle
  -- A cancellation has been stored between the call and the return of `connectDevice`.
  asked : Bool := false

/-- What the client or the clock say. -/
inductive Answer
  | ok
  | error
  | throws
  -- The state that is wanted has not been observed.
  | again
  deriving DecidableEq

structure Backend (n : Nat) where
  mutex : Option (Fin n) := none
  cancelConnect : Bool := false
  calls : Fin n → Call := fun _ => {}

def Pc.holds : Pc → Bool
  | .idle | .called | .returned _ => false
  | _ => true

/-- `connectDevice` has not returned. -/
def Pc.unanswered : Pc → Bool
  | .called | .locked | .changing => true
  | _ => false

namespace Backend

variable {n : Nat}

def setPc (b : Backend n) (i : Fin n) (pc : Pc) : Backend n :=
  { b with calls := Function.update b.calls i { b.calls i with pc } }

/-- The lock is released when the result is returned. -/
def leave (b : Backend n) (i : Fin n) (outcome : Outcome) : Backend n :=
    { b.setPc i (.returned outcome) with mutex := none }

/-- `cancelled` -/
def cancelled (b : Backend n) (i : Fin n) : Bool := (b.calls i).kind = .connect && b.cancelConnect

/-- The next step of a call that has the mutex. -/
def proceed (b : Backend n) (i : Fin n) (answer : Answer) : Option (Backend n) :=
  match (b.calls i).pc with
  | .locked =>
    match (b.calls i).kind with
    | .snapshot | .setScanning => some (b.leave i (if answer = .ok then .success else .error))
    | .connect => some { b.setPc i .changing with cancelConnect := false }
    | .disconnect => some (b.setPc i .changing)
  | .changing =>
    match answer with
    | .throws => some (b.leave i .error)
    | .ok => some (b.setPc i (.answered true))
    | .error | .again => some (b.setPc i (.answered false))
  | .answered ok =>
    some (if b.cancelled i then b.leave i .cancelled else if ok then b.setPc i .polls else b.leave i .error)
  | .polls =>
    if b.cancelled i then some (b.leave i .cancelled)
    -- an error is the deadline
    else some (if answer = .error then b.leave i .error else b.setPc i .looks)
  | .looks =>
    match answer with
    | .ok => some (b.leave i .success)
    | .again => some (b.setPc i .polls)
    | .error | .throws => some (b.leave i .error)
  | .idle | .called | .returned _ => none

/-- What `cancelConnect` stores; the calls it is meant for are marked. -/
def store (b : Backend n) (identity : Identity) : Backend n :=
  { b with
    cancelConnect := true
    calls := fun i =>
      let call := b.calls i
      if call.kind = .connect && call.identity = identity && call.pc.unanswered then
        { call with asked := true } else call }

inductive Action (n : Nat)
  | call (i : Fin n) (kind : Kind) (identity : Identity)
  | lock (i : Fin n)
  | proceed (i : Fin n) (answer : Answer)
  | cancelConnect (identity : Identity)

def step (b : Backend n) : Action n → Option (Backend n)
  | .call i kind identity =>
    match (b.calls i).pc with
    | .idle | .returned _ =>
      some { b with calls := Function.update b.calls i { kind, identity, pc := .called } }
    | _ => none
  | .lock i =>
    if (b.calls i).pc = .called ∧ b.mutex = none then some { b.setPc i .locked with mutex := some i } else none
  | .proceed i answer => b.proceed i answer
  | .cancelConnect identity => some (b.store identity)

-- ---------------------------------------------------------------------------
-- Cancellations
-- ---------------------------------------------------------------------------

/-- A cancellation comes after its connect has cleared the flag, and what is cancelled does not throw. -/
def Heeded (b : Backend n) : Action n → Prop
  | .cancelConnect identity => ∀ i, (b.calls i).kind = .connect → (b.calls i).identity = identity →
    (b.calls i).pc ≠ .called ∧ (b.calls i).pc ≠ .locked
  | .proceed i answer => (b.calls i).asked = true → answer ≠ .throws
  | _ => True

instance (b : Backend n) (action : Action n) : Decidable (b.Heeded action) :=
  match action with
  | .cancelConnect _ => inferInstanceAs (Decidable (∀ _, _ → _ → _))
  | .proceed _ _ => inferInstanceAs (Decidable (_ → _))
  | .call _ _ _ | .lock _ => isTrue trivial

/-- Where a call may be that has been asked to cancel. -/
def Asked (flag : Bool) (call : Call) : Prop :=
  call.kind = .connect ∧ match call.pc with
    | .changing | .answered _ => flag = true
    | .returned outcome => outcome = .cancelled
    | _ => False

structure Kept (b : Backend n) : Prop where
  owned : Owned b.mutex fun i => (b.calls i).pc.holds
  asked : ∀ i, (b.calls i).asked = true → Asked b.cancelConnect (b.calls i)

variable {b b' : Backend n} {i : Fin n}

theorem calls_setPc (b : Backend n) (i : Fin n) (pc : Pc) (j : Fin n) :
    (b.setPc i pc).calls j = if j = i then { b.calls i with pc } else b.calls j := Function.update_apply ..

/-- A call that has the mutex goes on and keeps it. -/
theorem Kept.keeps (h : b.Kept) {pc : Pc} (hold : (b.calls i).pc.holds) (hnew : pc.holds)
    (hasked : (b.calls i).asked = true → Asked b.cancelConnect { b.calls i with pc }) :
    (b.setPc i pc).Kept where
  owned := by
    refine h.owned.keep fun j => ?_
    rw [calls_setPc]
    split
    · rename_i hj
      rw [hj]
      exact iff_of_true hnew hold
    · rfl
  asked j := by
    rw [calls_setPc]
    split
    · exact hasked
    · exact h.asked j

/-- A call that has the mutex returns. -/
theorem Kept.leaves (h : b.Kept) {outcome : Outcome} (hold : (b.calls i).pc.holds)
    (hasked : (b.calls i).asked = true → (b.calls i).kind = .connect ∧ outcome = .cancelled) :
    (b.leave i outcome).Kept where
  owned := by
    refine h.owned.drop hold ?_ fun j hne => ?_
    · show ¬ ((b.setPc i (.returned outcome)).calls i).pc.holds = true
      rw [calls_setPc, if_pos rfl]
      exact Bool.false_ne_true
    · show ((b.setPc i (.returned outcome)).calls j).pc.holds = true ↔ _
      rw [calls_setPc, if_neg hne]
  asked j := by
    show ((b.setPc i (.returned outcome)).calls j).asked = true → Asked b.cancelConnect
      ((b.setPc i (.returned outcome)).calls j)
    rw [calls_setPc]
    split
    · exact hasked
    · exact h.asked j

/-- Another call that is in its `connectDevice` or past it would hold the mutex too. -/
theorem Kept.clears (h : b.Kept) (hlocked : (b.calls i).pc = .locked) :
    Kept { b.setPc i .changing with cancelConnect := false } where
  owned := by
    have hkept : (b.setPc i .changing).Kept := by
      refine h.keeps (by rw [hlocked]; rfl) rfl fun hasked => ?_
      have hnot := (h.asked i hasked).2
      rw [hlocked] at hnot
      exact hnot.elim
    exact hkept.owned
  asked j hasked := by
    have hj : ((b.setPc i .changing).calls j).asked = true := hasked
    show Asked false ((b.setPc i .changing).calls j)
    rw [calls_setPc] at hj ⊢
    split
    · rename_i heq
      rw [if_pos heq] at hj
      have hnot := (h.asked i hj).2
      rw [hlocked] at hnot
      exact hnot.elim
    · rename_i hne
      rw [if_neg hne] at hj
      obtain ⟨hkind, hplace⟩ := h.asked j hj
      have hother (hholds : (b.calls j).pc.holds = true) : False :=
        hne (h.owned.unique hholds (by rw [hlocked]; rfl))
      refine ⟨hkind, ?_⟩
      cases hpc : (b.calls j).pc with
      | changing => exact (hother (by rw [hpc]; rfl)).elim
      | answered ok => exact (hother (by rw [hpc]; rfl)).elim
      | returned outcome => rwa [hpc] at hplace
      | idle | called | locked | polls | looks => rwa [hpc] at hplace

theorem Kept.proceed (h : b.Kept) {answer : Answer} (hok : b.Heeded (.proceed i answer))
    (hs : b.proceed i answer = some b') :
    b'.Kept := by
  have hplace := h.asked i
  unfold Backend.proceed at hs
  split at hs
  · rename_i hpc
    have hholds : (b.calls i).pc.holds = true := by rw [hpc]; rfl
    have hunasked (hasked : (b.calls i).asked = true) : False := by
      have hnot := (hplace hasked).2
      rwa [hpc] at hnot
    split at hs
    · obtain rfl := Option.some.inj hs
      exact h.leaves hholds fun hasked => (hunasked hasked).elim
    · obtain rfl := Option.some.inj hs
      exact h.leaves hholds fun hasked => (hunasked hasked).elim
    · obtain rfl := Option.some.inj hs
      exact h.clears hpc
    · obtain rfl := Option.some.inj hs
      exact h.keeps hholds rfl fun hasked => (hunasked hasked).elim
  · rename_i hpc
    have hholds : (b.calls i).pc.holds = true := by rw [hpc]; rfl
    have hflag (hasked : (b.calls i).asked = true) : (b.calls i).kind = .connect ∧ b.cancelConnect = true := by
      have hasked := hplace hasked
      rw [Asked, hpc] at hasked
      exact hasked
    split at hs
    · obtain rfl := Option.some.inj hs
      exact h.leaves hholds fun hasked => absurd rfl (hok hasked)
    · obtain rfl := Option.some.inj hs
      exact h.keeps hholds rfl hflag
    · obtain rfl := Option.some.inj hs
      exact h.keeps hholds rfl hflag
    · obtain rfl := Option.some.inj hs
      exact h.keeps hholds rfl hflag
  · rename_i ok hpc
    have hholds : (b.calls i).pc.holds = true := by rw [hpc]; rfl
    have hflag (hasked : (b.calls i).asked = true) : (b.calls i).kind = .connect ∧ b.cancelConnect = true := by
      have hasked := hplace hasked
      rw [Asked, hpc] at hasked
      exact hasked
    obtain rfl := Option.some.inj hs
    split
    · exact h.leaves hholds fun hasked => ⟨(hflag hasked).1, rfl⟩
    · rename_i huncancelled
      -- the flag is still set
      have hunasked (hasked : (b.calls i).asked = true) : False :=
        huncancelled (Bool.and_eq_true_iff.mpr ⟨decide_eq_true (hflag hasked).1, (hflag hasked).2⟩)
      split
      · exact h.keeps hholds rfl fun hasked => (hunasked hasked).elim
      · exact h.leaves hholds fun hasked => (hunasked hasked).elim
  · rename_i hpc
    have hholds : (b.calls i).pc.holds = true := by rw [hpc]; rfl
    have hunasked (hasked : (b.calls i).asked = true) : False := by
      have hnot := (hplace hasked).2
      rwa [hpc] at hnot
    split at hs
    · obtain rfl := Option.some.inj hs
      exact h.leaves hholds fun hasked => (hunasked hasked).elim
    · obtain rfl := Option.some.inj hs
      split
      · exact h.leaves hholds fun hasked => (hunasked hasked).elim
      · exact h.keeps hholds rfl fun hasked => (hunasked hasked).elim
  · rename_i hpc
    have hholds : (b.calls i).pc.holds = true := by rw [hpc]; rfl
    have hunasked (hasked : (b.calls i).asked = true) : False := by
      have hnot := (hplace hasked).2
      rwa [hpc] at hnot
    split at hs
    · obtain rfl := Option.some.inj hs
      exact h.leaves hholds fun hasked => (hunasked hasked).elim
    · obtain rfl := Option.some.inj hs
      exact h.keeps hholds rfl fun hasked => (hunasked hasked).elim
    · obtain rfl := Option.some.inj hs
      exact h.leaves hholds fun hasked => (hunasked hasked).elim
    · obtain rfl := Option.some.inj hs
      exact h.leaves hholds fun hasked => (hunasked hasked).elim
  all_goals cases hs

theorem Kept.store (h : b.Kept) {identity : Identity} (hok : b.Heeded (.cancelConnect identity)) :
    (b.store identity).Kept where
  owned := by
    refine h.owned.keep fun j => ?_
    unfold Backend.store
    dsimp only
    split <;> rfl
  asked j hasked := by
    unfold Backend.store at hasked ⊢
    dsimp only at hasked ⊢
    split
    · rename_i hmarked
      obtain ⟨hconnect, hunanswered⟩ := Bool.and_eq_true_iff.mp hmarked
      obtain ⟨hkind, hidentity⟩ := Bool.and_eq_true_iff.mp hconnect
      obtain ⟨hcalled, hlocked⟩ := hok j (of_decide_eq_true hkind) (of_decide_eq_true hidentity)
      refine ⟨of_decide_eq_true hkind, ?_⟩
      cases hpc : (b.calls j).pc with
      | changing | answered => rfl
      | called => exact absurd hpc hcalled
      | locked => exact absurd hpc hlocked
      | idle | polls | looks | returned =>
        rw [hpc] at hunanswered
        cases hunanswered
    · rename_i hunmarked
      rw [if_neg hunmarked] at hasked
      obtain ⟨hkind, hplace⟩ := h.asked j hasked
      refine ⟨hkind, ?_⟩
      cases hpc : (b.calls j).pc with
      | changing | answered => rfl
      | idle | called | locked | polls | looks | returned => rwa [hpc] at hplace

theorem Kept.step {action : Action n} (h : b.Kept) (hok : b.Heeded action) (hs : b.step action = some b') :
    b'.Kept := by
  cases action with
  | call i kind identity =>
    have hcalled (hfree : (b.calls i).pc.holds = false) :
        Kept { b with calls := Function.update b.calls i { kind, identity, pc := .called } } := by
      have hcalls (j : Fin n) := Function.update_apply b.calls i { kind, identity, pc := .called } j
      refine ⟨h.owned.keep fun j => ?_, fun j hasked => ?_⟩
      · dsimp only
        rw [hcalls]
        split
        · rename_i hj
          rw [hj, hfree]
          rfl
        · rfl
      · dsimp only at hasked ⊢
        rw [hcalls] at hasked ⊢
        split at hasked
        · cases hasked
        · rename_i hj
          rw [if_neg hj]
          exact h.asked j hasked
    simp only [Backend.step] at hs
    split at hs
    · rename_i hpc
      obtain rfl := Option.some.inj hs
      exact hcalled (by rw [hpc]; rfl)
    · rename_i hpc
      obtain rfl := Option.some.inj hs
      exact hcalled (by rw [hpc]; rfl)
    · cases hs
  | lock i =>
    simp only [Backend.step] at hs
    split at hs
    · rename_i henabled
      obtain ⟨hpc, hfree⟩ := henabled
      obtain rfl := Option.some.inj hs
      refine ⟨h.owned.take hfree ?_ fun j hne => ?_, fun j => ?_⟩
      · show ((b.setPc i .locked).calls i).pc.holds = true
        rw [calls_setPc, if_pos rfl]
        rfl
      · show ((b.setPc i .locked).calls j).pc.holds = true ↔ _
        rw [calls_setPc, if_neg hne]
      · show ((b.setPc i .locked).calls j).asked = true → Asked b.cancelConnect ((b.setPc i .locked).calls j)
        rw [calls_setPc]
        split
        · intro hasked
          have hnot := (h.asked i hasked).2
          rw [hpc] at hnot
          exact hnot.elim
        · exact h.asked j
    · cases hs
  | proceed i answer => exact h.proceed hok hs
  | cancelConnect identity =>
    obtain rfl := Option.some.inj hs
    exact h.store hok

theorem kept_of_reaches (h : ReachesBy step Heeded ({} : Backend n) b) : b.Kept :=
  h.invariant ⟨fun _ => iff_of_false nofun Bool.false_ne_true, fun _ hasked => by cases hasked⟩ Kept.step

/-- A connect that is to be cancelled: it is in its `connectDevice`, or about to
look at the flag, or it has returned that it has been cancelled. Its next steps
lead there, and those of other calls leave it where it is. -/
structure Cancels (b : Backend n) (i : Fin n) : Prop where
  place : (b.calls i).pc = .changing ∨ (∃ ok, (b.calls i).pc = .answered ok) ∨ (b.calls i).pc =
    .returned .cancelled
  answers : (b.calls i).pc = .changing → ∀ answer, answer ≠ .throws →
    ∃ b' ok, b.step (.proceed i answer) = some b' ∧ (b'.calls i).pc = .answered ok ∧ (b'.calls i).asked = true
  returns : ∀ ok, (b.calls i).pc = .answered ok → ∀ answer,
    ∃ b', b.step (.proceed i answer) = some b' ∧ (b'.calls i).pc = .returned .cancelled
  stays : (b.calls i).pc ≠ .returned .cancelled → ∀ action b', b.step action = some b' →
    (∀ answer, action ≠ .proceed i answer) → (b'.calls i).pc = (b.calls i).pc ∧ (b'.calls i).asked = true

theorem calls_leave (b : Backend n) (i : Fin n) (outcome : Outcome) (j : Fin n) :
    (b.leave i outcome).calls j = if j = i then { b.calls i with pc := .returned outcome } else b.calls j :=
  calls_setPc b i (.returned outcome) j

/-- A call is moved by its own steps only. -/
theorem proceed_calls_of_ne {j : Fin n} {answer : Answer} (hs : b.proceed j answer = some b') (hne : i ≠ j) :
    b'.calls i = b.calls i := by
  have hset (pc : Pc) : (b.setPc j pc).calls i = b.calls i := by rw [calls_setPc, if_neg hne]
  have hleave (outcome : Outcome) : (b.leave j outcome).calls i = b.calls i := by rw [calls_leave, if_neg hne]
  unfold Backend.proceed at hs
  split at hs
  · split at hs
    · exact Option.some.inj hs ▸ hleave _
    · exact Option.some.inj hs ▸ hleave _
    · exact Option.some.inj hs ▸ hset _
    · exact Option.some.inj hs ▸ hset _
  · split at hs
    · exact Option.some.inj hs ▸ hleave _
    · exact Option.some.inj hs ▸ hset _
    · exact Option.some.inj hs ▸ hset _
    · exact Option.some.inj hs ▸ hset _
  · obtain rfl := Option.some.inj hs
    split
    · exact hleave _
    · split
      · exact hset _
      · exact hleave _
  · split at hs
    · exact Option.some.inj hs ▸ hleave _
    · obtain rfl := Option.some.inj hs
      split
      · exact hleave _
      · exact hset _
  · split at hs
    · exact Option.some.inj hs ▸ hleave _
    · exact Option.some.inj hs ▸ hset _
    · exact Option.some.inj hs ▸ hleave _
    · exact Option.some.inj hs ▸ hleave _
  all_goals cases hs

theorem stays_of_pc (hasked : (b.calls i).asked = true)
    (hplace : (b.calls i).pc = .changing ∨ ∃ ok, (b.calls i).pc = .answered ok) {action : Action n}
    (hs : b.step action = some b') (hother : ∀ answer, action ≠ .proceed i answer) :
    (b'.calls i).pc = (b.calls i).pc ∧ (b'.calls i).asked = true := by
  have hbusy (hfree : (b.calls i).pc = .idle ∨ (b.calls i).pc = .called ∨ ∃ o,
    (b.calls i).pc = .returned o) : False := by
    rcases hplace with hpc | ⟨ok, hpc⟩ <;> simp [hpc] at hfree
  cases action with
  | call j kind identity =>
    simp only [Backend.step] at hs
    have hne (hfree : (b.calls j).pc = .idle ∨ ∃ o, (b.calls j).pc = .returned o) : i ≠ j := by
      rintro rfl
      exact hbusy (hfree.imp_right .inr)
    split at hs
    · rename_i hpc
      obtain rfl := Option.some.inj hs
      dsimp only
      rw [Function.update_of_ne (hne (.inl hpc))]
      exact ⟨rfl, hasked⟩
    · rename_i outcome hpc
      obtain rfl := Option.some.inj hs
      dsimp only
      rw [Function.update_of_ne (hne (.inr ⟨outcome, hpc⟩))]
      exact ⟨rfl, hasked⟩
    · cases hs
  | lock j =>
    simp only [Backend.step] at hs
    split at hs
    · rename_i henabled
      obtain rfl := Option.some.inj hs
      have hne : i ≠ j := by
        rintro rfl
        exact hbusy (.inr (.inl henabled.1))
      show ((b.setPc j .locked).calls i).pc = _ ∧ ((b.setPc j .locked).calls i).asked = true
      rw [calls_setPc, if_neg hne]
      exact ⟨rfl, hasked⟩
    · cases hs
  | proceed j answer =>
    have hne : i ≠ j := by
      rintro rfl
      exact hother answer rfl
    rw [proceed_calls_of_ne hs hne]
    exact ⟨rfl, hasked⟩
  | cancelConnect identity =>
    obtain rfl := Option.some.inj hs
    unfold Backend.store
    dsimp only
    split
    · exact ⟨rfl, rfl⟩
    · exact ⟨rfl, hasked⟩

/-- A connect that a cancellation was meant for returns that it has been cancelled. -/
theorem cancellation_kept (h : ReachesBy step Heeded ({} : Backend n) b) (hasked : (b.calls i).asked = true) :
    b.Cancels i := by
  obtain ⟨hkind, hplace⟩ := (kept_of_reaches h).asked i hasked
  refine ⟨?_, fun hpc answer hanswer => ?_, fun ok hpc answer => ?_, fun hreturned action b' hs => ?_⟩
  · cases hpc : (b.calls i).pc with
    | changing => exact .inl rfl
    | answered ok => exact .inr (.inl ⟨ok, rfl⟩)
    | returned outcome =>
      rw [hpc] at hplace
      exact .inr (.inr (congrArg Pc.returned hplace))
    | idle | called | locked | polls | looks => exact (by rwa [hpc] at hplace : False).elim
  · have hanswered (ok : Bool) : ((b.setPc i (.answered ok)).calls i).pc = .answered ok ∧
        ((b.setPc i (.answered ok)).calls i).asked = true := by
      rw [calls_setPc, if_pos rfl]
      exact ⟨rfl, hasked⟩
    cases answer with
    | throws => exact absurd rfl hanswer
    | ok => exact ⟨_, true, by simp only [Backend.step, Backend.proceed, hpc], hanswered true⟩
    | error | again => exact ⟨_, false, by simp only [Backend.step, Backend.proceed, hpc], hanswered false⟩
  · rw [hpc] at hplace
    -- the flag is still set when it is looked at
    have hcancelled : b.cancelled i = true := Bool.and_eq_true_iff.mpr ⟨decide_eq_true hkind, hplace⟩
    refine ⟨b.leave i .cancelled, ?_, ?_⟩
    · simp only [Backend.step, Backend.proceed, hpc, hcancelled, if_true]
    · rw [calls_leave, if_pos rfl]
  · refine stays_of_pc hasked ?_ hs
    cases hpc : (b.calls i).pc with
    | changing => exact .inl rfl
    | answered ok => exact .inr ⟨ok, rfl⟩
    | returned outcome =>
      rw [hpc] at hplace
      exact absurd (hpc.trans (congrArg Pc.returned hplace)) hreturned
    | idle | called | locked | polls | looks => exact (by rwa [hpc] at hplace : False).elim

/-- A device. -/
def phone : Identity := ⟨[65], [49]⟩

/-- A connect that is cancelled in its `connectDevice`. -/
def cancelledInTime : List (Action 2) :=
  [.call 1 .connect phone, .lock 1, .proceed 1 .ok, .cancelConnect phone]

theorem cancellation_kept_once : ∃ b : Backend 2, (b.calls 1).asked = true ∧ (b.calls 1).pc =
    .changing ∧ b.Cancels 1 :=
  have h : ReachesBy step Heeded ({} : Backend 2) _ :=
    ReachesBy.of_isSome_by cancelledInTime (by decide +kernel)
  ⟨_, by decide +kernel, by decide +kernel, cancellation_kept h (by decide +kernel)⟩

/-- A connect that is cancelled while it waits for a snapshot to return the mutex. -/
def cancelledEarly : List (Action 2) :=
  [.call 0 .snapshot phone, .lock 0, .call 1 .connect phone, .cancelConnect phone, .proceed 0 .ok, .lock 1,
    .proceed 1 .ok, .proceed 1 .ok, .proceed 1 .ok, .proceed 1 .ok, .proceed 1 .ok]

theorem cancellation_lost : ¬ ∀ (n : Nat) (b : Backend n), Reaches step ({} : Backend n) b → ∀ i outcome,
    (b.calls i).asked = true → (b.calls i).pc = .returned outcome → outcome = .cancelled := by
  intro h
  have hreaches : Reaches step ({} : Backend 2) _ := ReachesBy.of_isSome cancelledEarly (by decide +kernel)
  have heq := h 2 _ hreaches 1 .success (by decide +kernel) (by decide +kernel)
  cases heq

end Backend
end Dmn.BluezBackend
