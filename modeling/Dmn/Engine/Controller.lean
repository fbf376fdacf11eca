import Dmn.Engine.Identity
import Mathlib.Data.List.Basic
import Mathlib.Tactic.IntervalCases

/-!
# The monitor controller

`Dmn_DeviceMonitorController`: which monitors are to be started and stopped,
and when a start that has failed is tried again. Times are in milliseconds.
-/

namespace Dmn.Engine

/-- `Dmn_MonitorControllerDeviceState` -/
structure ControllerDeviceState where
  identity : Identity
  saved : Bool
  monitoringRequested : Bool
  present : Bool
  paired : Bool
  connected : Bool
  monitorActive : Bool
  monitorBusy : Bool
  monitorRestartRequired : Bool := false

inductive MonitorAction
  | start
  | stop
  deriving DecidableEq

/-- `Dmn_MonitorControllerCommand` -/
structure MonitorCommand where
  identity : Identity
  action : MonitorAction
  deriving DecidableEq

structure RetryState where
  identity : Identity
  attempts : Nat := 0
  nextAttempt : Nat := 0
  deriving DecidableEq

def kInitialRetryDelay : Nat := 5000
def kMaximumRetryDelay : Nat := 60000
def kRetryJitterMinimumPercent : Nat := 80
def kRetryJitterMaximumPercent : Nat := 100
def kMaximumBackoffAttempt : Nat := 5

/-- `Dmn_DeviceMonitorController` -/
structure MonitorController where
  retryStates : List RetryState := []

namespace MonitorController

def resetRetries (c : MonitorController) (identity : Identity) : MonitorController :=
  { c with retryStates := c.retryStates.filter (·.identity ≠ identity) }

def recordStartSuccess (c : MonitorController) (identity : Identity) : MonitorController :=
    c.resetRetries identity

def retryStateFor (c : MonitorController) (identity : Identity) : MonitorController × RetryState :=
  match c.retryStates.find? (·.identity = identity) with
  | some retryState => (c, retryState)
  | none => ({ c with retryStates := c.retryStates ++ [{ identity }] }, { identity })

/-- Something that `reconcile` asks for is missing. -/
def lapsed (device : ControllerDeviceState) : Bool :=
  !device.saved || !device.monitoringRequested || !device.present || !device.paired || !device.connected

/-- A round of the loop of `reconcile`. -/
def reconcileDevice (allowStarts : Bool) (now : Nat) (c : MonitorController) (device : ControllerDeviceState) :
    MonitorController × Option MonitorCommand :=
  let c := if lapsed device then c.resetRetries device.identity else c
  if device.monitorBusy then (c, none)
  else
    let connected := device.present && device.paired && device.connected
    if device.monitorActive &&
        (!device.saved || !device.monitoringRequested || !connected || device.monitorRestartRequired) then
      (c, some ⟨device.identity, .stop⟩)
    else if !allowStarts || !device.saved || !device.monitoringRequested || !connected ||
      device.monitorActive then (c, none)
    else
      let (c, retryState) := c.retryStateFor device.identity
      if now < retryState.nextAttempt then (c, none) else (c, some ⟨device.identity, .start⟩)

def reconcile (c : MonitorController) (devices : List ControllerDeviceState) (allowStarts : Bool) (now : Nat) :
    MonitorController × List MonitorCommand :=
  match devices with
  | [] => (c, [])
  | device :: devices =>
    let (c, command) := c.reconcileDevice allowStarts now device
    let (c, commands) := c.reconcile devices allowStarts now
    (c, command.toList ++ commands)

/-- The delay after so many attempts, before jitter. -/
def retryDelay (attempts : Nat) : Nat :=
  (List.range (attempts - 1)).foldl
    (fun delay _ => if delay < kMaximumRetryDelay then min (delay * 2) kMaximumRetryDelay else delay)
    kInitialRetryDelay

/-- The delay that is scheduled; `none` where it throws. -/
def recordStartFailure (c : MonitorController) (identity : Identity) (now jitterPercent : Nat) :
    Option (MonitorController × Nat) :=
  if jitterPercent < kRetryJitterMinimumPercent ∨ kRetryJitterMaximumPercent < jitterPercent then none
  else
    let (c, retryState) := c.retryStateFor identity
    let attempts := if retryState.attempts < kMaximumBackoffAttempt then retryState.attempts +
      1 else retryState.attempts
    let jitteredDelay := retryDelay attempts * jitterPercent / 100
    let nextAttempt := now + jitteredDelay
    some ({ c with
      retryStates := c.retryStates.replaceF fun other =>
        if other.identity = identity then some { other with attempts, nextAttempt } else none }, jitteredDelay)

/-- What a command of a round says of its device. -/
def Issued (allowStarts : Bool) (device : ControllerDeviceState) (command : MonitorCommand) : Prop :=
  command.identity = device.identity ∧ device.monitorBusy = false ∧
    match command.action with
    | .start => allowStarts = true ∧ lapsed device = false ∧ device.monitorActive = false
    | .stop => device.monitorActive = true

theorem issued_of_reconcileDevice {c : MonitorController} {allowStarts : Bool} {now : Nat}
    {device : ControllerDeviceState}
    {command : MonitorCommand} (h : (c.reconcileDevice allowStarts now device).2 = some command) :
    Issued allowStarts device command := by
  unfold reconcileDevice at h
  dsimp only at h
  generalize (if lapsed device then c.resetRetries device.identity else c) = c' at h
  split at h
  · cases h
  · rename_i hbusy
    split at h
    · rename_i hstop
      obtain rfl := Option.some.inj h
      exact ⟨rfl, eq_false_of_ne_true hbusy, (Bool.and_eq_true_iff.mp hstop).1⟩
    · split at h
      · cases h
      · rename_i hstart
        split at h
        · cases h
        · obtain rfl := Option.some.inj h
          simp only [Bool.or_eq_true, Bool.not_eq_true', Bool.and_eq_false_iff, not_or, Bool.not_eq_true,
            Bool.not_eq_false] at hstart
          obtain ⟨⟨⟨⟨hallow, hsaved⟩, hrequested⟩, hconnected⟩, hactive⟩ := hstart
          refine ⟨rfl, eq_false_of_ne_true hbusy, hallow, ?_, hactive⟩
          simp only [lapsed]
          grind

theorem issued_of_reconcile {devices : List ControllerDeviceState} {c : MonitorController}
    {allowStarts : Bool} {now : Nat}
    {command : MonitorCommand} (h : command ∈ (c.reconcile devices allowStarts now).2) :
    ∃ device ∈ devices, Issued allowStarts device command := by
  induction devices generalizing c with
  | nil => cases h
  | cons device devices ih =>
    obtain hfirst | hrest := List.mem_append.mp h
    · exact ⟨device, List.mem_cons_self, issued_of_reconcileDevice (Option.mem_toList.mp hfirst)⟩
    · obtain ⟨other, hother, hissued⟩ := ih hrest
      exact ⟨other, List.mem_cons_of_mem _ hother, hissued⟩

/-- A device gets one command at most, and the commands are in the order of the devices. -/
theorem identities_reconcile (devices : List ControllerDeviceState) (c : MonitorController)
    (allowStarts : Bool) (now : Nat) :
    ((c.reconcile devices allowStarts now).2.map (·.identity)).Sublist (devices.map (·.identity)) := by
  induction devices generalizing c with
  | nil => exact .refl _
  | cons device devices ih =>
    simp only [reconcile, List.map_append, List.map_cons]
    cases hcommand : (c.reconcileDevice allowStarts now device).2 with
    | none => exact (ih _).cons _
    | some command =>
      simp only [Option.toList_some, List.map_cons, List.map_nil, List.singleton_append,
        (issued_of_reconcileDevice hcommand).1]
      exact (ih _).cons_cons _

-- ---------------------------------------------------------------------------
-- Retry states
-- ---------------------------------------------------------------------------

/-- The retry state of an identity, whether there is an entry or not. -/
def stateOf (c : MonitorController) (identity : Identity) : RetryState :=
  (c.retryStates.find? (·.identity = identity)).getD { identity }

variable {c : MonitorController} {identity other : Identity}

theorem stateOf_resetRetries (c : MonitorController) (identity other : Identity) :
    (c.resetRetries identity).stateOf other = if other = identity then { identity := other } else
    c.stateOf other := by
  unfold stateOf resetRetries
  by_cases hother : other = identity
  · rw [if_pos hother, List.find?_eq_none.mpr]
    · rfl
    · intro retryState hmem
      have hne := of_decide_eq_true (List.mem_filter.mp hmem).2
      rw [hother]
      exact fun heq => hne (of_decide_eq_true heq)
  · rw [if_neg hother, List.find?_filter]
    congr 2
    funext retryState
    by_cases heq : retryState.identity = other
    · simp [heq, hother]
    · simp [heq]

theorem retryStateFor_eq (c : MonitorController) (identity : Identity) :
    (c.retryStateFor identity).2 = c.stateOf identity ∧
      ∀ other, (c.retryStateFor identity).1.stateOf other = c.stateOf other := by
  unfold retryStateFor
  split
  · rename_i retryState hfound
    refine ⟨?_, fun _ => rfl⟩
    rw [stateOf, hfound]
    rfl
  · rename_i hnone
    refine ⟨?_, fun other => ?_⟩
    · rw [stateOf, hnone]
      rfl
    · unfold stateOf
      rw [List.find?_append]
      by_cases hother : identity = other
      · subst hother
        rw [hnone]
        simp
      · simp [hother]

/-- The retry state of one identity is rewritten. -/
theorem find?_replaceF {retryStates : List RetryState} (f : RetryState → RetryState)
    (hf : ∀ retryState, (f retryState).identity = retryState.identity) {retryState : RetryState}
    (hfound : retryStates.find? (·.identity = identity) = some retryState) (other : Identity) :
    (retryStates.replaceF fun entry => if entry.identity = identity then some (f entry) else none).find?
    (·.identity = other) =
      if other = identity then some (f retryState) else retryStates.find? (·.identity = other) := by
  induction retryStates with
  | nil => cases hfound
  | cons first retryStates ih =>
    by_cases hfirst : first.identity = identity
    · have hsame : first = retryState := by simpa [hfirst] using hfound
      subst hsame
      have hreplaced : ((first :: retryStates).replaceF fun entry =>
          if entry.identity = identity then some (f entry) else none) = f first :: retryStates := by
        simp [List.replaceF, hfirst]
      rw [hreplaced]
      by_cases hother : other = identity
      · simp [hf, hfirst, hother]
      · have hne : first.identity ≠ other := fun heq => hother (heq.symm.trans hfirst)
        simp [hf, hne, hother]
    · have hrest : retryStates.find? (·.identity = identity) = some retryState := by simpa [hfirst] using hfound
      have hreplaced : ((first :: retryStates).replaceF fun entry =>
          if entry.identity = identity then some (f entry) else none) =
            first :: retryStates.replaceF fun entry => if entry.identity = identity then some
              (f entry) else none := by
        simp [List.replaceF, hfirst]
      rw [hreplaced]
      by_cases hother : first.identity = other
      · have hne : other ≠ identity := fun heq => hfirst (hother.trans heq)
        simp [hother, hne]
      · simpa [hother] using ih hrest

theorem find?_retryStateFor (c : MonitorController) (identity : Identity) :
    (c.retryStateFor identity).1.retryStates.find? (·.identity = identity) =
    some (c.retryStateFor identity).2 := by
  unfold retryStateFor
  split
  · assumption
  · rename_i hnone
    rw [List.find?_append, hnone]
    simp

/-- After so many attempts, before jitter. -/
theorem retryDelay_eq {count : Nat} (hcount : 0 < count) :
    retryDelay (min count kMaximumBackoffAttempt) = min (kInitialRetryDelay * 2 ^ (count - 1))
      kMaximumRetryDelay := by
  by_cases hlt : count < kMaximumBackoffAttempt
  · have hlt : count < 5 := hlt
    interval_cases count <;> decide
  · have hle : kMaximumBackoffAttempt ≤ count := Nat.le_of_not_lt hlt
    rw [Nat.min_eq_right hle]
    have hpow : 2 ^ 4 ≤ 2 ^ (count - 1) := Nat.pow_le_pow_right (by decide) (Nat.le_sub_of_add_le hle)
    rw [Nat.min_eq_right (by unfold kInitialRetryDelay kMaximumRetryDelay; omega)]
    decide

/-- A failure counts for its identity only, and puts off the next attempt. -/
theorem stateOf_recordStartFailure {now jitterPercent : Nat} {c' : MonitorController} {delay : Nat}
    (h : c.recordStartFailure identity now jitterPercent = some (c', delay)) (other : Identity) :
    c'.stateOf other =
      if other = identity then
        { identity := other
          attempts := min ((c.stateOf identity).attempts + 1) (max (c.stateOf identity).attempts
            kMaximumBackoffAttempt)
          nextAttempt := now +
            retryDelay (min ((c.stateOf identity).attempts + 1) (max (c.stateOf identity).attempts
              kMaximumBackoffAttempt)) *
              jitterPercent / 100 }
      else c.stateOf other := by
  unfold recordStartFailure at h
  split at h
  · cases h
  · obtain ⟨hstate, hothers⟩ := retryStateFor_eq c identity
    have hfound := find?_retryStateFor c identity
    dsimp only at h
    rw [hstate] at h hfound
    have hattempts : (if (c.stateOf identity).attempts < kMaximumBackoffAttempt then
      (c.stateOf identity).attempts + 1
        else (c.stateOf identity).attempts) =
        min ((c.stateOf identity).attempts + 1) (max (c.stateOf identity).attempts kMaximumBackoffAttempt) := by
      split <;> omega
    rw [hattempts] at h
    generalize min ((c.stateOf identity).attempts + 1) (max (c.stateOf identity).attempts
      kMaximumBackoffAttempt) = attempts at h ⊢
    generalize now + retryDelay attempts * jitterPercent / 100 = nextAttempt at h ⊢
    obtain ⟨rfl, -⟩ := Prod.mk.inj (Option.some.inj h)
    rw [stateOf, find?_replaceF (fun other => { other with attempts, nextAttempt }) (fun _ => rfl) hfound]
    by_cases hother : other = identity
    · subst hother
      rw [if_pos rfl, if_pos rfl, Option.getD_some]
      have hidentity : (c.stateOf other).identity = other := by
        have hmem := List.find?_some hfound
        exact of_decide_eq_true hmem
      rw [hidentity]
    · rw [if_neg hother, if_neg hother]
      exact hothers other

/-- What a round does to the retry states. -/
theorem stateOf_reconcileDevice (c : MonitorController) (allowStarts : Bool) (now : Nat)
    (device : ControllerDeviceState)
    (other : Identity) :
    (c.reconcileDevice allowStarts now device).1.stateOf other =
      if lapsed device ∧ device.identity = other then { identity := other } else c.stateOf other := by
  have hreset : (if lapsed device then c.resetRetries device.identity else c).stateOf other =
      if lapsed device ∧ device.identity = other then { identity := other } else c.stateOf other := by
    by_cases hlapsed : lapsed device = true
    · rw [if_pos hlapsed, stateOf_resetRetries]
      exact if_congr (by rw [eq_comm]; simp [hlapsed]) rfl rfl
    · rw [if_neg hlapsed, if_neg fun hand => hlapsed hand.1]
  rw [← hreset]
  unfold reconcileDevice
  dsimp only
  generalize (if lapsed device then c.resetRetries device.identity else c) = c'
  split
  · rfl
  · split
    · rfl
    · split
      · rfl
      · split <;> exact (retryStateFor_eq c' device.identity).2 other

theorem stateOf_reconcile (devices : List ControllerDeviceState) (c : MonitorController)
    (allowStarts : Bool) (now : Nat)
    (other : Identity) :
    (c.reconcile devices allowStarts now).1.stateOf other =
      if devices.any fun device => lapsed device && device.identity = other then { identity := other }
        else c.stateOf other := by
  induction devices generalizing c with
  | nil => rfl
  | cons device devices ih =>
    simp only [reconcile, List.any_cons]
    rw [ih, stateOf_reconcileDevice]
    by_cases hrest : (devices.any fun device => lapsed device && device.identity = other) = true
    · simp [hrest]
    · rw [if_neg hrest]
      exact if_congr (by simp [eq_false_of_ne_true hrest]) rfl rfl

theorem due_of_reconcileDevice {allowStarts : Bool} {now : Nat} {device : ControllerDeviceState}
    {command : MonitorCommand}
    (h : (c.reconcileDevice allowStarts now device).2 = some command) (hstart : command.action = .start) :
    (c.stateOf device.identity).nextAttempt ≤ now := by
  have hissued := (issued_of_reconcileDevice h).2.2
  rw [hstart] at hissued
  unfold reconcileDevice at h
  simp only [hissued.2.1, Bool.false_eq_true, if_false] at h
  split at h
  · cases h
  · split at h
    · obtain rfl := Option.some.inj h
      cases hstart
    · split at h
      · cases h
      · split at h
        · cases h
        · rename_i hdue
          rw [← (retryStateFor_eq c device.identity).1]
          exact Nat.le_of_not_lt hdue

/-- A start is issued only when its attempt is due, or something has lapsed in the same pass. -/
theorem due_of_reconcile {devices : List ControllerDeviceState} {allowStarts : Bool} {now : Nat}
    {command : MonitorCommand}
    (h : command ∈ (c.reconcile devices allowStarts now).2) (hstart : command.action = .start) :
    (devices.any fun device => lapsed device && device.identity = command.identity) = true ∨
      (c.stateOf command.identity).nextAttempt ≤ now := by
  induction devices generalizing c with
  | nil => cases h
  | cons device devices ih =>
    have h : command ∈ (c.reconcileDevice allowStarts now device).2.toList ++
        (reconcile (c.reconcileDevice allowStarts now device).1 devices allowStarts now).2 := h
    obtain hfirst | hrest := List.mem_append.mp h
    · have hcommand := Option.mem_toList.mp hfirst
      rw [(issued_of_reconcileDevice hcommand).1]
      exact .inr (due_of_reconcileDevice hcommand hstart)
    · rw [List.any_cons]
      obtain hlapsed | hdue := ih hrest
      · exact .inl (by rw [hlapsed, Bool.or_true])
      · rw [stateOf_reconcileDevice] at hdue
        split at hdue
        · rename_i hand
          exact .inl (by simp [hand.1, hand.2])
        · exact .inr hdue

theorem retryDelay_le (attempts : Nat) : retryDelay attempts ≤ kMaximumRetryDelay := by
  have hfold (rounds : List Nat) (delay : Nat) (h : delay ≤ kMaximumRetryDelay) :
      rounds.foldl (fun delay _ => if delay < kMaximumRetryDelay then min (delay * 2) kMaximumRetryDelay
        else delay) delay ≤
        kMaximumRetryDelay := by
    induction rounds generalizing delay with
    | nil => exact h
    | cons _ rounds ih =>
      refine ih _ ?_
      dsimp only
      split
      · exact Nat.min_le_right _ _
      · exact h
  exact hfold _ _ (by decide)

/-- A failure puts off the next attempt by no more than the longest delay. -/
theorem nextAttempt_le {now jitterPercent : Nat} {c' : MonitorController} {delay : Nat}
    (h : c.recordStartFailure identity now jitterPercent = some (c', delay))
    (hjitter : jitterPercent ≤ kRetryJitterMaximumPercent) :
    (c'.stateOf identity).nextAttempt ≤ now + kMaximumRetryDelay := by
  rw [stateOf_recordStartFailure h, if_pos rfl]
  refine Nat.add_le_add_left ?_ now
  generalize min ((c.stateOf identity).attempts + 1) _ = attempts
  calc retryDelay attempts * jitterPercent / 100
      ≤ kMaximumRetryDelay * 100 / 100 := Nat.div_le_div_right (Nat.mul_le_mul (retryDelay_le attempts) hjitter)
    _ = kMaximumRetryDelay := by decide

theorem start_of_reconcileDevice {now : Nat} {device : ControllerDeviceState}
    (hbusy : device.monitorBusy = false)
    (hlapsed : lapsed device = false) (hactive : device.monitorActive = false)
    (hdue : (c.stateOf device.identity).nextAttempt ≤ now) :
    (c.reconcileDevice true now device).2 = some ⟨device.identity, .start⟩ := by
  have hstate := (retryStateFor_eq c device.identity).1
  unfold reconcileDevice
  simp only [hlapsed, hbusy, hactive, Bool.false_eq_true, Bool.false_and, if_false]
  rw [if_neg, hstate, if_neg (Nat.not_lt.mpr hdue)]
  simp only [lapsed, Bool.or_eq_false_iff, Bool.not_eq_false'] at hlapsed
  simp [hlapsed]

/-- What is asked for and has all it needs is started as soon as its attempt is due. -/
theorem start_of_due {devices : List ControllerDeviceState} {now : Nat} {device : ControllerDeviceState}
    (hmem : device ∈ devices) (hbusy : device.monitorBusy = false) (hlapsed : lapsed device = false)
    (hactive : device.monitorActive = false) (hdue : (c.stateOf device.identity).nextAttempt ≤ now) :
    ⟨device.identity, .start⟩ ∈ (c.reconcile devices true now).2 := by
  induction devices generalizing c with
  | nil => cases hmem
  | cons first devices ih =>
    show _ ∈ (c.reconcileDevice true now first).2.toList ++
      (reconcile (c.reconcileDevice true now first).1 devices true now).2
    rcases List.mem_cons.mp hmem with rfl | hmem
    · rw [start_of_reconcileDevice hbusy hlapsed hactive hdue]
      exact List.mem_append_left _ (List.mem_singleton.mpr rfl)
    · refine List.mem_append_right _ (ih hmem ?_)
      rw [stateOf_reconcileDevice]
      split
      · exact Nat.zero_le now
      · exact hdue

end MonitorController
end Dmn.Engine
