import Dmn.Ancs.Monitor.Setup
import Mathlib

/-!
# What a start does

The calls of `start` follow `permitted`, whatever is answered: discovery is off
when anything else is asked for, the client is started only for a device that
the latest inventory shows paired and connected, and nothing but the stop of
the client comes after a cancellation. When BlueZ refuses to stop discovery, or
the client to be stopped, the start fails.
-/

namespace Dmn.Ancs.Monitor

open Dmn.Lib Dmn.Bluez Dmn.Lib.Dialogue

-- ---------------------------------------------------------------------------
-- The protocol
-- ---------------------------------------------------------------------------

def Progress.rank : Progress → Nat
  | .inventory => 0
  | .discovery => 1
  | .pairing => 2
  | .connection => 3
  | .ancsStartup => 4

/-- What the calls so far come to. -/
structure Conduct where
  progress : Option Progress := none
  -- The latest.
  inventory : Option BluezInventory := none
  discovering : Bool := false
  -- discovery could not be stopped
  stuck : Bool := false
  cancelled : Bool := false
  -- for which device the client was started
  target : Option String := none
  stopped : Bool := false
  -- the client could not be stopped
  unstopped : Bool := false

namespace Conduct

def next (c : Conduct) : Exchange Call Answer → Conduct
  | ⟨.cancellationRequested, yes⟩ => { c with cancelled := yes }
  | ⟨.reportProgress progress, _⟩ => { c with progress := some progress }
  | ⟨.snapshot _, .ok inventory⟩ => { c with inventory := some inventory }
  | ⟨.startDiscovery _, .ok _⟩ => { c with discovering := true }
  | ⟨.stopDiscovery, .ok _⟩ => { c with discovering := false }
  | ⟨.stopDiscovery, .error _⟩ => { c with stuck := true }
  | ⟨.ancsStart device _, _⟩ => { c with target := some device }
  | ⟨.ancsStop, .ok _⟩ => { c with stopped := true }
  | ⟨.ancsStop, .error _⟩ => { c with unstopped := true }
  | _ => c

/-- The client was started, and not stopped. -/
def active (c : Conduct) : Prop := c.target.isSome = true ∧ c.stopped = false

def before (c : Conduct) (progress : Progress) : Prop := ∀ reported ∈ c.progress, reported.rank < progress.rank

/-- Nothing is under way, but that discovery may not have been stopped. -/
structure Idle (c : Conduct) : Prop where
  searching : c.discovering = true → c.stuck = true
  cancelled : c.cancelled = false
  target : c.target = none
  unstopped : c.unstopped = false

/-- Nothing is under way. -/
structure Free (c : Conduct) : Prop extends Idle c where
  discovering : c.discovering = false
  stuck : c.stuck = false
  stopped : c.stopped = false

/-- The latest inventory shows it. -/
def Shows (c : Conduct) (device : Device) : Prop := ∃ inventory ∈ c.inventory, device ∈ inventory.devices

end Conduct

open Conduct

def Linked (device : Device) : Prop := device.paired = some true ∧ device.connected = some true

/-- When a call may be made. -/
def permitted (config : MonitorConfig) (c : Conduct) (e : Exchange Call Answer) : Prop :=
  match e.1 with
  | .cancellationRequested =>
    (c.discovering = true → c.stuck = true) ∧ c.cancelled = false ∧ c.unstopped = false
  | .reportProgress progress => c.Free ∧ c.before progress
  | .ancsState => c.Free ∧ c.progress = none
  | .snapshot _ => c.Free ∧ c.progress.isSome = true
  | .startDiscovery _ => c.Free ∧ c.progress = some .discovery ∧ config.requireExistingConnection = false
  | .devices | .stopDiscovery => c.discovering = true ∧ c.stuck = false ∧ c.cancelled = false
  | .pairDevice _ _ timeout => c.Free ∧ c.progress = some .pairing ∧ config.requireExistingConnection = false ∧
      0 < timeout ∧ timeout ≤ config.pairingTimeout
  | .connectDevice _ _ timeout => c.Free ∧ c.progress = some .connection ∧
      config.requireExistingConnection = false ∧ 0 < timeout ∧ timeout ≤ config.connectionTimeout
  | .connectAvailableProfiles _ _ timeout => c.Free ∧ c.progress = some .connection ∧
      timeout = config.connectionTimeout ∧ requestRemainingProfiles config = true
  | .ancsStart path _ => c.Free ∧ c.progress = some .ancsStartup ∧
      ∃ device, device.objectPath = path ∧ c.Shows device ∧ Linked device
  | .ancsStop => c.active ∧ c.unstopped = false
  | .now | .sleep _ => c.stuck = false ∧ c.cancelled = false ∧ c.target = none

/-- How `start` fails. -/
structure Failed (e : MonitorError) (c : Conduct) : Prop where
  searching : c.discovering = true → c.stuck = true
  stuck : c.stuck = true → e.stage = .discovery ∨ e.stage = .cancelled
  active : c.active → c.unstopped = true
  cleanup : e.stage = .cleanup ↔ c.unstopped = true
  cancelled : e.stage = .cancelled → c.cancelled = true
  stage : c.cancelled = true → e.stage = .cancelled ∨ e.stage = .cleanup

/-- How it succeeds. -/
structure Started (session : Session) (c : Conduct) : Prop where
  discovering : c.discovering = false
  cancelled : c.cancelled = false
  active : c.active
  target : c.target = some session.device.objectPath
  shows : c.Shows session.device
  linked : Linked session.device
  powered : session.adapter.powered = some true

def Ends : Except MonitorError Session → Conduct → Prop
  | .ok session, c => Started session c
  | .error e, c => Failed e c

-- ---------------------------------------------------------------------------
-- Along the program
-- ---------------------------------------------------------------------------

variable {config : MonitorConfig} {c : Conduct} {α : Type} {Q : α → Conduct → Prop}
    {E : MonitorError → Conduct → Prop}
  {stage : Stage} {progress : Progress}

theorem Conduct.not_active (h : c.target = none) : ¬c.active := fun active => by
  have started := active.1
  rw [h] at started
  cases started

/-- Neither a cancellation nor a client that could not be stopped. -/
def Stage.plain (stage : Stage) : Prop := stage ≠ .cancelled ∧ stage ≠ .cleanup

theorem Conduct.Idle.failed (h : c.Idle) {e : MonitorError} (apart : e.stage.plain)
    (stuck : c.stuck = true → e.stage = .discovery) : Failed e c where
  searching := h.searching
  stuck given := .inl (stuck given)
  active active := absurd active (not_active h.target)
  cleanup := by simp [h.unstopped, apart.2]
  cancelled cancelled := absurd cancelled apart.1
  stage cancelled := by
    rw [h.cancelled] at cancelled
    cases cancelled

theorem Conduct.Free.failed (h : c.Free) {e : MonitorError} (apart : e.stage.plain) : Failed e c :=
  h.toIdle.failed apart fun given => by
    rw [h.stuck] at given
    cases given

theorem eq_some_true {flag : Option Bool} (h : flag.getD false = true) : flag = some true := by
  cases flag with
  | none => cases h
  | some flag => exact congrArg some h

theorem obeys_call {call : Call} {f : Answer call → Setup α}
    (allowed : ∀ answer, permitted config c ⟨call, answer⟩)
    (h : ∀ answer, Obeys (permitted config) next (f answer) (c.next ⟨call, answer⟩) Q E) :
    Obeys (permitted config) next (tells call >>= f) c Q E :=
  .call allowed h

theorem obeys_failIf {failing : Bool} {error : MonitorError} (h : failing = true → E error c) :
    Obeys (permitted config) next (failIf failing error) c (fun _ c' => c' = c ∧ failing = false) E := by
  cases failing with
  | true => exact h rfl
  | false => exact ⟨rfl, rfl⟩

theorem obeys_orThrow {error : MonitorError} {found : Option α} (h : E error c) :
    Obeys (permitted config) next (orThrow error found) c (fun a c' => c' = c ∧ found = some a) E := by
  cases found with
  | some a => exact ⟨rfl, rfl⟩
  | none => exact h

theorem obeys_orFail {answer : Except RemoteError α} (h : ∀ e, answer = .error e → ∀ e',
    e'.stage = stage → E e' c) :
    Obeys (permitted config) next (orFail stage answer) c (fun a c' => c' = c ∧ answer = .ok a) E := by
  cases answer with
  | ok a => exact ⟨rfl, rfl⟩
  | error e => exact h e rfl _ rfl

theorem obeys_onlyMatch {message : String} {devices : List Device}
    (h : ∀ e, e.stage = .deviceNotFound → E e c) :
    Obeys (permitted config) next (onlyMatch message devices) c (fun device c' => c' = c ∧ devices =
      [device]) E := by
  unfold onlyMatch
  split
  · exact h _ rfl
  · exact ⟨rfl, rfl⟩
  · exact h _ rfl

theorem obeys_throwIfCancelled (h : c.Idle) :
    Obeys (permitted config) next throwIfCancelled c (fun _ c' => c' = c) Failed := by
  refine obeys_call (fun _ => ⟨h.searching, h.cancelled, h.unstopped⟩) fun yes => ?_
  refine (obeys_failIf fun cancelled => ?_).mono ?_
  · exact {
      searching := h.searching
      stuck := fun _ => .inr rfl
      active := fun active => absurd active (not_active h.target)
      cleanup := ⟨nofun, fun unstopped => absurd (h.unstopped.symm.trans unstopped) nofun⟩
      cancelled := fun _ => cancelled
      stage := fun _ => .inl rfl }
  · rintro _ _ ⟨rfl, rfl⟩
    rw [← h.cancelled]
    rfl

theorem obeys_takeSnapshot {timeout : Option Nat} (h : c.Free) (reported : c.progress.isSome = true)
    (apart : stage.plain) :
    Obeys (permitted config) next (takeSnapshot stage timeout) c
      (fun inventory c' => c' = { c with inventory := some inventory }) Failed := by
  refine obeys_call (fun _ => ⟨h, reported⟩) fun answer => ?_
  refine (obeys_orFail ?_).mono ?_
  · rintro e rfl e' rfl
    exact h.failed apart
  · rintro inventory _ ⟨rfl, rfl⟩
    rfl

-- ---------------------------------------------------------------------------
-- Waiting
-- ---------------------------------------------------------------------------

/-- The polls see nothing but the devices. -/
theorem obeys_pollDevices {selector : String} {adapter : Adapter} {deadline clock : Nat}
    (discovering : c.discovering = true) (stuck : c.stuck = false)
    (cancelled : c.cancelled = false) (target : c.target = none) :
    Obeys (permitted config) next (pollDevices selector adapter deadline clock) c (fun _ c' => c' = c) E := by
  induction h : deadline - clock using Nat.strong_induction_on generalizing clock with
  | _ left ih =>
    rw [pollDevices]
    refine obeys_call (fun _ => ⟨discovering, stuck, cancelled⟩) fun devices => ?_
    dsimp only
    split
    · exact .pure rfl
    · refine obeys_call (fun _ => ⟨stuck, cancelled, target⟩) fun slept => ?_
      refine obeys_call (fun _ => ⟨stuck, cancelled, target⟩) fun elapsed => ?_
      split
      next early =>
        have longer := slept.2
        simp only [nanoseconds, kDiscoveryPollInterval] at longer
        exact ih _ (by omega) rfl
      · exact .pure rfl

/-- How the discovery of a device fails: it is off, or could not be stopped. -/
structure Undiscovered (c : Conduct) (e : MonitorError) (c' : Conduct) : Prop where
  idle : c'.Idle
  stuck : c'.stuck = true → e.stage = .discovery
  plain : e.stage.plain

/-- Discovery is on while the devices are polled, and off again. -/
theorem obeys_discoverDevice {selector : String} {adapter : Adapter} {timeout : Int} (h : c.Free)
    (reported : c.progress = some .discovery) (searches : config.requireExistingConnection = false) :
    Obeys (permitted config) next (discoverDevice selector adapter timeout) c (fun _ c' => c' = c)
      (Undiscovered c) := by
  have off : { c with discovering := false } = c := by rw [← h.discovering]
  have failed : ∀ e : MonitorError, e.stage.plain → Undiscovered c e c := fun e plain =>
    ⟨h.toIdle, fun stuck => absurd (h.stuck.symm.trans stuck) nofun, plain⟩
  unfold discoverDevice
  refine obeys_call (fun _ => ⟨h, reported, searches⟩) fun started => ?_
  refine (obeys_orFail ?_).bind ?_
  · rintro e rfl e' stage
    exact failed e' (by simp [stage, Stage.plain])
  rintro _ _ ⟨rfl, rfl⟩
  refine (obeys_pollDevices (c := { c with discovering := true }) rfl h.stuck h.cancelled h.target).bind ?_
  rintro matched _ rfl
  refine obeys_call (fun _ => ⟨rfl, h.stuck, h.cancelled⟩) fun stopped => ?_
  refine (obeys_orFail ?_).bind ?_
  · rintro e rfl e' stage
    exact ⟨⟨fun _ => rfl, h.cancelled, h.target, h.unstopped⟩, fun _ => stage,
      by simp [stage, Stage.plain]⟩
  rintro _ _ ⟨rfl, rfl⟩
  have after : next { c with discovering := true } ⟨.stopDiscovery, .ok ()⟩ = c := off
  refine (obeys_onlyMatch ?_).bind ?_
  · intro e stage
    rw [after]
    exact failed e (by simp [stage, Stage.plain])
  rintro device _ ⟨rfl, -⟩
  exact .pure after

theorem Conduct.Free.inventoried (h : c.Free) (inventory : BluezInventory) :
    { c with inventory := some inventory }.Free :=
  ⟨⟨h.searching, h.cancelled, h.target, h.unstopped⟩, h.discovering, h.stuck, h.stopped⟩

theorem mem_of_only {as : List α} {a : α} (h : only as = some a) : a ∈ as := by
  unfold only at h
  split at h
  · exact List.mem_singleton.mpr (Option.some.inj h).symm
  · cases h

theorem obeys_waitForDeviceState {selected : Device} {adapter : Adapter} {paired : Bool}
    {connected : Option Bool}
    {deadline clock : Nat} (h : c.Free) (reported : c.progress.isSome = true) (apart : stage.plain) :
    Obeys (permitted config) next (waitForDeviceState selected adapter paired connected deadline stage clock) c
      (fun session c' => c'.Free ∧ c'.progress = c.progress ∧ c'.Shows session.device ∧
        confirms paired connected session.device = true) Failed := by
  induction left : deadline - clock using Nat.strong_induction_on generalizing clock c with
  | _ left ih =>
    rw [waitForDeviceState]
    refine obeys_call (fun _ => ⟨h.stuck, h.cancelled, h.target⟩) fun checked => ?_
    split
    · refine obeys_call (fun _ => ⟨h.stuck, h.cancelled, h.target⟩) fun begun => ?_
      refine (obeys_takeSnapshot h reported apart).bind ?_
      rintro inventory _ rfl
      split
      next device found =>
        obtain ⟨single, confirmed⟩ := Option.filter_eq_some_iff.mp found
        exact .pure ⟨h.inventoried inventory, rfl, ⟨inventory, rfl,
          List.mem_of_mem_filter (mem_of_only single)⟩, confirmed⟩
      · refine obeys_call (fun _ => ⟨h.stuck, h.cancelled, h.target⟩) fun taken => ?_
        refine obeys_call (fun _ => ⟨h.stuck, h.cancelled, h.target⟩) fun slept => ?_
        have longer := slept.2
        simp only [nanoseconds, kDeviceStatePollInterval, remainingTimeout] at longer
        exact ih _ (by split at longer <;> omega) (h.inventoried inventory) reported rfl
    · exact .throw (h.failed apart)

-- ---------------------------------------------------------------------------
-- The target
-- ---------------------------------------------------------------------------

/-- The target, before a stage. -/
structure Chosen (config : MonitorConfig) (target : Device) (progress : Progress) (c : Conduct) : Prop where
  free : c.Free
  reported : c.progress.isSome = true
  before : c.before progress
  shows : c.Shows target
  existing : config.requireExistingConnection = true → Linked target

/-- The matches, before they are checked. -/
structure Found (matched : List Device) (c : Conduct) : Prop where
  free : c.Free
  reported : c.progress.isSome = true
  before : c.before .pairing
  shows : ∀ device ∈ matched, c.Shows device

theorem Conduct.Free.reports (h : c.Free) (progress : Progress) : { c with progress := some progress }.Free :=
  ⟨⟨h.searching, h.cancelled, h.target, h.unstopped⟩, h.discovering, h.stuck, h.stopped⟩

theorem Conduct.before_of_rank {progress' : Progress} (h : c.progress = some progress)
    (later : progress.rank < progress'.rank) :
    c.before progress' := by
  intro reported given
  rw [h] at given
  obtain rfl := Option.some.inj given
  exact later

theorem obeys_requestAdapter {inventory : BluezInventory} (h : c.Free) :
    Obeys (permitted config) next (requestAdapter config inventory) c (fun _ c' => c' = c) Failed := by
  unfold requestAdapter
  split
  · exact .pure rfl
  · refine (obeys_orThrow (h.failed (by simp [Stage.plain]))).bind ?_
    rintro adapter _ ⟨rfl, -⟩
    exact .pure rfl

theorem obeys_discoverTarget {selector : String} {inventory : BluezInventory} (h : c.Free)
    (before : c.before .discovery)
    (searches : config.requireExistingConnection = false) :
    Obeys (permitted config) next (discoverTarget selector config inventory) c (fun found c' =>
      Found found.2.2 c')
      Failed := by
  unfold discoverTarget
  refine (obeys_orThrow (h.failed (by simp [Stage.plain]))).bind ?_
  rintro adapter _ ⟨rfl, -⟩
  refine obeys_call (fun _ => ⟨h, before⟩) fun _ => ?_
  have free := h.reports .discovery
  refine (Obeys.tryCatch (obeys_discoverDevice free rfl searches) ?_).bind ?_
  · rintro e c' undiscovered
    refine (obeys_throwIfCancelled undiscovered.idle).bind ?_
    rintro _ _ rfl
    exact .throw (undiscovered.idle.failed undiscovered.plain undiscovered.stuck)
  rintro discovered _ rfl
  refine (obeys_throwIfCancelled free.toIdle).bind ?_
  rintro _ _ rfl
  refine (obeys_takeSnapshot free rfl (by simp [Stage.plain])).bind ?_
  rintro inventory _ rfl
  exact .pure ⟨free.inventoried inventory, rfl, before_of_rank rfl (by decide),
    fun device mem => ⟨inventory, rfl, List.mem_of_mem_filter mem⟩⟩

theorem obeys_findTarget {selector : String} {inventory : BluezInventory} {requested : Option Adapter}
    (h : c.Free)
    (reported : c.progress = some .inventory) (latest : c.inventory = some inventory) :
    Obeys (permitted config) next (findTarget selector config inventory requested) c (fun found c' =>
      Found found.2.2 c')
      Failed := by
  unfold findTarget
  split
  next device single =>
    refine .pure ⟨h, by rw [reported]; rfl, before_of_rank reported (by decide), fun device' mem => ?_⟩
    exact ⟨inventory, latest, List.mem_of_mem_filter (single ▸ mem)⟩
  · exact .throw (h.failed (by simp [ambiguous, Stage.plain]))
  · refine (obeys_failIf fun _ => h.failed (by simp [Stage.plain])).bind ?_
    rintro _ _ ⟨rfl, searches⟩
    exact obeys_discoverTarget h (before_of_rank reported (by decide)) searches

theorem obeys_checkTarget {inventory : BluezInventory} {adapter : Option Adapter} {matched : List Device}
    (h : Found matched c) :
    Obeys (permitted config) next (checkTarget config inventory adapter matched) c
      (fun chosen c' => Chosen config chosen.2 .pairing c' ∧ chosen.1.powered = some true) Failed := by
  unfold checkTarget
  refine (obeys_onlyMatch fun e failed => h.free.failed (by simp [failed, Stage.plain])).bind ?_
  rintro target _ ⟨rfl, rfl⟩
  refine (obeys_orThrow (h.free.failed (by simp [Stage.plain]))).bind ?_
  rintro adapter _ ⟨rfl, -⟩
  refine (obeys_failIf fun _ => h.free.failed (by simp [Stage.plain])).bind ?_
  rintro _ _ ⟨rfl, powered⟩
  refine (obeys_failIf fun _ => h.free.failed (by simp [Stage.plain])).bind ?_
  rintro _ _ ⟨rfl, paired⟩
  refine (obeys_failIf fun _ => h.free.failed (by simp [Stage.plain])).bind ?_
  rintro _ _ ⟨rfl, connected⟩
  refine .pure ⟨⟨h.free, h.reported, h.before, h.shows target (List.mem_singleton_self target),
    fun existing => ?_⟩, ?_⟩
  · simp only [existing, Bool.true_and, Bool.not_eq_false'] at paired connected
    exact ⟨eq_some_true paired, eq_some_true connected⟩
  · exact eq_some_true (by simpa using powered)

theorem obeys_resolveTarget {selector : String} (h : c.Free) (first : c.progress = none) :
    Obeys (permitted config) next (resolveTarget selector config) c
      (fun chosen c' => Chosen config chosen.2 .pairing c' ∧ chosen.1.powered = some true) Failed := by
  unfold resolveTarget
  refine obeys_call (fun _ => ⟨h, fun reported given => by rw [first] at given; cases given⟩) fun _ => ?_
  have free := h.reports .inventory
  refine (obeys_takeSnapshot free rfl (by simp [Stage.plain])).bind ?_
  rintro inventory _ rfl
  have free := free.inventoried inventory
  refine (obeys_throwIfCancelled free.toIdle).bind ?_
  rintro _ _ rfl
  refine (obeys_requestAdapter free).bind ?_
  rintro requested _ rfl
  refine (obeys_findTarget free rfl rfl).bind ?_
  rintro ⟨inventory, adapter, matched⟩ c' found
  exact obeys_checkTarget found

/-- What is left of a deadline is in the bounds of its timeout. -/
theorem remainingTimeout_le (timeout : Int) (clock : Nat)
    (left : remainingTimeout (nanoseconds timeout.toNat) clock ≠ 0) :
    0 < remainingTimeout (nanoseconds timeout.toNat) clock ∧
      (remainingTimeout (nanoseconds timeout.toNat) clock : Int) ≤ timeout := by
  unfold remainingTimeout nanoseconds at left ⊢
  split at left
  · exact absurd rfl left
  · rw [if_neg ‹_›]
    omega

theorem paired_of_confirms {paired : Bool} {connected : Option Bool} {device : Device}
    (h : confirms paired connected device = true) (hpaired : paired = true) : device.paired = some true := by
  subst hpaired
  simp only [confirms, Bool.and_eq_true, beq_iff_eq] at h
  exact eq_some_true h.1

theorem obeys_pairTarget {selector : String} {adapter : Adapter} {target : Device}
    (h : Chosen config target .pairing c) :
    Obeys (permitted config) next (pairTarget config selector adapter target) c
      (fun target c' => Chosen config target .connection c' ∧ target.paired = some true) Failed := by
  unfold pairTarget
  split
  next unpaired =>
    simp only [Bool.and_eq_true, Bool.not_eq_true'] at unpaired
    refine obeys_call (fun _ => ⟨h.free, h.before⟩) fun _ => ?_
    have free := h.free.reports .pairing
    refine obeys_call (fun _ => ⟨free.stuck, free.cancelled, free.target⟩) fun clock => ?_
    refine (obeys_failIf fun _ => free.failed (by simp [Stage.plain])).bind ?_
    rintro _ _ ⟨rfl, early⟩
    refine obeys_call (fun _ => ⟨free, rfl, unpaired.1, remainingTimeout_le _ _ (by simpa using early)⟩)
      fun answer => ?_
    refine (obeys_orFail ?_).bind ?_
    · rintro e rfl e' failed
      exact free.failed (by simp [failed, Stage.plain])
    rintro _ _ ⟨rfl, rfl⟩
    refine (obeys_waitForDeviceState free rfl (by simp [Stage.plain])).bind ?_
    rintro session c' ⟨free, reported, shows, confirmed⟩
    exact .pure ⟨⟨free, reported ▸ rfl, before_of_rank reported (by decide), shows,
      fun existing => absurd (unpaired.1.symm.trans existing) (by simp)⟩, paired_of_confirms confirmed rfl⟩
  next paired =>
    refine .pure ⟨⟨h.free, h.reported, fun reported given => (h.before reported given).trans (by decide),
      h.shows,
      h.existing⟩, ?_⟩
    cases existing : config.requireExistingConnection with
    | true => exact (h.existing existing).1
    | false => exact eq_some_true (by simpa [existing] using paired)

theorem obeys_connectProfiles {selector : String} {adapter : Adapter} {target : Device}
    (h : Chosen config target .ancsStartup c)
    (reported : requestRemainingProfiles config = true → c.progress = some .connection)
    (paired : target.paired = some true) :
    Obeys (permitted config) next (connectProfiles config selector adapter target) c
      (fun connected c' => Chosen config connected.1 .ancsStartup c' ∧ Linked connected.1) Failed := by
  unfold connectProfiles
  split
  next unconnected =>
    simp only [Bool.and_eq_true, Bool.not_eq_true'] at unconnected
    have reported := reported (by simp [requestRemainingProfiles, unconnected.1])
    refine obeys_call (fun _ => ⟨h.free.stuck, h.free.cancelled, h.free.target⟩) fun clock => ?_
    refine (obeys_failIf fun _ => h.free.failed (by simp [Stage.plain])).bind ?_
    rintro _ _ ⟨rfl, early⟩
    refine obeys_call (fun _ => ⟨h.free, reported, unconnected.1, remainingTimeout_le _ _ (by
      simpa using early)⟩)
      fun answer => ?_
    refine (obeys_orFail ?_).bind ?_
    · rintro e rfl e' failed
      exact h.free.failed (by simp [failed, Stage.plain])
    rintro _ _ ⟨rfl, rfl⟩
    refine (obeys_waitForDeviceState h.free h.reported (by simp [Stage.plain])).bind ?_
    rintro session c' ⟨free, same, shows, confirmed⟩
    have reported : c'.progress = some .connection := same.trans reported
    refine .pure ⟨⟨free, reported ▸ rfl, before_of_rank reported (by decide), shows,
      fun existing => absurd (unconnected.1.symm.trans existing) (by simp)⟩, ?_⟩
    refine ⟨paired_of_confirms confirmed (by simp [paired]), ?_⟩
    simp only [confirms, Bool.and_eq_true, Option.all_some, beq_iff_eq] at confirmed
    exact eq_some_true confirmed.2
  next connected =>
    have linked : Linked target := by
      cases existing : config.requireExistingConnection with
      | true => exact h.existing existing
      | false => exact ⟨paired, eq_some_true (by simpa [existing] using connected)⟩
    split
    next requests =>
      refine obeys_call (fun _ => ⟨h.free, reported requests, rfl, requests⟩) fun answer => ?_
      cases answer with
      | ok _ => exact .pure ⟨h, linked⟩
      | error e =>
        refine (obeys_throwIfCancelled h.free.toIdle).bind ?_
        rintro _ _ rfl
        exact .throw (h.free.failed (by simp [makeError, Stage.plain]))
    · exact .pure ⟨h, linked⟩

theorem obeys_connectTarget {selector : String} {adapter : Adapter} {target : Device}
    (h : Chosen config target .connection c) (paired : target.paired = some true) :
    Obeys (permitted config) next (connectTarget config selector adapter target) c
      (fun connected c' => Chosen config connected.1 .ancsStartup c' ∧ Linked connected.1) Failed := by
  unfold connectTarget
  split
  · refine obeys_call (fun _ => ⟨h.free, h.before⟩) fun _ => ?_
    exact obeys_connectProfiles ⟨h.free.reports .connection, rfl, before_of_rank rfl (by decide),
      h.shows, h.existing⟩
      (fun _ => rfl) paired
  next quiet =>
    exact obeys_connectProfiles
      ⟨h.free, h.reported, fun reported given => (h.before reported given).trans (by decide), h.shows,
        h.existing⟩
      (fun requests => absurd requests quiet) paired

/-- The client was started, and a failure comes after its stop. -/
structure Stopping (c : Conduct) : Prop where
  discovering : c.discovering = false
  stuck : c.stuck = false
  active : c.active
  unstopped : c.unstopped = false

theorem Conduct.Free.stopping (h : c.Free) (path : String) (yes : Bool) :
    Stopping { c with target := some path, cancelled := yes } :=
  ⟨h.discovering, h.stuck, ⟨rfl, h.stopped⟩, h.unstopped⟩

/-- With the client stopped, a start fails as it is told to. -/
theorem Stopping.failed (h : Stopping c) {e : MonitorError} (clean : e.stage ≠ .cleanup)
    (cancelled : e.stage = .cancelled ↔ c.cancelled = true) : Failed e { c with stopped := true } where
  searching given := absurd (h.discovering.symm.trans given) nofun
  stuck given := absurd (h.stuck.symm.trans given) nofun
  active := by
    rintro ⟨-, ⟨⟩⟩
  cleanup := ⟨fun cleanup => absurd cleanup clean, fun given => absurd (h.unstopped.symm.trans given) nofun⟩
  cancelled := cancelled.mp
  stage given := .inl (cancelled.mpr given)

/-- The client is active until it is stopped. -/
theorem obeys_cleanup {failure : Setup α} (stopping : Stopping c)
    (h : Obeys (permitted config) next failure { c with stopped := true } Q Failed) :
    Obeys (permitted config) next (cleanup failure) c Q Failed := by
  unfold cleanup
  refine obeys_call (fun _ => ⟨stopping.active, stopping.unstopped⟩) fun answer => ?_
  cases answer with
  | ok _ => exact h
  | error e =>
    refine .throw {
      searching := fun given => absurd (stopping.discovering.symm.trans given) nofun
      stuck := fun given => absurd (stopping.stuck.symm.trans given) nofun
      active := fun _ => rfl
      cleanup := ⟨fun _ => rfl, fun _ => rfl⟩
      cancelled := ?_
      stage := fun _ => .inr rfl }
    rintro ⟨⟩

theorem obeys_startAncs {adapter : Adapter} {target : Device} {requested : Bool}
    (h : Chosen config target .ancsStartup c)
    (linked : Linked target) (powered : adapter.powered = some true) :
    Obeys (permitted config) next (startAncs config adapter target requested) c Started Failed := by
  unfold startAncs
  refine (obeys_throwIfCancelled h.free.toIdle).bind ?_
  rintro _ _ rfl
  refine obeys_call (fun _ => ⟨h.free, h.before⟩) fun _ => ?_
  have free := h.free.reports .ancsStartup
  refine (obeys_throwIfCancelled free.toIdle).bind ?_
  rintro _ _ rfl
  refine obeys_call (fun _ => ⟨free, rfl, target, rfl, h.shows, linked⟩) fun answer => ?_
  cases answer with
  | error e =>
    refine obeys_cleanup ⟨free.discovering, free.stuck, ⟨rfl, free.stopped⟩, free.unstopped⟩ ?_
    refine obeys_call (fun _ => ⟨free.searching, free.cancelled, free.unstopped⟩) fun yes => ?_
    refine (obeys_failIf fun cancelled => ?_).bind ?_
    · exact (free.stopping target.objectPath yes).failed nofun ⟨fun _ => cancelled, fun _ => rfl⟩
    · rintro _ _ ⟨rfl, goes⟩
      refine .throw ((free.stopping target.objectPath yes).failed nofun ⟨nofun, fun cancelled => ?_⟩)
      exact absurd (goes.symm.trans cancelled) nofun
  | ok _ =>
    refine obeys_call (fun _ => ⟨free.searching, free.cancelled, free.unstopped⟩) fun yes => ?_
    have stopping := free.stopping target.objectPath yes
    split
    next cancelled =>
      exact obeys_cleanup stopping
        (.throw (stopping.failed nofun ⟨fun _ => cancelled, fun _ => rfl⟩))
    next goes =>
      exact .pure ⟨free.discovering, Bool.eq_false_iff.mpr goes, ⟨rfl, free.stopped⟩, rfl, h.shows,
        linked, powered⟩

theorem obeys_start (selector : String) :
    Obeys (permitted config) next (start selector config) {} Started Failed := by
  have free : Free {} := ⟨⟨nofun, rfl, rfl, rfl⟩, rfl, rfl, rfl⟩
  unfold start
  refine (obeys_failIf fun _ => free.failed (by simp [Stage.plain])).bind ?_
  rintro _ _ ⟨rfl, -⟩
  refine (obeys_throwIfCancelled free.toIdle).bind ?_
  rintro _ _ rfl
  refine obeys_call (fun _ => ⟨free, rfl⟩) fun stopped => ?_
  refine (obeys_failIf fun _ => free.failed (by simp [Stage.plain])).bind ?_
  rintro _ _ ⟨rfl, -⟩
  refine (obeys_resolveTarget free rfl).bind ?_
  rintro ⟨adapter, target⟩ c ⟨chosen, powered⟩
  refine (obeys_pairTarget chosen).bind ?_
  rintro target c ⟨chosen, paired⟩
  refine (obeys_connectTarget chosen paired).bind ?_
  rintro ⟨target, requested⟩ c ⟨chosen, linked⟩
  exact obeys_startAncs chosen linked powered

-- ---------------------------------------------------------------------------
-- Every start
-- ---------------------------------------------------------------------------

/-- What is called in a start, and what it returns. -/
def starts (partner : Partner Call Answer) (selector : String) (config : MonitorConfig) :
    List (Exchange Call Answer) × Except MonitorError Session :=
  Dialogue.run partner (start selector config).run []

theorem follows_start (partner : Partner Call Answer) (selector : String) (config : MonitorConfig) :
    Follows (permitted config) next {} (starts partner selector config).1 ∧
      Ends (starts partner selector config).2 ((starts partner selector config).1.foldl next {}) := by
  refine (Meets.mono (obeys_start selector) ?_).run partner []
  rintro (e | session) c h <;> exact h

/-- Every call is permitted where it is made. In the end the client is on exactly if the start succeeds
or the client could not be stopped, and discovery is off unless it could not be stopped. -/
theorem start_conducts (partner : Partner Call Answer) (selector : String) (config : MonitorConfig) :
    Follows (permitted config) next {} (starts partner selector config).1 ∧
      Ends (starts partner selector config).2 ((starts partner selector config).1.foldl next {}) :=
  follows_start partner selector config

/-- Everything succeeds at once, unless the start is to be cancelled. -/
def replying (cancelled : Bool) (inventory : BluezInventory) : Partner Call Answer
  | _, .cancellationRequested => cancelled
  | _, .ancsState => true
  | _, .reportProgress _ => ()
  | _, .snapshot _ => .ok inventory
  | _, .devices => inventory.devices
  | _, .startDiscovery _ | _, .stopDiscovery | _, .pairDevice _ _ _ | _, .connectDevice _ _ _
  | _, .connectAvailableProfiles _ _ _ | _, .ancsStart _ _ | _, .ancsStop => .ok ()
  | _, .now => 0
  | _, .sleep timeout => ⟨nanoseconds timeout, Nat.le_refl _⟩

/-- A phone that is paired and connected. -/
def phone : BluezInventory where
  adapters := [⟨"/hci0", "", "", none, none, some true⟩]
  devices := [⟨"/hci0/phone", "/hci0", "", "phone", none, none, none, some true, some true, none, false⟩]

example : (starts (replying false phone) "phone" { requireExistingConnection := true }).2.isOk = true := by
  decide +kernel

theorem permitted_cancelled {e : Exchange Call Answer} (h : permitted config c e)
    (cancelled : c.cancelled = true) :
    e.1 = .ancsStop ∧ c.active ∧ c.unstopped = false := by
  obtain ⟨call, answer⟩ := e
  have alive : c.cancelled ≠ false := by simp [cancelled]
  cases call with
  | ancsStop => exact ⟨rfl, h⟩
  | cancellationRequested | now | sleep _ => exact absurd h.2.1 alive
  | devices | stopDiscovery => exact absurd h.2.2 alive
  | _ => exact absurd h.1.cancelled alive

/-- A cancellation leaves nothing to do but to stop the client, once. -/
theorem cancelled_of_follows {said : List (Exchange Call Answer)} (h : Follows (permitted config) next c said)
    (cancelled : c.cancelled = true) : said = [] ∨ ∃ reply, said = [⟨.ancsStop, reply⟩] := by
  cases said with
  | nil => exact .inl rfl
  | cons e said =>
    obtain ⟨allowed, rest⟩ := h
    obtain ⟨stop, -⟩ := permitted_cancelled allowed cancelled
    obtain ⟨call, reply⟩ := e
    obtain rfl : call = .ancsStop := stop
    cases said with
    | nil => exact .inr ⟨reply, rfl⟩
    | cons e said =>
      -- It is stopped, or could not be.
      cases reply with
      | ok _ =>
        have again := (permitted_cancelled rest.1 cancelled).2.1.2
        cases again
      | error _ =>
        have again := (permitted_cancelled rest.1 cancelled).2.2
        cases again

theorem foldl_cancelled {said : List (Exchange Call Answer)}
    (h : said = [] ∨ ∃ reply, said = [⟨.ancsStop, reply⟩]) :
    (said.foldl next c).cancelled = c.cancelled := by
  obtain rfl | ⟨reply, rfl⟩ := h
  · rfl
  · cases reply <;> rfl

/-- The client could not be stopped exactly if its stop was answered with an error. -/
theorem foldl_unstopped {said : List (Exchange Call Answer)}
    (h : said = [] ∨ ∃ reply, said = [⟨.ancsStop, reply⟩])
    (unstopped : c.unstopped = false) :
    (said.foldl next c).unstopped = true ↔ ∃ e, said = [⟨.ancsStop, .error e⟩] := by
  obtain rfl | ⟨reply, rfl⟩ := h
  · simp [unstopped]
  · cases reply with
    | ok _ => simp [next, unstopped]
    | error e => simp [next]

/-- Once cancellation is answered for, the client may still be stopped, and the start fails: with the
failure of that stop if it fails, and else because it was cancelled. -/
theorem start_cancelled (partner : Partner Call Answer) (selector : String) (config : MonitorConfig)
    (before after : List (Exchange Call Answer))
    (h : (starts partner selector config).1 = before ++ ⟨.cancellationRequested, true⟩ :: after) :
    (after = [] ∨ ∃ reply, after = [⟨.ancsStop, reply⟩]) ∧ ∃ error, (starts partner selector config).2 =
    .error error ∧
      (error.stage = .cleanup ∧ (∃ e, after = [⟨.ancsStop, .error e⟩]) ∨
        error.stage = .cancelled ∧ ¬∃ e, after = [⟨.ancsStop, .error e⟩]) := by
  obtain ⟨follows, ends⟩ := follows_start partner selector config
  rw [h] at follows ends
  obtain ⟨-, ⟨-, -, unstopped⟩, rest⟩ := follows_append .. |>.mp follows
  have left := cancelled_of_follows rest rfl
  refine ⟨left, ?_⟩
  rw [List.foldl_append, List.foldl_cons] at ends
  have stops := foldl_unstopped left (c := next (before.foldl next {}) ⟨.cancellationRequested, true⟩) unstopped
  cases result : (starts partner selector config).2 with
  | error error =>
    rw [result] at ends
    refine ⟨error, rfl, ?_⟩
    rw [← stops, ← ends.cleanup]
    rcases ends.stage (foldl_cancelled left) with cancelled | cleanup
    · exact .inr ⟨cancelled, by simp [cancelled]⟩
    · exact .inl ⟨cleanup, cleanup⟩
  | ok session =>
    rw [result] at ends
    have cancelled := (foldl_cancelled left).symm.trans ends.cancelled
    cases cancelled

/-- The start is to be cancelled once the client is on, and the client cannot be stopped. -/
def interrupting (inventory : BluezInventory) : Partner Call Answer
  | said, .cancellationRequested => said.any fun e => match e.1 with
    | .ancsStart .. => true
    | _ => false
  | _, .ancsStop => .error ⟨⟨"", ""⟩, .remote⟩
  | said, asked => replying false inventory said asked

theorem start_cancelled_late : ∃ error,
    (starts (interrupting phone) "phone" { requireExistingConnection := true }).2 = .error error ∧
      error.stage = .cleanup := by
  obtain ⟨-, error, failed, ⟨cleanup, -⟩ | ⟨-, stopped⟩⟩ :=
    start_cancelled (interrupting phone) "phone" { requireExistingConnection := true }
      ((starts (interrupting phone) "phone" { requireExistingConnection := true }).1.take 9)
      ((starts (interrupting phone) "phone" { requireExistingConnection := true }).1.drop 10) rfl
  · exact ⟨error, failed, cleanup⟩
  · exact absurd ⟨⟨⟨"", ""⟩, .remote⟩, rfl⟩ stopped

/-- What an existing connection allows. -/
def Call.existing (config : MonitorConfig) : Call → Bool
  | .startDiscovery _ | .devices | .stopDiscovery | .pairDevice _ _ _ | .connectDevice _ _ _ => false
  | .connectAvailableProfiles _ _ _ => config.requestRemainingProfilesWhenConnected
  | _ => true

theorem permitted_existing {e : Exchange Call Answer} (existing : config.requireExistingConnection = true)
    (idle : c.discovering = false) (h : permitted config c e) :
    e.1.existing config = true ∧ (c.next e).discovering = false := by
  obtain ⟨call, answer⟩ := e
  have searches : config.requireExistingConnection ≠ false := by simp [existing]
  cases call with
  | startDiscovery _ => exact absurd h.2.2 searches
  | pairDevice _ _ _ | connectDevice _ _ _ => exact absurd h.2.2.1 searches
  | devices | stopDiscovery =>
    have on := idle.symm.trans h.1
    cases on
  | ancsStop => cases answer <;> exact ⟨rfl, idle⟩
  | connectAvailableProfiles _ _ _ =>
    have requests := h.2.2.2
    simp only [requestRemainingProfiles, existing, Bool.not_true, Bool.false_or] at requests
    exact ⟨requests, idle⟩
  | snapshot _ => cases answer <;> exact ⟨rfl, idle⟩
  | _ => exact ⟨rfl, idle⟩

/-- An existing connection is used as it is, but for the profiles if they are asked for. -/
theorem start_existing (partner : Partner Call Answer) (selector : String) (config : MonitorConfig)
    (existing : config.requireExistingConnection = true) :
    (starts partner selector config).1.all (fun e => e.1.existing config) = true :=
  List.all_eq_true.mpr <| (follows_start partner selector config).1.forall (I :=
    fun c => c.discovering = false) _ _ rfl
    fun _ _ idle h => permitted_existing existing idle h

theorem start_existing_phone : (starts (replying false phone) "phone"
    { requireExistingConnection := true }).1.all
    (fun e => e.1.existing { requireExistingConnection := true }) = true :=
  start_existing (replying false phone) "phone" { requireExistingConnection := true } rfl

def reportedRank : Exchange Call Answer → Option Nat
  | ⟨.reportProgress progress, _⟩ => some progress.rank
  | _ => none

theorem progress_next {e : Exchange Call Answer} (h : reportedRank e = none) : (c.next e).progress =
    c.progress := by
  obtain ⟨call, answer⟩ := e
  cases call with
  | reportProgress _ => cases h
  | snapshot _ | startDiscovery _ | stopDiscovery | ancsStop => cases answer <;> rfl
  | _ => rfl

theorem progress_of_follows {said : List (Exchange Call Answer)} (h : Follows (permitted config) next c said) :
    (said.filterMap reportedRank).Pairwise (· < ·) ∧
      ∀ rank ∈ said.filterMap reportedRank, ∀ reported ∈ c.progress, reported.rank < rank := by
  induction said generalizing c with
  | nil => simp
  | cons e said ih =>
    obtain ⟨increasing, later⟩ := ih h.2
    cases given : reportedRank e with
    | none =>
      rw [List.filterMap_cons_none given]
      rw [progress_next given] at later
      exact ⟨increasing, later⟩
    | some rank =>
      rw [List.filterMap_cons_some given]
      obtain ⟨call, answer⟩ := e
      cases call with
      | reportProgress progress =>
        obtain rfl : progress.rank = rank := Option.some.inj given
        have here := h.1.2
        refine ⟨List.pairwise_cons.mpr ⟨fun rank mem => later rank mem progress rfl, increasing⟩, ?_⟩
        refine List.forall_mem_cons.mpr ⟨here, fun rank mem reported before => ?_⟩
        exact (here reported before).trans (later rank mem progress rfl)
      | _ => cases given

/-- Progress is reported in the order of the stages, and none twice. -/
theorem start_progress (partner : Partner Call Answer) (selector : String) (config : MonitorConfig) :
    ((starts partner selector config).1.filterMap reportedRank).Pairwise (· < ·) :=
  (progress_of_follows (follows_start partner selector config).1).1

end Dmn.Ancs.Monitor
