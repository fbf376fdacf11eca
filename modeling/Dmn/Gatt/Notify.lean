import Dmn.Ancs.Monitor.Conduct
import Mathlib

/-!
# GATT notifications are enabled

`Dmn_BluezGattClient::startNotify`: it looks the characteristic up, installs
three observers, has BlueZ notify, and checks that it does. Whatever BlueZ
answers and whenever the device goes away, no observer is left behind before
`StartNotify`, and after it the notification is stopped unless it is invalid.
Deadlines are reckoned as by the monitor, word for word; `StopNotify` is called
without one, and what the lookup asks BlueZ under its own is left to it.
-/

namespace Dmn.Gatt

open Dmn.Lib Dmn.Lib.Dialogue
open Dmn.Ancs.Monitor (nanoseconds remainingTimeout remainingTimeout_le)

inductive ErrorKind
  | invalidArgument
  | timeout
  | remote
  | decode
  | backend
  | notReady
  deriving DecidableEq

/-- `Dmn_GattError` -/
structure GattError where
  kind : ErrorKind
  message : String
  remoteName : String := ""

/-- `Dmn_GattCharacteristic`, as far as it is looked at. -/
structure Characteristic where
  id : String
  flags : List String

/-- `Dmn_GattService`, as far as it is looked at. -/
structure Service where
  characteristics : List Characteristic

inductive Observer
  | properties
  | owner
  | objects
  deriving DecidableEq

def pathWithinDevice (device object : String) : Bool :=
  !device.isEmpty && (device.toList ++ ['/']).isPrefixOf object.toList

def hasFlag (characteristic : Characteristic) (flag : String) : Bool := characteristic.flags.contains flag

def timeoutError (message : String) : GattError := { kind := .timeout, message }

/-- The errors of the calls are those of D-Bus, mapped. -/
inductive Call
  | now
  | discover (device : String) (timeout : Nat)
  | subscribe (observer : Observer) (timeout : Nat)
  | cancel (observer : Observer)
  | startNotify (path : String) (timeout : Nat)
  -- The section that sets `started`, with `invalidated`.
  | markStarted
  -- A section that reads `invalidated`.
  | invalidated
  | notifying (path : String) (timeout : Nat)
  | stopNotify (path : String)

abbrev Answer : Call → Type
  | .now => Nat
  | .discover _ _ => Except GattError (List Service)
  | .subscribe _ _ | .startNotify _ _ | .stopNotify _ => Except GattError Unit
  | .cancel _ => Unit
  | .markStarted | .invalidated => Bool
  -- no flag if the property is malformed
  | .notifying _ _ => Except GattError (Option Bool)

abbrev Setup := ExceptT GattError (Dialogue Call Answer)

def tells (c : Call) : Setup (Answer c) := ExceptT.lift (Dialogue.ask c)

def failIf (failing : Bool) (error : GattError) : Setup Unit := if failing then throw error else pure ()

def cancelAll : List Observer → Setup Unit
  | [] => pure ()
  | observer :: observers => do
    tells (.cancel observer)
    cancelAll observers

def abandon {α : Type} (installed : List Observer) (error : GattError) : Setup α := do
  cancelAll installed
  throw error

/-- The clock, and what remains of the deadline. -/
def inTime (installed : List Observer) (deadline clock : Nat) (message : String) : Setup (Nat × Nat) := do
  let elapsed ← tells .now
  if remainingTimeout deadline (clock + elapsed) = 0 then abandon installed (timeoutError message)
  else return (clock + elapsed, remainingTimeout deadline (clock + elapsed))

def observe (installed : List Observer) (observer : Observer) (deadline clock : Nat) : Setup Nat := do
  let (clock, left) ← inTime installed deadline clock
    "StartNotify deadline expired before installing signal observers"
  match ← tells (.subscribe observer left) with
  | .ok _ => return clock
  | .error e => abandon installed e

def observers : List Observer := [.properties, .owner, .objects]

def stopNotify (path : String) (started : Bool) : Setup (Except GattError Unit) := do
  if !started || (← tells .invalidated) then return .ok ()
  else
    match ← tells (.stopNotify path) with
    | .error e => return .error e
    | .ok _ =>
      cancelAll observers
      return .ok ()

def rollback {α : Type} (path : String) (started : Bool) (failure : GattError) : Setup α := do
  match ← stopNotify path started with
  | .ok _ => throw failure
  | .error e =>
    throw { failure with message := failure.message ++ "; notification cleanup failed: " ++ e.message }

def invalidatedError : GattError :=
  { kind := .notReady, message := "GATT notification was invalidated during StartNotify" }

def malformedError : GattError :=
  { kind := .decode, message := "BlueZ returned an invalid GATT Notifying property" }

def inactiveError : GattError where
  kind := .notReady
  message := "BlueZ accepted StartNotify but reports notification delivery is not active; the connected " ++
    "bearer may not provide live GATT"

/-- The characteristic, which can notify. -/
def capability (services : List Service) (id : String) : Setup Characteristic :=
  match services.findSome? fun service => service.characteristics.find? (·.id == id) with
  | none => throw { kind := .invalidArgument,
                    message := "characteristic is not in the selected device's current GATT tree" }
  | some characteristic => do
    failIf (!hasFlag characteristic "notify" && !hasFlag characteristic "indicate")
      { kind := .invalidArgument, message := "characteristic does not support notifications" }
    return characteristic

/-- After `StartNotify`. -/
def verify (path : String) (started : Bool) (deadline clock : Nat) : Setup Unit := do
  if ← tells .invalidated then rollback path started invalidatedError
  else
    let elapsed ← tells .now
    if remainingTimeout deadline (clock + elapsed) = 0 then
      rollback path started (timeoutError "StartNotify deadline expired while verifying notification state")
    else
      match ← tells (.notifying path (remainingTimeout deadline (clock + elapsed))) with
      | .error e => rollback path started e
      | .ok none => rollback path started malformedError
      | .ok (some false) => rollback path started inactiveError
      | .ok (some true) => if ← tells .invalidated then rollback path started invalidatedError else return ()

def startNotify (device path : String) (handler : Bool) (timeout : Int) : Setup Unit := do
  failIf (!pathWithinDevice device path || !handler)
    { kind := .invalidArgument,
      message := "notification requires a characteristic in the selected device and a callback" }
  failIf (timeout ≤ 0) { kind := .invalidArgument, message := "StartNotify timeout must be positive" }
  let deadline := nanoseconds timeout.toNat
  let (clock, left) ← inTime [] deadline 0 "StartNotify deadline expired before discovering the GATT tree"
  match ← tells (.discover device left) with
  | .error e => throw e
  | .ok services =>
    let (clock, _) ← inTime [] deadline clock "StartNotify deadline expired before enabling notifications"
    let _ ← capability services path
    let clock ← observe [] .properties deadline clock
    let clock ← observe [.properties] .owner deadline clock
    let clock ← observe [.properties, .owner] .objects deadline clock
    let (clock, _) ← inTime observers deadline clock
      "StartNotify deadline expired before enabling notifications"
    let (clock, left) ← inTime observers deadline clock
      "StartNotify deadline expired before enabling notifications"
    match ← tells (.startNotify path left) with
    | .error e => abandon observers e
    | .ok _ =>
      let invalidated ← tells .markStarted
      verify path (!invalidated) deadline clock

-- ---------------------------------------------------------------------------
-- The protocol
-- ---------------------------------------------------------------------------

/-- What the calls so far come to. -/
structure Conduct where
  -- The observers that are installed, the latest last.
  installed : List Observer := []
  -- BlueZ has accepted `StartNotify`.
  accepted : Bool := false
  -- The latest answer to whether the notification is invalid, and whether it ever was yes.
  invalidated : Bool := false
  everInvalidated : Bool := false
  notifying : Bool := false
  stopAsked : Bool := false

namespace Conduct

def next (c : Conduct) : Exchange Call Answer → Conduct
  | ⟨.subscribe observer _, .ok _⟩ => { c with installed := c.installed ++ [observer] }
  | ⟨.cancel observer, _⟩ => { c with installed := c.installed.erase observer }
  | ⟨.startNotify _ _, .ok _⟩ => { c with accepted := true }
  | ⟨.markStarted, yes⟩ | ⟨.invalidated, yes⟩ =>
    { c with invalidated := yes, everInvalidated := c.everInvalidated || yes }
  | ⟨.notifying _ _, .ok (some yes)⟩ => { c with notifying := yes }
  | ⟨.stopNotify _, _⟩ => { c with stopAsked := true }
  | _ => c

end Conduct

open Conduct

/-- When a call may be made. -/
def permitted (timeout : Int) (c : Conduct) (e : Exchange Call Answer) : Prop :=
  match e.1 with
  | .now => True
  | .discover _ left => c.installed = [] ∧ c.accepted = false ∧ 0 < left ∧ left ≤ timeout
  | .subscribe observer left => observer ∉ c.installed ∧ c.accepted = false ∧ 0 < left ∧ left ≤ timeout
  | .cancel observer => observer ∈ c.installed ∧ (c.accepted = true → c.stopAsked = true)
  | .startNotify _ left => c.installed = observers ∧ c.accepted = false ∧ 0 < left ∧ left ≤ timeout
  | .markStarted | .invalidated => c.installed = observers ∧ c.accepted = true ∧ c.stopAsked = false
  | .notifying _ left =>
    c.installed = observers ∧ c.accepted = true ∧ c.invalidated = false ∧ 0 < left ∧ left ≤ timeout
  | .stopNotify _ => c.installed = observers ∧ c.accepted = true ∧ c.stopAsked = false ∧ c.invalidated = false

/-- How `startNotify` fails: the observers are gone, or what BlueZ has accepted is stopped or invalid. -/
structure Failed (c : Conduct) : Prop where
  before : c.accepted = false → c.installed = []
  after : c.accepted = true → c.stopAsked = true ∨ c.everInvalidated = true

structure Succeeded (c : Conduct) : Prop where
  installed : c.installed = observers
  accepted : c.accepted = true
  notifying : c.notifying = true
  invalidated : c.invalidated = false
  stopAsked : c.stopAsked = false

def Ends : Except GattError Unit → Conduct → Prop
  | .ok _, c => Succeeded c
  | .error _, c => Failed c

-- ---------------------------------------------------------------------------
-- Along the program
-- ---------------------------------------------------------------------------

variable {timeout : Int} {c : Conduct} {α : Type} {Q : α → Conduct → Prop} {E : GattError → Conduct → Prop}
  {installed : List Observer} {deadline clock : Nat}

theorem obeys_call {call : Call} {f : Answer call → Setup α}
    (allowed : ∀ answer, permitted timeout c ⟨call, answer⟩)
    (h : ∀ answer, Obeys (permitted timeout) next (f answer) (c.next ⟨call, answer⟩) Q E) :
    Obeys (permitted timeout) next (tells call >>= f) c Q E :=
  .call allowed h

theorem obeys_failIf {failing : Bool} {error : GattError} (h : failing = true → E error c) :
    Obeys (permitted timeout) next (failIf failing error) c (fun _ c' => c' = c ∧ failing = false) E := by
  cases failing with
  | true => exact h rfl
  | false => exact ⟨rfl, rfl⟩

/-- The observers that are installed are cancelled one by one. -/
theorem obeys_cancelAll (h : c.installed = installed) (hnodup : installed.Nodup)
    (stopped : c.accepted = true → c.stopAsked = true) :
    Obeys (permitted timeout) next (cancelAll installed) c (fun _ c' => c' = { c with installed := [] }) E := by
  induction installed generalizing c with
  | nil =>
    refine .pure ?_
    rw [← h]
  | cons observer observers ih =>
    refine obeys_call (fun _ => ⟨by rw [h]; exact List.mem_cons_self, stopped⟩) fun _ => ?_
    refine (ih (c := { c with installed := c.installed.erase observer }) ?_ hnodup.of_cons stopped).mono ?_
    · rw [h, List.erase_cons_head]
    · rintro _ _ rfl
      rfl

theorem obeys_abandon {error : GattError} (h : c.installed = installed) (hnodup : installed.Nodup)
    (early : c.accepted = false) :
    Obeys (permitted timeout) next (abandon installed error) c Q (fun _ => Failed) := by
  refine (obeys_cancelAll h hnodup fun accepted => absurd (early.symm.trans accepted) (by simp)).bind ?_
  rintro _ _ rfl
  exact .throw ⟨fun _ => rfl, fun accepted => absurd (early.symm.trans accepted) (by simp)⟩

/-- Where the observers are being installed. -/
structure Observing (installed : List Observer) (c : Conduct) : Prop where
  installed : c.installed = installed
  accepted : c.accepted = false
  stopAsked : c.stopAsked = false

/-- What remains of a deadline is in the bounds of its timeout. -/
theorem obeys_inTime {message : String} (h : Observing installed c) (hnodup : installed.Nodup) :
    Obeys (permitted timeout) next (inTime installed (nanoseconds timeout.toNat) clock message) c
      (fun left c' => Observing installed c' ∧ 0 < left.2 ∧ (left.2 : Int) ≤ timeout) (fun _ => Failed) := by
  refine obeys_call (fun _ => trivial) fun elapsed => ?_
  split
  · exact obeys_abandon h.installed hnodup h.accepted
  next left => exact .pure ⟨h, remainingTimeout_le timeout _ left⟩

theorem obeys_observe {observer : Observer} (h : Observing installed c)
    (hnodup : (installed ++ [observer]).Nodup) :
    Obeys (permitted timeout) next (observe installed observer (nanoseconds timeout.toNat) clock) c
      (fun _ => Observing (installed ++ [observer])) (fun _ => Failed) := by
  have distinct := List.nodup_append.mp hnodup
  refine (obeys_inTime h distinct.1).bind ?_
  rintro ⟨clock, left⟩ c ⟨h, bounds⟩
  refine obeys_call (fun _ => ⟨?_, h.accepted, bounds⟩) fun answer => ?_
  · rw [h.installed]
    exact fun mem => distinct.2.2 observer mem observer (List.mem_singleton_self observer) rfl
  · cases answer with
    | ok _ => exact .pure ⟨congrArg (· ++ [observer]) h.installed, h.accepted, h.stopAsked⟩
    | error e => exact obeys_abandon h.installed distinct.1 h.accepted

theorem obeys_capability {services : List Service} {path : String} (h : Failed c) :
    Obeys (permitted timeout) next (capability services path) c (fun _ c' => c' = c) (fun _ => Failed) := by
  unfold capability
  split
  · exact .throw h
  · refine (obeys_failIf fun _ => h).bind ?_
    rintro _ _ ⟨rfl, -⟩
    exact .pure rfl

/-- Where `StartNotify` has been accepted. -/
structure Accepted (started : Bool) (c : Conduct) : Prop where
  installed : c.installed = observers
  accepted : c.accepted = true
  stopAsked : c.stopAsked = false
  started : started = false → c.everInvalidated = true

variable {started : Bool} {path : String}

theorem Accepted.asked (h : Accepted started c) (yes : Bool) :
    Accepted started { c with invalidated := yes, everInvalidated := c.everInvalidated || yes } where
  installed := h.installed
  accepted := h.accepted
  stopAsked := h.stopAsked
  started early := by simp [h.started early]

/-- The notification is stopped, or it is invalid and there is nothing to stop. -/
theorem obeys_stopNotify (h : Accepted started c) :
    Obeys (permitted timeout) next (stopNotify path started) c
      (fun _ c' => c'.accepted = true ∧ (c'.stopAsked = true ∨ c'.everInvalidated = true)) E := by
  unfold stopNotify
  refine obeys_call (fun _ => ⟨h.installed, h.accepted, h.stopAsked⟩) fun yes => ?_
  split
  next returns =>
    refine .pure ⟨h.accepted, .inr ?_⟩
    change (c.everInvalidated || yes) = true
    simp only [Bool.or_eq_true, Bool.not_eq_true'] at returns ⊢
    exact returns.imp h.started id
  next goes =>
    have valid : yes = false := by
      cases yes with
      | true => exact absurd (Bool.or_true _) goes
      | false => rfl
    refine obeys_call (fun _ => ⟨h.installed, h.accepted, h.stopAsked, valid⟩) fun answer => ?_
    cases answer with
    | error e => exact .pure ⟨h.accepted, .inl rfl⟩
    | ok _ =>
      refine (obeys_cancelAll ?_ (by decide) ?_).bind ?_
      · exact h.installed
      · exact fun _ => rfl
      · rintro _ _ rfl
        exact .pure ⟨h.accepted, .inl rfl⟩

theorem obeys_rollback {failure : GattError} (h : Accepted started c) :
    Obeys (permitted timeout) next (rollback path started failure) c Q (fun _ => Failed) := by
  unfold rollback
  refine (obeys_stopNotify h).bind ?_
  rintro answer c' ⟨accepted, ends⟩
  have failed : Failed c' := ⟨fun early => absurd (early.symm.trans accepted) (by simp), fun _ => ends⟩
  cases answer with
  | ok _ => exact .throw failed
  | error e => exact .throw failed

theorem obeys_verify (h : Accepted started c) :
    Obeys (permitted timeout) next (verify path started (nanoseconds timeout.toNat) clock) c
      (fun _ => Succeeded)
      (fun _ => Failed) := by
  unfold verify
  refine obeys_call (fun _ => ⟨h.installed, h.accepted, h.stopAsked⟩) fun yes => ?_
  split
  · exact obeys_rollback (h.asked yes)
  next valid =>
    refine obeys_call (fun _ => trivial) fun elapsed => ?_
    split
    · exact obeys_rollback (h.asked yes)
    next left =>
      refine obeys_call (fun _ => ⟨h.installed, h.accepted, Bool.eq_false_iff.mpr valid,
        remainingTimeout_le timeout _ left⟩) fun answer => ?_
      split
      · exact obeys_rollback (h.asked yes)
      · exact obeys_rollback (h.asked yes)
      · exact obeys_rollback ⟨h.installed, h.accepted, h.stopAsked, (h.asked yes).started⟩
      · refine obeys_call (fun _ => ⟨h.installed, h.accepted, h.stopAsked⟩) fun again => ?_
        have accepted :
          Accepted started { c with notifying := true, everInvalidated := c.everInvalidated || yes } :=
          ⟨h.installed, h.accepted, h.stopAsked, (h.asked yes).started⟩
        split
        · exact obeys_rollback (accepted.asked again)
        next still => exact .pure ⟨h.installed, h.accepted, rfl, Bool.eq_false_iff.mpr still, h.stopAsked⟩

theorem obeys_startNotify (device path : String) (handler : Bool) (timeout : Int) :
    Obeys (permitted timeout) next (startNotify device path handler timeout) {} (fun _ => Succeeded)
      (fun _ => Failed) := by
  have fresh : Failed {} := ⟨fun _ => rfl, fun accepted => by cases accepted⟩
  unfold startNotify
  refine (obeys_failIf fun _ => fresh).bind ?_
  rintro _ _ ⟨rfl, -⟩
  refine (obeys_failIf fun _ => fresh).bind ?_
  rintro _ _ ⟨rfl, -⟩
  have observing : Observing [] {} := ⟨rfl, rfl, rfl⟩
  refine (obeys_inTime observing .nil).bind ?_
  rintro ⟨clock, left⟩ c ⟨h, bounds⟩
  refine obeys_call (fun _ => ⟨h.installed, h.accepted, bounds⟩) fun services => ?_
  cases services with
  | error e =>
    exact .throw ⟨fun _ => h.installed, fun accepted => absurd (h.accepted.symm.trans accepted) (by simp)⟩
  | ok services =>
    refine (obeys_inTime ⟨h.installed, h.accepted, h.stopAsked⟩ .nil).bind ?_
    rintro ⟨clock, -⟩ c ⟨h, -⟩
    refine (obeys_capability
      ⟨fun _ => h.installed, fun accepted => absurd (h.accepted.symm.trans accepted) (by simp)⟩).bind ?_
    rintro - _ rfl
    refine (obeys_observe h (by decide)).bind ?_
    rintro clock c h
    refine (obeys_observe h (by decide)).bind ?_
    rintro clock c h
    refine (obeys_observe h (by decide)).bind ?_
    rintro clock c h
    refine (obeys_inTime h (by decide)).bind ?_
    rintro ⟨clock, -⟩ c ⟨h, -⟩
    refine (obeys_inTime h (by decide)).bind ?_
    rintro ⟨clock, left⟩ c ⟨h, bounds⟩
    refine obeys_call (fun _ => ⟨h.installed, h.accepted, bounds⟩) fun answer => ?_
    cases answer with
    | error e => exact obeys_abandon h.installed (by decide) h.accepted
    | ok _ =>
      refine obeys_call (fun _ => ⟨h.installed, rfl, h.stopAsked⟩) fun invalidated => ?_
      refine obeys_verify ⟨h.installed, rfl, h.stopAsked, fun early => ?_⟩
      cases invalidated with
      | true => exact Bool.or_true _
      | false => cases early

/-- Whatever is answered, each call is permitted where it is made, and a failure leaves nothing behind. -/
theorem startNotify_conducts (partner : Partner Call Answer) (device path : String) (handler : Bool)
    (timeout : Int) :
    Follows (permitted timeout) next {} (Dialogue.run partner (startNotify device path handler timeout).run
      []).1 ∧
      Ends (Dialogue.run partner (startNotify device path handler timeout).run []).2
        ((Dialogue.run partner (startNotify device path handler timeout).run []).1.foldl next {}) := by
  refine (Meets.mono (obeys_startNotify device path handler timeout) ?_).run partner []
  rintro (e | done) c h <;> exact h

/-- Everything succeeds at once. -/
def granting : Partner Call Answer
  | _, .now => 0
  | _, .discover _ _ => .ok [⟨[⟨"/device/characteristic", ["notify"]⟩]⟩]
  | _, .subscribe _ _ | _, .startNotify _ _ | _, .stopNotify _ => .ok ()
  | _, .cancel _ => ()
  | _, .markStarted | _, .invalidated => false
  | _, .notifying _ _ => .ok (some true)

example : (Dialogue.run granting (startNotify "/device" "/device/characteristic" true 1000).run []).2.isOk =
  true := by
  decide +kernel

end Dmn.Gatt
