import Dmn.Lib.Transition
import Mathlib.Data.Fintype.Basic
import Mathlib.Data.List.Nodup

/-!
# Method calls

`submit`, the cancel handles, `pendingComplete`, `expireCalls`,
`failPendingOnDisconnect` and `shutdown`, step by step: a section under
`m_mutex`, an atomic operation, a result for the promise and a call of libdbus
are a step each. The outcomes of libdbus are open, and so is the clock. Every
call has an index. `keep_alive`, which nothing resets before the notify
function runs, is left out.
-/

namespace Dmn.Dbus

open Dmn.Lib

/-- What a future gets. -/
inductive Outcome
  | failed
  -- The reply, or its remote error.
  | answered
  | cancelled
  | timedOut
  | disconnected
  | shutDown
  deriving DecidableEq

/-- Where `submit` is. -/
inductive SubmitPc
  | idle
  | encodes
  | sends
  -- The call is not sent, and `m_in_flight` is to be decreased.
  | drops
  | finishes
  | failed
  -- The call is in `m_pending`, and `set_notify` is to be called.
  | registers
  -- `set_notify` has failed.
  | unregisters
  | cancels (owned : Bool)
  | unrefs (owned : Bool)
  | subs
  | sets
  | unregistered
  | returned
  deriving DecidableEq

/-- Where `pendingComplete` is. -/
inductive NotifyPc
  | none
  | steals
  | erases
  | exchanges
  | subs
  | sets
  | done
  deriving DecidableEq

def NotifyPc.active : NotifyPc → Bool
  | .none | .done => false
  | _ => true

structure Call where
  place : SubmitPc := .idle
  completed : Bool := false
  -- `dbus_connection_send_with_reply` has given a pending call.
  sent : Bool := false
  -- `request->pending` is not null.
  pending : Bool := false
  -- It is in `m_pending`.
  listed : Bool := false
  registered : Bool := false
  -- `dbus_pending_call_cancel` has been called.
  cancelled : Bool := false
  -- The client's reference has been released, and how often.
  released : Nat := 0
  -- The deadline has passed.
  expired : Bool := false
  -- The reply has been dispatched, and before the deadline.
  dispatched : Bool := false
  inTime : Bool := false
  notify : NotifyPc := .none
  -- The results that were given to the promise.
  results : List Outcome := []
  deriving DecidableEq

/-- Who completes calls. -/
inductive Reason
  | handle
  | expire
  | disconnect
  | shutdown
  deriving DecidableEq

def Reason.outcome : Reason → Outcome
  | .handle => .cancelled
  | .expire => .timedOut
  | .disconnect => .disconnected
  | .shutdown => .shutDown

/-- Where the completion of one call is; `cancelPending` begins at `takes`. -/
inductive Stage
  | exchanges
  | subs
  | sets
  | takes
  | cancels
  | unrefs
  | releases
  deriving DecidableEq

/-- A thread that completes calls, and those that are left. -/
inductive ThreadPc (ι : Type)
  | idle
  | completes (reason : Reason) (stage : Stage) (call : ι) (rest : List ι)
  -- The last section of `shutdown`.
  | closes
  deriving DecidableEq

namespace ThreadPc

variable {ι : Type}

/-- The next call, or the end. -/
def next (reason : Reason) : List ι → ThreadPc ι
  | call :: rest => .completes reason .exchanges call rest
  | [] => match reason with
    | .shutdown => .closes
    | _ => .idle

/-- It is the dispatch worker. -/
def dispatching : ThreadPc ι → Bool
  | .completes .expire .. | .completes .disconnect .. => true
  | _ => false

end ThreadPc

structure CallLimits where
  maxInFlightCalls : Nat := 128
  maxQueuedCommands : Nat := 256

def CallLimits.most (limits : CallLimits) : Nat := min limits.maxInFlightCalls limits.maxQueuedCommands

structure Calls (ι κ : Type) where
  call : ι → Call := fun _ => {}
  thread : κ → ThreadPc ι := fun _ => .idle
  inFlight : Int := 0
  accepting : Bool := true
  shutdownStarted : Bool := false
  -- A function of libdbus has been called on a null pointer, or on a pending call that the client has released.
  misused : Bool := false

namespace Calls

variable {ι κ : Type}

inductive Action (ι κ : Type)
  -- The next step of `submit`, and whether what it tries succeeds.
  | submit (call : ι) (ok : Bool)
  | deadline (call : ι)
  -- The dispatch worker dispatches the reply.
  | reply (call : ι)
  | notify (call : ι)
  -- A handle is cancelled.
  | cancelCall (thread : κ) (call : ι)
  | expireCalls (thread : κ) (calls : List ι)
  | failPendingOnDisconnect (thread : κ) (calls : List ι)
  | shutdown (thread : κ) (calls : List ι)
  | thread (thread : κ)

variable [DecidableEq ι] [DecidableEq κ]

def set (s : Calls ι κ) (call : ι) (c : Call) : Calls ι κ := { s with call := Function.update s.call call c }

def go (s : Calls ι κ) (thread : κ) (pc : ThreadPc ι) : Calls ι κ :=
  { s with thread := Function.update s.thread thread pc }

/-- A function of libdbus is called on the pending call. -/
def use (s : Calls ι κ) (c : Call) : Calls ι κ := { s with misused := s.misused || c.released ≠ 0 }

/-- On the one that `submit` has taken back, which may be null. -/
def useOwned (s : Calls ι κ) (c : Call) (owned : Bool) : Calls ι κ :=
    { s.use c with misused := (s.use c).misused || !owned }

def sub (s : Calls ι κ) : Calls ι κ := { s with inFlight := s.inFlight - 1 }

/-- The next step of `submit`. -/
def runSubmit (limits : CallLimits) (s : Calls ι κ) (call : ι) (ok : Bool) : Option (Calls ι κ) :=
  let c := s.call call
  match c.place with
  | .idle =>
    if ok && s.accepting && s.inFlight < limits.most then
      some { s.set call { c with place := .encodes } with inFlight := s.inFlight + 1 }
    else some (s.set call { c with place := .failed, results := c.results ++ [.failed] })
  | .encodes => some (s.set call { c with place := if ok then .sends else .drops })
  | .sends =>
    if s.accepting && ok then
      some (s.set call { c with place := .registers, sent := true, pending := true, listed := true })
    else some (s.set call { c with place := .drops })
  | .drops => some (s.sub.set call { c with place := .finishes })
  | .finishes =>
    some (s.set call { c with
      place := .failed, completed := true, results := if c.completed then c.results else c.results ++
        [.failed] })
  | .registers =>
    some ((s.use c).set call (if ok then { c with place := .returned, registered := true } else
      { c with place := .unregisters }))
  | .unregisters => some (s.set call { c with place := .cancels c.pending, pending := false, listed := false })
  | .cancels owned =>
    some ((s.useOwned c owned).set call
      { c with place := .unrefs owned, cancelled := c.cancelled || owned })
  | .unrefs owned =>
    some ((s.useOwned c owned).set call
      { c with place := .subs, released := if owned then c.released + 1 else c.released })
  | .subs => some (s.sub.set call { c with place := .sets })
  | .sets => some (s.set call { c with place := .unregistered, results := c.results ++ [.failed] })
  | .failed | .unregistered | .returned => none

/-- The next step of `pendingComplete`. -/
def runNotify (s : Calls ι κ) (call : ι) : Option (Calls ι κ) :=
  let c := s.call call
  match c.notify with
  | .steals => some ((s.use c).set call { c with notify := .erases })
  | .erases =>
    if c.pending then
      some ((s.use c).set call
        { c with notify := .exchanges, listed := false, pending := false, released := c.released + 1 })
    else some (s.set call { c with notify := .exchanges, listed := false })
  | .exchanges =>
    some (s.set call (if c.completed then { c with notify := .done } else
      { c with notify := .subs, completed := true }))
  | .subs => some (s.sub.set call { c with notify := .sets })
  | .sets => some (s.set call { c with notify := .done, results := c.results ++ [.answered] })
  | .none | .done => none

/-- One step of the completion of a call. -/
def complete (s : Calls ι κ) (thread : κ) (reason : Reason) (stage : Stage) (call : ι) (rest : List ι) :
    Calls ι κ :=
  let c := s.call call
  let goOn (stage : Stage) := ThreadPc.completes reason stage call rest
  match stage with
  | .exchanges =>
    if c.completed then s.go thread (if reason = .handle then .idle else goOn .takes)
    else (s.go thread (goOn .subs)).set call { c with completed := true }
  | .subs => s.sub.go thread (goOn .sets)
  | .sets => (s.go thread (goOn .takes)).set call { c with results := c.results ++ [reason.outcome] }
  | .takes =>
    if c.pending then ((s.use c).go thread (goOn .cancels)).set call
      { c with pending := false, listed := false }
    else s.go thread (.next reason rest)
  | .cancels => ((s.use c).go thread (goOn .unrefs)).set call { c with cancelled := true }
  | .unrefs => (s.use c).go thread (goOn .releases)
  | .releases => ((s.use c).go thread (.next reason rest)).set call { c with released := c.released + 1 }

/-- What is left in `m_pending` is released. -/
def close (c : Call) : Call :=
  if c.listed then { c with listed := false, pending := false, released := c.released + 1 } else c

/-- The next step of a thread. -/
def runThread (s : Calls ι κ) (thread : κ) : Option (Calls ι κ) :=
  match s.thread thread with
  | .idle => none
  | .completes reason stage call rest => some (s.complete thread reason stage call rest)
  | .closes => some { s.go thread .idle with call := fun call => close (s.call call) }

variable [Fintype ι] [Fintype κ]

/-- The dispatch worker is in none of its functions. -/
def DispatchIdle (s : Calls ι κ) : Prop :=
  (∀ thread, (s.thread thread).dispatching = false) ∧ ∀ call, (s.call call).notify.active = false

instance (s : Calls ι κ) : Decidable s.DispatchIdle :=
  inferInstanceAs (Decidable ((∀ thread, (s.thread thread).dispatching = false) ∧
    ∀ call, (s.call call).notify.active = false))

/-- A thread begins to complete calls. -/
def start (s : Calls ι κ) (thread : κ) (reason : Reason) (calls : List ι) (may : Prop) [Decidable may] :
    Option (Calls ι κ) :=
  match s.thread thread with
  | .idle => if may then some (s.go thread (.next reason calls)) else none
  | _ => none

def step (limits : CallLimits) (s : Calls ι κ) : Action ι κ → Option (Calls ι κ)
  | .submit call ok => s.runSubmit limits call ok
  | .deadline call => some (s.set call { s.call call with expired := true })
  | .reply call =>
    let c := s.call call
    if s.DispatchIdle ∧ c.sent ∧ c.dispatched = false then
      some (s.set call { c with
        dispatched := true, inTime := !c.expired
        notify := if c.registered && !c.cancelled then .steals else c.notify })
    else none
  | .notify call => s.runNotify call
  | .cancelCall thread call => s.start thread .handle [call] ((s.call call).place = .returned)
  | .expireCalls thread calls =>
    s.start thread .expire calls
      (s.DispatchIdle ∧ calls.Nodup ∧ ∀ call ∈ calls, (s.call call).listed ∧ (s.call call).expired)
  | .failPendingOnDisconnect thread calls =>
    s.start thread .disconnect calls (s.DispatchIdle ∧ calls.Nodup ∧ ∀ call,
      call ∈ calls ↔ (s.call call).listed)
  | .shutdown thread calls =>
    { s with accepting := false, shutdownStarted := true }.start thread .shutdown calls
      (s.shutdownStarted = false ∧ calls.Nodup ∧ ∀ call, call ∈ calls ↔ (s.call call).listed)
  | .thread thread => s.runThread thread

end Calls
end Dmn.Dbus
