import Dmn.Dbus.Output
import Dmn.Lib.Census
import Mathlib

/-!
# The bounded input of the D-Bus endpoint

`Dmn_DbusInput` under any schedule: any number of threads that read, the dispatch worker with the
filter it runs, and the one call of `shutdown` that counts. A section under `m_mutex` is one step.
`m_ready` is the set of the readers that wait; a `notify_one` wakes any one of them.
-/

namespace Dmn.Dbus.Input

open Lib

abbrev Payload := Output.Payload

structure Config extends Output.Config where
  signalPath : String
  signalInterface : String
  signalMember : String

/-- A message, as far as the filter looks at it. -/
structure Message where
  isSignal : Bool
  path : Option String
  interface : Option String
  member : Option String
  signature : Option String
  -- The bytes, if there is an array.
  body : Option Payload

/-- What `handleMessage` makes of a message before it looks at the queue. -/
inductive Verdict where
  | foreign
  | malformed
  | oversized
  | signal (payload : Payload)
  deriving DecidableEq

/-- The configured tuple. -/
def matchesTuple (config : Config) (message : Message) : Bool :=
  message.isSignal && message.path == some config.signalPath && message.interface == some
    config.signalInterface &&
    message.member == some config.signalMember

def verdict (config : Config) (message : Message) : Verdict :=
  if matchesTuple config message then
    if message.signature == some "ay" then
      match message.body with
      | none => .malformed
      | some payload => if config.maxMessageBytes < payload.length then .oversized else .signal payload
    else .malformed
  else .foreign

/-- What a worker error is about. -/
inductive ErrorCode where
  | ioError
  | connectionReset
  deriving DecidableEq

/-- Where a thread is that reads. -/
inductive ReaderPc where
  | idle
  -- In the wait set of `m_ready`.
  | waiting
  -- Notified, and about to lock the mutex.
  | woken
  deriving DecidableEq

def ReaderPc.wakes : ReaderPc → Nat
  | .woken => 1
  | _ => 0

/-- Where the dispatch worker is. -/
inductive WorkerPc where
  -- At the top of its loop.
  | loop
  -- In `dbus_connection_read_write_dispatch`.
  | dispatches
  -- There was room, and the payload is copied.
  | copies (payload : Payload)
  -- About to notify a reader.
  | pushed
  -- In `setTerminalError`, which the loop has been left for or not.
  | errored (error : ErrorCode) (left : Bool)
  -- About to notify.
  | failed (left : Bool)
  | ended
  deriving DecidableEq

/-- How the copy and the push of a payload go. -/
inductive Copy where
  | done
  | badAlloc
  | throws
  deriving DecidableEq

/-- `Dmn_DbusIoStatus`, as far as it is about input. -/
structure Status where
  messagesReceived : Nat := 0
  pendingInputMessages : Nat := 0
  pendingInputBytes : Nat := 0
  malformedReceived : Nat := 0
  oversizedReceived : Nat := 0
  inputQueueDrops : Nat := 0
  inputAllocationErrors : Nat := 0
  terminalError : Option ErrorCode := none

structure State (ι : Type) where
  queue : List Payload := []
  queuedBytes : Nat := 0
  stopping : Bool := false
  workerStop : Bool := false
  status : Status := {}
  readers : ι → ReaderPc := fun _ => .idle
  worker : WorkerPc := .loop
  shutdown : Output.ShutdownPc := .idle
  -- `m_queued_bytes` has been made less than nothing.
  underflow : Bool := false
  -- History: the payloads that were queued.
  received : List Payload := []
  -- History: the payloads that were read.
  taken : List Payload := []
  -- History: the messages that had the configured tuple.
  arrived : List Message := []
  -- History: how many of them were given up for a shutdown or an exception.
  givenUp : Nat := 0

inductive Action (ι : Type) where
  -- `read`, up to its return or its wait.
  | read (t : ι)
  | spuriousWakeUp (t : ι)
  | recheck (t : ι)
  -- The test of `workerStop`.
  | loop
  -- The filter gets a message.
  | filter (message : Message)
  -- `dbus_connection_read_write_dispatch` returns.
  | dispatched (connected : Bool)
  | push (copy : Copy)
  | setTerminalError
  -- The `notify_one`, with the reader that it wakes.
  | notifyOne (reader : Option ι)
  | notifyAll
  -- The next step of `shutdown`.
  | shutdown

namespace State

variable {ι : Type} [DecidableEq ι]

def goto (s : State ι) (t : ι) (pc : ReaderPc) : State ι := { s with readers := Function.update s.readers t pc }

/-- `m_ready.notify_all()` -/
def wakeAll (s : State ι) : State ι :=
  { s with
    readers := fun t => match s.readers t with
      | .waiting => .woken
      | pc => pc }

/-- Readers no longer wait. -/
def aborted (s : State ι) : Bool := s.stopping || s.status.terminalError.isSome

/-- What a reader does with the mutex: it takes the first payload, throws or waits. -/
def await (s : State ι) (t : ι) : State ι :=
  match s.queue with
  | payload :: queue =>
    { s with
      queue
      queuedBytes := s.queuedBytes - payload.length
      underflow := s.underflow || decide (s.queuedBytes < payload.length)
      status.pendingInputMessages := queue.length
      status.pendingInputBytes := s.queuedBytes - payload.length
      taken := s.taken ++ [payload] }.goto t .idle
  | [] => s.goto t (if s.aborted then .idle else .waiting)

/-- `handleMessage`, up to the copy. -/
def filter (s : State ι) (config : Config) (message : Message) : State ι :=
  match verdict config message with
  | .foreign => s
  | .malformed =>
    { s with status.malformedReceived := s.status.malformedReceived + 1, arrived := s.arrived ++ [message] }
  | .oversized =>
    { s with status.oversizedReceived := s.status.oversizedReceived + 1, arrived := s.arrived ++ [message] }
  | .signal payload =>
    if s.stopping then { s with arrived := s.arrived ++ [message], givenUp := s.givenUp + 1 }
    else if config.maxQueuedMessages ≤ s.queue.length ∨ config.maxQueuedBytes - s.queuedBytes <
      payload.length then
      { s with status.inputQueueDrops := s.status.inputQueueDrops + 1, arrived := s.arrived ++ [message] }
    else { s with arrived := s.arrived ++ [message], worker := .copies payload }

/-- The rest of `handleMessage`, and the handlers of `filterMessage`. -/
def push (s : State ι) (payload : Payload) : Copy → State ι
  | .badAlloc =>
    { s with status.inputAllocationErrors := s.status.inputAllocationErrors + 1, worker := .dispatches }
  | .throws => { s with givenUp := s.givenUp + 1, worker := .errored .ioError false }
  | .done =>
    if s.stopping then { s with givenUp := s.givenUp + 1, worker := .dispatches }
    else
      { s with
        queue := s.queue ++ [payload]
        queuedBytes := s.queuedBytes + payload.length
        status.messagesReceived := s.status.messagesReceived + 1
        status.pendingInputMessages := (s.queue ++ [payload]).length
        status.pendingInputBytes := s.queuedBytes + payload.length
        received := s.received ++ [payload]
        worker := .pushed }

def runShutdown (s : State ι) : Option (State ι) :=
  match s.shutdown with
  | .idle => some { s with stopping := true, shutdown := .stopping }
  | .stopping => some { s with workerStop := true, shutdown := .stored }
  | .stored => some { s.wakeAll with shutdown := .joins }
  | .joins =>
    match s.worker with
    | .ended => some { s with shutdown := .done }
    | _ => none
  | .done => none

def step [Fintype ι] (config : Config) (s : State ι) : Action ι → Option (State ι)
  | .read t =>
    match s.readers t with
    | .idle => some (s.await t)
    | _ => none
  | .spuriousWakeUp t =>
    match s.readers t with
    | .waiting => some (s.goto t .woken)
    | _ => none
  | .recheck t =>
    match s.readers t with
    | .woken => some (s.await t)
    | _ => none
  | .loop =>
    match s.worker with
    | .loop => some { s with worker := if s.workerStop then .ended else .dispatches }
    | _ => none
  | .filter message =>
    match s.worker with
    | .dispatches => some (s.filter config message)
    | _ => none
  | .dispatched connected =>
    match s.worker with
    | .dispatches => some { s with worker := if connected then .loop else .errored .connectionReset true }
    | _ => none
  | .push copy =>
    match s.worker with
    | .copies payload => some (s.push payload copy)
    | _ => none
  | .setTerminalError =>
    match s.worker with
    | .errored error left =>
      some { s with status.terminalError := s.status.terminalError.or (some error), worker := .failed left }
    | _ => none
  | .notifyOne reader =>
    match s.worker, reader with
    | .pushed, some t =>
      match s.readers t with
      | .waiting => some { s.goto t .woken with worker := .dispatches }
      | _ => none
    -- nobody is there to be woken
    | .pushed, none => if ∀ t, s.readers t ≠ .waiting then some { s with worker := .dispatches } else none
    | _, _ => none
  | .notifyAll =>
    match s.worker with
    | .failed left => some { s.wakeAll with worker := if left then .ended else .dispatches }
    | _ => none
  | .shutdown => s.runShutdown

-- ---------------------------------------------------------------------------
-- The queue
-- ---------------------------------------------------------------------------

variable {config : Config} {s s' : State ι} {t : ι} {payload : Payload}

/-- The payload that there was room for. -/
def inHand (s : State ι) : List Payload :=
  match s.worker with
  | .copies payload => [payload]
  | _ => []

/-- A shutdown or an exception, for which a message may be given up. -/
def Excused (s : State ι) : Prop :=
  s.stopping = true ∨ s.status.terminalError.isSome = true ∨ s.worker = .errored .ioError false

structure Stored (config : Config) (s : State ι) : Prop where
  bytes : s.queuedBytes = (s.queue.map List.length).sum
  messages : s.queue.length ≤ config.maxQueuedMessages
  bounded : s.queuedBytes ≤ config.maxQueuedBytes
  underflow : s.underflow = false
  pendingMessages : s.status.pendingInputMessages = s.queue.length
  pendingBytes : s.status.pendingInputBytes = s.queuedBytes
  order : s.received = s.taken ++ s.queue
  counted : s.status.messagesReceived = s.received.length
  small : ∀ payload ∈ s.received, payload.length ≤ config.maxMessageBytes
  room : ∀ payload ∈ s.inHand, s.queue.length < config.maxQueuedMessages ∧
    s.queuedBytes + payload.length ≤ config.maxQueuedBytes ∧ payload.length ≤ config.maxMessageBytes
  arrived : s.arrived.length = s.status.malformedReceived + s.status.oversizedReceived +
    s.status.inputQueueDrops +
    s.status.inputAllocationErrors + s.status.messagesReceived + s.givenUp + s.inHand.length
  tuple : ∀ message ∈ s.arrived, matchesTuple config message = true
  bodies : (s.received ++ s.inHand).Sublist (s.arrived.filterMap Message.body)
  excused : s.givenUp ≠ 0 → s.Excused

omit [DecidableEq ι] in
/-- Only the readers, the flags and the worker change. -/
theorem Stored.congr (h : s.Stored config) (hqueue : s'.queue = s.queue)
    (hbytes : s'.queuedBytes = s.queuedBytes)
    (hunderflow : s'.underflow = s.underflow)
    (hstatus : s'.status = { s.status with terminalError := s'.status.terminalError })
    (hreceived : s'.received = s.received) (htaken : s'.taken = s.taken) (harrived : s'.arrived = s.arrived)
    (hgivenUp : s'.givenUp = s.givenUp) (hhand : s'.inHand = s.inHand) (hexcused : s.Excused → s'.Excused) :
    s'.Stored config where
  bytes := by rw [hbytes, hqueue]; exact h.bytes
  messages := by rw [hqueue]; exact h.messages
  bounded := by rw [hbytes]; exact h.bounded
  underflow := by rw [hunderflow]; exact h.underflow
  pendingMessages := by rw [hstatus, hqueue]; exact h.pendingMessages
  pendingBytes := by rw [hstatus, hbytes]; exact h.pendingBytes
  order := by rw [hreceived, htaken, hqueue]; exact h.order
  counted := by rw [hstatus, hreceived]; exact h.counted
  small := by rw [hreceived]; exact h.small
  room := by rw [hhand, hqueue, hbytes]; exact h.room
  arrived := by rw [harrived, hstatus, hgivenUp, hhand]; exact h.arrived
  tuple := by rw [harrived]; exact h.tuple
  bodies := by rw [harrived, hreceived, hhand]; exact h.bodies
  excused given := hexcused (h.excused (hgivenUp ▸ given))

theorem Stored.goto {pc : ReaderPc} (h : s.Stored config) : (s.goto t pc).Stored config :=
  h.congr rfl rfl rfl rfl rfl rfl rfl rfl rfl id

theorem Stored.await (h : s.Stored config) : (s.await t).Stored config := by
  unfold State.await
  split
  next payload queue hqueue =>
    have hbytes := h.bytes
    have hmessages := h.messages
    have hbounded := h.bounded
    rw [hqueue] at hbytes hmessages
    simp only [List.map_cons, List.sum_cons, List.length_cons] at hbytes hmessages
    refine Stored.goto {
      bytes := ?_
      messages := ?_
      bounded := ?_
      underflow := ?_
      pendingMessages := rfl
      pendingBytes := rfl
      order := ?_
      counted := h.counted
      small := h.small
      room := fun payload' mem => ?_
      arrived := h.arrived
      tuple := h.tuple
      bodies := h.bodies
      excused := h.excused }
    · change s.queuedBytes - payload.length = (queue.map List.length).sum
      omega
    · change queue.length ≤ _
      omega
    · change s.queuedBytes - payload.length ≤ _
      omega
    · change (s.underflow || decide (s.queuedBytes < payload.length)) = false
      simp only [h.underflow, Bool.false_or, decide_eq_false_iff_not]
      omega
    · change s.received = s.taken ++ [payload] ++ queue
      rw [h.order, hqueue, List.append_assoc]
      rfl
    · obtain ⟨hroom, hspace, hsmall⟩ := h.room payload' mem
      rw [hqueue, List.length_cons] at hroom
      change queue.length < _ ∧ s.queuedBytes - payload.length + payload'.length ≤ _ ∧ _
      exact ⟨by omega, by omega, hsmall⟩
  · exact h.goto

theorem matchesTuple_of_verdict {message : Message} (h : verdict config message ≠ .foreign) :
    matchesTuple config message = true := by
  unfold verdict at h
  split at h
  · assumption
  · exact absurd rfl h

theorem body_of_verdict {message : Message} (h : verdict config message = .signal payload) :
    message.body = some payload ∧ payload.length ≤ config.maxMessageBytes := by
  unfold verdict at h
  split at h
  · split at h
    · split at h
      · cases h
      next body hbody =>
        split at h
        · cases h
        next hsmall =>
          obtain rfl := Verdict.signal.inj h
          exact ⟨hbody, Nat.not_lt.mp hsmall⟩
    · cases h
  · cases h

omit [DecidableEq ι] in
/-- Another message with the tuple, which the worker is done with. -/
theorem Stored.arrives {message : Message} (h : s.Stored config) (hnone : s.inHand = [])
    (htuple : matchesTuple config message = true)
    (hqueue : s'.queue = s.queue) (hbytes : s'.queuedBytes = s.queuedBytes)
    (hunderflow : s'.underflow = s.underflow)
    (hpending : s'.status.pendingInputMessages = s.status.pendingInputMessages ∧
      s'.status.pendingInputBytes = s.status.pendingInputBytes ∧ s'.status.messagesReceived =
        s.status.messagesReceived)
    (hreceived : s'.received = s.received) (htaken : s'.taken = s.taken)
    (harrived : s'.arrived = s.arrived ++ [message])
    (hhand : s'.inHand = [])
    (hcounted : s'.status.malformedReceived + s'.status.oversizedReceived + s'.status.inputQueueDrops +
      s'.status.inputAllocationErrors + s'.givenUp = s.status.malformedReceived + s.status.oversizedReceived +
        s.status.inputQueueDrops + s.status.inputAllocationErrors + s.givenUp + 1)
    (hexcused : s'.givenUp ≠ 0 → s'.Excused) : s'.Stored config where
  bytes := by rw [hbytes, hqueue]; exact h.bytes
  messages := by rw [hqueue]; exact h.messages
  bounded := by rw [hbytes]; exact h.bounded
  underflow := by rw [hunderflow]; exact h.underflow
  pendingMessages := by rw [hpending.1, hqueue]; exact h.pendingMessages
  pendingBytes := by rw [hpending.2.1, hbytes]; exact h.pendingBytes
  order := by rw [hreceived, htaken, hqueue]; exact h.order
  counted := by rw [hpending.2.2, hreceived]; exact h.counted
  small := by rw [hreceived]; exact h.small
  room := by simp [hhand]
  arrived := by
    have before := h.arrived
    rw [hnone, List.length_nil] at before
    rw [harrived, hhand, hpending.2.2, List.length_append, List.length_singleton, List.length_nil]
    omega
  tuple := by
    rw [harrived, List.forall_mem_append]
    exact ⟨h.tuple, List.forall_mem_singleton.mpr htuple⟩
  bodies := by
    have before := h.bodies
    rw [hnone] at before
    rw [harrived, hreceived, hhand, List.filterMap_append]
    exact before.trans (List.sublist_append_left ..)
  excused := hexcused

omit [DecidableEq ι] in
theorem Stored.filter {message : Message} (h : s.Stored config) (hworker : s.worker = .dispatches) :
    (s.filter config message).Stored config := by
  have hnone : s.inHand = [] := by rw [inHand, hworker]
  unfold State.filter
  split
  · exact h
  next hverdict =>
    have htuple := matchesTuple_of_verdict (by rw [hverdict]; simp)
    exact h.arrives hnone htuple rfl rfl rfl ⟨rfl, rfl, rfl⟩ rfl rfl rfl hnone (by dsimp only; omega) h.excused
  next hverdict =>
    have htuple := matchesTuple_of_verdict (by rw [hverdict]; simp)
    exact h.arrives hnone htuple rfl rfl rfl ⟨rfl, rfl, rfl⟩ rfl rfl rfl hnone (by dsimp only; omega) h.excused
  next payload hverdict =>
    have htuple := matchesTuple_of_verdict (by rw [hverdict]; simp)
    obtain ⟨hbody, hsmall⟩ := body_of_verdict hverdict
    split
    next hstop =>
      exact h.arrives hnone htuple rfl rfl rfl ⟨rfl, rfl, rfl⟩ rfl rfl rfl hnone (by
        dsimp only; omega) fun _ => .inl hstop
    next hlive =>
      split
      · exact h.arrives hnone htuple rfl rfl rfl ⟨rfl, rfl, rfl⟩ rfl rfl rfl hnone (by
          dsimp only; omega) h.excused
      next hspace =>
        have hbounded := h.bounded
        have hroom : s.queue.length < config.maxQueuedMessages ∧
          s.queuedBytes + payload.length ≤ config.maxQueuedBytes := by
          omega
        have harrived := h.arrived
        have hbodies := h.bodies
        rw [hnone] at harrived hbodies
        exact { h with
          room := List.forall_mem_singleton.mpr ⟨hroom.1, hroom.2, hsmall⟩
          arrived := by
            simp only [State.inHand, List.length_append, List.length_singleton, List.length_nil] at harrived ⊢
            omega
          tuple := List.forall_mem_append.mpr ⟨h.tuple, List.forall_mem_singleton.mpr htuple⟩
          bodies := by
            simp only [State.inHand, List.filterMap_append, List.filterMap_cons, List.filterMap_nil, hbody]
            exact (by simpa using hbodies : s.received.Sublist _).append_right [payload]
          excused := fun given => by
            rcases h.excused given with hstop | herror | herrored
            · exact absurd hstop hlive
            · exact .inr (.inl herror)
            · rw [hworker] at herrored
              cases herrored }

omit [DecidableEq ι] in
theorem Stored.push {copy : Copy} (h : s.Stored config) (hworker : s.worker = .copies payload) :
    (s.push payload copy).Stored config := by
  have hhand : s.inHand = [payload] := by rw [inHand, hworker]
  have harrived := h.arrived
  have hbodies := h.bodies
  rw [hhand] at harrived hbodies
  rw [List.length_singleton] at harrived
  have hdropped : s.received.Sublist (s.arrived.filterMap Message.body) :=
    (List.sublist_append_left ..).trans hbodies
  have hexcused : s.givenUp ≠ 0 → s.stopping = true ∨ s.status.terminalError.isSome = true := fun given => by
    rcases h.excused given with hstop | herror | herrored
    · exact .inl hstop
    · exact .inr herror
    · rw [hworker] at herrored
      cases herrored
  obtain ⟨hroom, hspace, hsmall⟩ := h.room payload (by simp [hhand])
  unfold State.push
  split
  · exact { h with
      room := by simp [State.inHand]
      arrived := by simp only [State.inHand, List.length_nil]; omega
      bodies := by simpa [State.inHand] using hdropped
      excused := fun given => (hexcused given).imp id .inl }
  · exact { h with
      room := by simp [State.inHand]
      arrived := by simp only [State.inHand, List.length_nil]; omega
      bodies := by simpa [State.inHand] using hdropped
      excused := fun _ => .inr (.inr rfl) }
  · split
    next hstop =>
      exact { h with
        room := by simp [State.inHand]
        arrived := by simp only [State.inHand, List.length_nil]; omega
        bodies := by simpa [State.inHand] using hdropped
        excused := fun _ => .inl hstop }
    · exact {
        bytes := by simp [h.bytes]
        messages := by simpa using hroom
        bounded := hspace
        underflow := h.underflow
        pendingMessages := rfl
        pendingBytes := rfl
        order := by simp [h.order]
        counted := by simp [h.counted]
        small := List.forall_mem_append.mpr ⟨h.small, List.forall_mem_singleton.mpr hsmall⟩
        room := by simp [State.inHand]
        arrived := by simp only [State.inHand, List.length_nil]; omega
        tuple := h.tuple
        bodies := by simpa [State.inHand] using hbodies
        excused := fun given => (hexcused given).imp id .inl }

omit [DecidableEq ι] in
/-- The worker goes on with nothing in its hand. -/
theorem Stored.goes (h : s.Stored config) {worker : WorkerPc} (hnone : s.inHand = [])
    (hnext : ∀ payload, worker ≠ .copies payload) (herrored : s.worker ≠ .errored .ioError false) :
    Stored config { s with worker } := by
  refine h.congr rfl rfl rfl rfl rfl rfl rfl rfl ?_ ?_
  · rw [hnone, inHand]
    split
    next payload hworker => exact absurd hworker (hnext payload)
    · rfl
  · rintro (hstop | herror | hsame)
    · exact .inl hstop
    · exact .inr (.inl herror)
    · exact absurd hsame herrored

theorem Stored.step [Fintype ι] {a : Action ι} (h : s.Stored config) (hstep : s.step config a = some s') :
    s'.Stored config := by
  cases a with
  | read t | recheck t =>
    simp only [State.step] at hstep
    split at hstep <;> cases hstep
    exact h.await
  | spuriousWakeUp t =>
    simp only [State.step] at hstep
    split at hstep <;> cases hstep
    exact h.goto
  | loop =>
    simp only [State.step] at hstep
    split at hstep <;> cases hstep
    next hworker => exact h.goes (by simp [inHand, hworker]) (fun _ => by split <;> simp) (by simp [hworker])
  | filter message =>
    simp only [State.step] at hstep
    split at hstep <;> cases hstep
    exact h.filter ‹_›
  | dispatched connected =>
    simp only [State.step] at hstep
    split at hstep <;> cases hstep
    next hworker => exact h.goes (by simp [inHand, hworker]) (fun _ => by split <;> simp) (by simp [hworker])
  | push copy =>
    simp only [State.step] at hstep
    split at hstep <;> cases hstep
    exact h.push ‹_›
  | setTerminalError =>
    simp only [State.step] at hstep
    split at hstep <;> cases hstep
    next error left hworker =>
      refine h.congr rfl rfl rfl rfl rfl rfl rfl rfl (by simp [inHand, hworker]) fun _ => .inr (.inl ?_)
      cases s.status.terminalError <;> simp
  | notifyOne reader =>
    simp only [State.step] at hstep
    split at hstep
    next t hworker =>
      split at hstep <;> cases hstep
      exact h.goto.goes (by simp [inHand, State.goto, hworker]) (by simp) (by simp [State.goto, hworker])
    next hworker =>
      split at hstep <;> cases hstep
      exact h.goes (by simp [inHand, hworker]) (by simp) (by simp [hworker])
    · cases hstep
  | notifyAll =>
    simp only [State.step] at hstep
    split at hstep <;> cases hstep
    next left hworker =>
      have hwoken : s.wakeAll.Stored config := h.congr rfl rfl rfl rfl rfl rfl rfl rfl rfl id
      exact hwoken.goes (by simp [inHand, wakeAll, hworker]) (fun _ => by split <;> simp) (by
        simp [wakeAll, hworker])
  | shutdown =>
    simp only [State.step, runShutdown] at hstep
    split at hstep
    next => cases hstep; exact h.congr rfl rfl rfl rfl rfl rfl rfl rfl rfl fun _ => .inl rfl
    next => cases hstep; exact h.congr rfl rfl rfl rfl rfl rfl rfl rfl rfl id
    next => cases hstep; exact h.congr rfl rfl rfl rfl rfl rfl rfl rfl rfl id
    next => split at hstep <;> cases hstep; exact h.congr rfl rfl rfl rfl rfl rfl rfl rfl rfl id
    next => cases hstep

-- ---------------------------------------------------------------------------
-- Wake-ups
-- ---------------------------------------------------------------------------

omit [DecidableEq ι] in
theorem not_waiting_wakeAll (s : State ι) (t : ι) : s.wakeAll.readers t ≠ .waiting := by
  unfold wakeAll
  dsimp only
  split
  · simp
  · assumption

theorem waiting_goto {pc : ReaderPc} {u : ι} (hpc : pc ≠ .waiting) (hu : (s.goto t pc).readers u = .waiting) :
    s.readers u = .waiting := by
  by_cases hut : u = t
  · subst hut
    exact absurd ((Function.update_self ..).symm.trans hu) hpc
  · exact (Function.update_of_ne hut ..).symm.trans hu

variable [Fintype ι]

/-- The readers that are woken, and the one that is about to be. -/
def wakeUps (s : State ι) : Nat := census ReaderPc.wakes s.readers + if s.worker = .pushed then 1 else 0

/-- While a reader waits, there is a wake-up for every payload and for the end. -/
structure Awake (s : State ι) : Prop where
  served : ∀ t, s.readers t = .waiting → s.queue.length ≤ s.wakeUps
  failed : ∀ t, s.readers t = .waiting → s.status.terminalError.isSome = true → ∃ left, s.worker = .failed left
  stopped : ∀ t, s.readers t = .waiting → s.stopping = true → s.shutdown = .stopping ∨ s.shutdown = .stored

omit [DecidableEq ι] in
/-- With nobody waiting there is nothing to lose. -/
theorem awake_of_none (h : ∀ t, s.readers t ≠ .waiting) : s.Awake :=
  ⟨fun t ht => absurd ht (h t), fun t ht => absurd ht (h t), fun t ht => absurd ht (h t)⟩

omit [DecidableEq ι] in
/-- The worker is not about to notify anybody. -/
theorem Awake.goes (h : s.Awake) (hpushed : s.worker ≠ .pushed) (hfailed : ∀ left, s.worker ≠ .failed left)
    (hreaders : s'.readers = s.readers) (hqueue : s'.queue = s.queue)
    (herror : s'.status.terminalError = s.status.terminalError) (hstopping : s'.stopping = s.stopping)
    (hshutdown : s'.shutdown = s.shutdown) : s'.Awake where
  served t ht := by
    have hserved := h.served t (hreaders ▸ ht)
    rw [wakeUps, if_neg hpushed] at hserved
    rw [hqueue, wakeUps, hreaders]
    omega
  failed t ht hs := by
    obtain ⟨left, hworker⟩ := h.failed t (hreaders ▸ ht) (herror ▸ hs)
    exact absurd hworker (hfailed left)
  stopped t ht hs := by
    rw [hshutdown]
    exact h.stopped t (hreaders ▸ ht) (hstopping ▸ hs)

/-- A reader that takes a payload may have been woken for it. -/
theorem Awake.await (h : s.Awake) : (s.await t).Awake := by
  unfold State.await
  split
  next payload queue hqueue =>
    have hcensus := census_update ReaderPc.wakes s.readers t .idle
    have hwakes : (s.readers t).wakes ≤ 1 := by cases s.readers t <;> simp [ReaderPc.wakes]
    refine ⟨fun u hu => ?_, fun u hu => h.failed u (waiting_goto (s := s) (by simp) hu),
      fun u hu => h.stopped u (waiting_goto (s := s) (by simp) hu)⟩
    have hserved := h.served u (waiting_goto (s := s) (by simp) hu)
    rw [hqueue, List.length_cons, wakeUps] at hserved
    change queue.length ≤ census ReaderPc.wakes (Function.update s.readers t .idle) + if s.worker =
      .pushed then 1 else 0
    change _ = _ + 0 at hcensus
    omega
  next hqueue =>
    have hempty : ∀ pc, (s.goto t pc).queue.length ≤ (s.goto t pc).wakeUps := fun pc => by
      change s.queue.length ≤ _
      simp [hqueue]
    split
    next habort =>
      exact ⟨fun u _ => hempty _, fun u hu => h.failed u (waiting_goto (by simp) hu),
        fun u hu => h.stopped u (waiting_goto (by simp) hu)⟩
    next hlive =>
      simp only [aborted, Bool.not_eq_true, Bool.or_eq_false_iff] at hlive
      refine ⟨fun u _ => hempty _, fun u _ herror => ?_, fun u _ hstop => ?_⟩
      · cases hlive.2.symm.trans herror
      · cases hlive.1.symm.trans hstop

omit [DecidableEq ι] in
theorem Awake.filter {message : Message} (h : s.Awake) (hworker : s.worker = .dispatches) :
    (s.filter config message).Awake := by
  have hgoes : ∀ {d : State ι}, d.readers = s.readers → d.queue = s.queue →
      d.status.terminalError = s.status.terminalError → d.stopping = s.stopping → d.shutdown =
        s.shutdown → d.Awake :=
    h.goes (by simp [hworker]) (by simp [hworker])
  unfold State.filter
  split
  · exact h
  · exact hgoes rfl rfl rfl rfl rfl
  · exact hgoes rfl rfl rfl rfl rfl
  · split
    · exact hgoes rfl rfl rfl rfl rfl
    · split <;> exact hgoes rfl rfl rfl rfl rfl

omit [DecidableEq ι] in
theorem Awake.push {copy : Copy} (h : s.Awake) (hworker : s.worker = .copies payload) :
    (s.push payload copy).Awake := by
  have hgoes : ∀ {d : State ι}, d.readers = s.readers → d.queue = s.queue →
      d.status.terminalError = s.status.terminalError → d.stopping = s.stopping → d.shutdown =
        s.shutdown → d.Awake :=
    h.goes (by simp [hworker]) (by simp [hworker])
  unfold State.push
  split
  · exact hgoes rfl rfl rfl rfl rfl
  · exact hgoes rfl rfl rfl rfl rfl
  · split
    · exact hgoes rfl rfl rfl rfl rfl
    · refine ⟨fun t ht => ?_, fun t ht herror => ?_, h.stopped⟩
      · have hserved := h.served t ht
        rw [wakeUps, if_neg (by simp [hworker])] at hserved
        change (s.queue ++ [payload]).length ≤ census ReaderPc.wakes s.readers + 1
        rw [List.length_append, List.length_singleton]
        omega
      · obtain ⟨left, hfailed⟩ := h.failed t ht herror
        cases hworker.symm.trans hfailed

/-- The reader that is notified is the one that was to be. -/
theorem Awake.notifyOne (h : s.Awake) (hworker : s.worker = .pushed) (ht : s.readers t = .waiting) :
    Awake { s.goto t .woken with worker := .dispatches } where
  served u hu := by
    have hserved := h.served u (waiting_goto (by simp) hu)
    have hcensus := census_update ReaderPc.wakes s.readers t .woken
    rw [wakeUps, if_pos hworker] at hserved
    rw [ht] at hcensus
    change s.queue.length ≤ census ReaderPc.wakes (Function.update s.readers t .woken) + 0
    change _ + 0 = _ + 1 at hcensus
    omega
  failed u hu herror := by
    obtain ⟨left, hfailed⟩ := h.failed u (waiting_goto (by simp) hu) herror
    cases hworker.symm.trans hfailed
  stopped u hu := h.stopped u (waiting_goto (by simp) hu)

theorem Awake.step {a : Action ι} (h : s.Awake) (hstep : s.step config a = some s') : s'.Awake := by
  cases a with
  | read t | recheck t =>
    simp only [State.step] at hstep
    split at hstep <;> cases hstep
    exact h.await
  | spuriousWakeUp t =>
    simp only [State.step] at hstep
    split at hstep <;> cases hstep
    next hpc =>
      refine ⟨fun u hu => ?_, fun u hu => h.failed u (waiting_goto (by simp) hu),
        fun u hu => h.stopped u (waiting_goto (by simp) hu)⟩
      have hserved := h.served u (waiting_goto (by simp) hu)
      have hcensus := census_update ReaderPc.wakes s.readers t .woken
      rw [hpc] at hcensus
      change _ + 0 = _ + 1 at hcensus
      change s.queue.length ≤ census ReaderPc.wakes (Function.update s.readers t .woken) +
        if s.worker = .pushed then 1 else 0
      rw [wakeUps] at hserved
      omega
  | loop =>
    simp only [State.step] at hstep
    split at hstep <;> cases hstep
    next hworker => exact h.goes (by simp [hworker]) (by simp [hworker]) rfl rfl rfl rfl rfl
  | filter message =>
    simp only [State.step] at hstep
    split at hstep <;> cases hstep
    exact h.filter ‹_›
  | dispatched connected =>
    simp only [State.step] at hstep
    split at hstep <;> cases hstep
    next hworker => exact h.goes (by simp [hworker]) (by simp [hworker]) rfl rfl rfl rfl rfl
  | push copy =>
    simp only [State.step] at hstep
    split at hstep <;> cases hstep
    exact h.push ‹_›
  | setTerminalError =>
    simp only [State.step] at hstep
    split at hstep <;> cases hstep
    next error left hworker =>
      refine ⟨fun t ht => ?_, fun t ht _ => ⟨left, rfl⟩, h.stopped⟩
      have hserved := h.served t ht
      rw [wakeUps, if_neg (by simp [hworker])] at hserved
      exact hserved
  | notifyOne reader =>
    simp only [State.step] at hstep
    split at hstep
    next t hworker =>
      split at hstep <;> cases hstep
      exact h.notifyOne hworker ‹_›
    next hworker =>
      split at hstep <;> cases hstep
      exact awake_of_none ‹_›
    · cases hstep
  | notifyAll =>
    simp only [State.step] at hstep
    split at hstep <;> cases hstep
    exact awake_of_none (not_waiting_wakeAll s)
  | shutdown =>
    simp only [State.step, runShutdown] at hstep
    split at hstep
    next => cases hstep; exact ⟨h.served, h.failed, fun _ _ _ => .inl rfl⟩
    next => cases hstep; exact ⟨h.served, h.failed, fun _ _ _ => .inr rfl⟩
    next => cases hstep; exact awake_of_none (not_waiting_wakeAll s)
    next hshutdown =>
      split at hstep <;> cases hstep
      refine ⟨h.served, h.failed, fun t ht hstop => ?_⟩
      rcases h.stopped t ht hstop with hs | hs <;> cases hshutdown.symm.trans hs
    next => cases hstep

-- ---------------------------------------------------------------------------
-- Every run
-- ---------------------------------------------------------------------------

/-- What is queued, read and counted. -/
structure Sound (config : Config) (s : State ι) : Prop where
  messages : s.queue.length ≤ config.maxQueuedMessages
  bounded : s.queuedBytes ≤ config.maxQueuedBytes
  bytes : s.queuedBytes = (s.queue.map List.length).sum
  underflow : s.underflow = false
  pending : s.status.pendingInputMessages = s.queue.length ∧ s.status.pendingInputBytes = s.queuedBytes
  -- The readers have the first of the payloads, each of them once and in order.
  order : s.received = s.taken ++ s.queue
  -- They are bodies of signals with the configured tuple, in the order of their arrival.
  bodies : s.received.Sublist (s.arrived.filterMap Message.body) ∧ ∀ message ∈ s.arrived,
    matchesTuple config message = true
  small : ∀ payload ∈ s.received, payload.length ≤ config.maxMessageBytes
  -- But for one that is being copied, every such signal is counted, or given up for a reason.
  counted : s.arrived.length = s.status.malformedReceived + s.status.oversizedReceived +
    s.status.inputQueueDrops +
    s.status.inputAllocationErrors + s.received.length + s.givenUp + s.inHand.length
  excused : s.givenUp ≠ 0 → s.Excused

omit [DecidableEq ι] [Fintype ι] in
theorem stored_initial (config : Config) : ({} : State ι).Stored config where
  bytes := rfl
  messages := Nat.zero_le _
  bounded := Nat.zero_le _
  underflow := rfl
  pendingMessages := rfl
  pendingBytes := rfl
  order := rfl
  counted := rfl
  small := List.forall_mem_nil _
  room := List.forall_mem_nil _
  arrived := rfl
  tuple := List.forall_mem_nil _
  bodies := List.Sublist.slnil
  excused given := absurd rfl given

theorem input_sound (run : Reaches (State.step config) ({} : State ι) s) : s.Sound config := by
  have stored : s.Stored config := run.invariant (stored_initial config) fun h _ hstep => h.step hstep
  exact {
    messages := stored.messages
    bounded := stored.bounded
    bytes := stored.bytes
    underflow := stored.underflow
    pending := ⟨stored.pendingMessages, stored.pendingBytes⟩
    order := stored.order
    bodies := ⟨(List.sublist_append_left ..).trans stored.bodies, stored.tuple⟩
    small := stored.small
    counted := stored.counted ▸ stored.arrived
    excused := stored.excused }

/-- No wake-up is lost: with none under way, a reader waits only for an empty queue, without an
error or a shutdown. -/
theorem input_awake (run : Reaches (State.step config) ({} : State ι) s) (hreaders : ∀ t, s.readers t ≠ .woken)
    (hworker : s.worker ≠ .pushed ∧ ∀ left, s.worker ≠ .failed left)
    (hshutdown : s.shutdown ≠ .stopping ∧ s.shutdown ≠ .stored) (t : ι) (ht : s.readers t = .waiting) :
    s.queue = [] ∧ s.status.terminalError = none ∧ s.stopping = false := by
  have awake : s.Awake := run.invariant (awake_of_none (by simp)) fun h _ hstep => h.step hstep
  have hnone : census ReaderPc.wakes s.readers = 0 := Finset.sum_eq_zero fun u _ => by
    cases hu : s.readers u with
    | woken => exact absurd hu (hreaders u)
    | _ => rfl
  refine ⟨?_, ?_, ?_⟩
  · have hserved := awake.served t ht
    rw [wakeUps, hnone, if_neg hworker.1] at hserved
    exact List.eq_nil_of_length_eq_zero (Nat.le_zero.mp hserved)
  · by_contra herror
    obtain ⟨left, hfailed⟩ := awake.failed t ht (Option.isSome_iff_ne_none.mpr herror)
    exact hworker.2 left hfailed
  · by_contra hstop
    rcases awake.stopped t ht (by simpa using hstop) with hs | hs
    · exact hshutdown.1 hs
    · exact hshutdown.2 hs

def limits : Config where
  maxMessageBytes := 2
  maxQueuedBytes := 2
  maxQueuedMessages := 1
  signalPath := "/dmn"
  signalInterface := "dmn.Bytes"
  signalMember := "Data"

def signal (body : Payload) : Message := ⟨true, some "/dmn", some "dmn.Bytes", some "Data", some "ay",
    some body⟩

/-- Two readers wait; the second one is woken, and reads. Of the signals that follow, one is too
long and one malformed. -/
def twoReaders : List (Action (Fin 2)) :=
  [.read 0, .read 1, .loop, .filter (signal [1]), .push .done, .notifyOne (some 1), .recheck 1,
    .filter (signal [1, 2, 3]),
    .filter { signal [2] with signature := some "s" }, .dispatched true]

theorem input_sound_twoReaders : ((exec (step limits) ({} : State (Fin 2)) twoReaders).getD {}).Sound limits :=
  input_sound (.of_isSome twoReaders (by decide +kernel))

theorem input_awake_twoReaders : ((exec (step limits) ({} : State (Fin 2)) twoReaders).getD {}).queue = [] ∧
    ((exec (step limits) ({} : State (Fin 2)) twoReaders).getD {}).status.terminalError = none ∧
      ((exec (step limits) ({} : State (Fin 2)) twoReaders).getD {}).stopping = false :=
  input_awake (.of_isSome twoReaders (by decide +kernel)) (by decide +kernel) (by decide +kernel)
    (by decide +kernel) 0 (by decide +kernel)

example : (exec (step limits) ({} : State (Fin 2)) twoReaders).map (fun s => (s.taken, s.readers 0)) =
    some ([[1]], .waiting) := by decide +kernel

end State
end Dmn.Dbus.Input
