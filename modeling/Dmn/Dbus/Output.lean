import Dmn.Lib.Transition
import Mathlib

/-!
# The bounded output of the D-Bus endpoint

`Dmn_DbusOutput` under any schedule: any number of threads that write, the send worker, and the one
call of `shutdown` that counts. A section under `m_mutex` is one step, a call into libdbus is one,
and so is a `notify_all` outside of the mutex. `m_space` is the set of the writers that wait.
-/

namespace Dmn.Dbus.Output

open Lib

/-- `std::string` -/
abbrev Payload := List UInt8

structure Config where
  maxMessageBytes : Nat
  maxQueuedBytes : Nat
  maxQueuedMessages : Nat

/-- What a worker error is about. -/
inductive ErrorCode where
  | notEnoughMemory
  | connectionReset
  deriving DecidableEq

/-- Where a thread is that writes. -/
inductive WriterPc where
  | idle
  -- In the wait set of `m_space`.
  | waiting (ticket : Nat) (payload : Payload)
  -- Notified, and about to lock the mutex.
  | woken (ticket : Nat) (payload : Payload)
  deriving DecidableEq

/-- Where the send worker is. -/
inductive SenderPc where
  -- At its own wait.
  | waits
  | peeked (payload : Payload)
  -- libdbus has taken the signal.
  | sent
  -- About to notify.
  | popped
  -- Before `dbus_connection_read_write_dispatch`.
  | pump
  -- In `setWorkerError`.
  | errored (error : ErrorCode)
  -- About to notify.
  | failed
  | ended
  deriving DecidableEq

/-- Where the call of `shutdown` is that goes through. -/
inductive ShutdownPc where
  | idle
  | stopping
  -- About to notify.
  | stored
  -- At `m_worker.wait()`.
  | joins
  | done
  deriving DecidableEq

structure State (ι : Type) where
  queue : List Payload := []
  pendingBytes : Nat := 0
  nextTicket : Nat := 0
  servingTicket : Nat := 0
  stopping : Bool := false
  workerStop : Bool := false
  terminalError : Option ErrorCode := none
  messagesWritten : Nat := 0
  messagesQueuedToLibdbus : Nat := 0
  writers : ι → WriterPc := fun _ => .idle
  sender : SenderPc := .waits
  shutdown : ShutdownPc := .idle
  -- `m_pending_bytes` has been made less than nothing, or an empty queue popped.
  underflow : Bool := false
  -- History: the payloads, in the order of their admission.
  admitted : List Payload := []
  -- History: the tickets of those that have waited.
  ticketed : List Nat := []
  -- History: the payloads that libdbus has taken.
  handed : List Payload := []

inductive Action (ι : Type) where
  -- `write`, up to its return or its wait.
  | write (t : ι) (payload : Payload)
  | spuriousWakeUp (t : ι)
  | recheck (t : ι)
  -- The first section of `sendLoop`; whether output stalls, the deadline has passed and the copy succeeds.
  | peek (stallOutput : Bool) (outgoingBytes : Nat) (late : Bool) (copied : Bool)
  -- `makeSignal` and `dbus_connection_send`.
  | send (succeeds : Bool)
  | pop
  | pump (succeeds : Bool)
  | setWorkerError
  -- The `notify_all` of the worker.
  | notify
  -- The next step of `shutdown`.
  | shutdown

namespace State

variable {ι : Type} [DecidableEq ι]

def goto (s : State ι) (t : ι) (pc : WriterPc) : State ι := { s with writers := Function.update s.writers t pc }

/-- `m_space.notify_all()` -/
def notifyAll (s : State ι) : State ι :=
  { s with
    writers := fun t => match s.writers t with
      | .waiting ticket payload => .woken ticket payload
      | pc => pc }

/-- `hasSpace` -/
def hasSpace (s : State ι) (config : Config) (size : Nat) : Bool :=
  decide (s.queue.length < config.maxQueuedMessages) && decide (size ≤ config.maxQueuedBytes - s.pendingBytes)

/-- Writers are turned away. -/
def aborted (s : State ι) : Bool := s.stopping || s.terminalError.isSome

/-- What a writer waits for. -/
def mayGo (s : State ι) (config : Config) (ticket : Nat) (payload : Payload) : Bool :=
  s.aborted || (ticket == s.servingTicket && s.hasSpace config payload.length)

/-- The rest of `write`: it throws, or the payload is admitted. -/
def finish (s : State ι) (t : ι) (payload : Payload) (ticket : Option Nat) : State ι :=
  if s.aborted then s.goto t .idle
  else
    { s with
      pendingBytes := s.pendingBytes + payload.length
      queue := s.queue ++ [payload]
      messagesWritten := s.messagesWritten + 1
      admitted := s.admitted ++ [payload]
      ticketed := s.ticketed ++ ticket.toList }.goto t .idle

/-- The loop of the wait, with the mutex. -/
def await (s : State ι) (config : Config) (t : ι) (ticket : Nat) (payload : Payload) : State ι :=
  if s.mayGo config ticket payload then
    { s with servingTicket := s.servingTicket + 1 }.notifyAll.finish t payload (some ticket)
  else s.goto t (.waiting ticket payload)

def write (s : State ι) (config : Config) (t : ι) (payload : Payload) : State ι :=
  if config.maxMessageBytes < payload.length then s
  else if s.aborted = false ∧ (s.nextTicket ≠ s.servingTicket ∨ s.hasSpace config payload.length = false) then
    { s with nextTicket := s.nextTicket + 1 }.await config t s.nextTicket payload
  else s.finish t payload none

def peek (s : State ι) (config : Config) (stallOutput : Bool) (outgoingBytes : Nat) (late copied : Bool) :
    State ι :=
  if s.workerStop ∧ (s.queue = [] ∨ late) then { s with sender := .ended }
  else
    match s.queue with
    | payload :: _ =>
      if stallOutput = false ∧ outgoingBytes < config.maxQueuedBytes then
        { s with sender := if copied then .peeked payload else .errored .notEnoughMemory }
      else { s with sender := .pump }
    | [] => { s with sender := .pump }

def pop (s : State ι) : State ι :=
  match s.queue with
  | payload :: queue =>
    { s with
      queue
      pendingBytes := s.pendingBytes - payload.length
      underflow := s.underflow || decide (s.pendingBytes < payload.length)
      messagesQueuedToLibdbus := s.messagesQueuedToLibdbus + 1
      sender := .popped }
  | [] => { s with underflow := true }

def runShutdown (s : State ι) : Option (State ι) :=
  match s.shutdown with
  | .idle => some { s with stopping := true, shutdown := .stopping }
  | .stopping => some { s with workerStop := true, shutdown := .stored }
  | .stored => some { s.notifyAll with shutdown := .joins }
  | .joins =>
    match s.sender with
    | .ended => some { s with shutdown := .done }
    | _ => none
  | .done => none

def step (config : Config) (s : State ι) : Action ι → Option (State ι)
  | .write t payload =>
    match s.writers t with
    | .idle => some (s.write config t payload)
    | _ => none
  | .spuriousWakeUp t =>
    match s.writers t with
    | .waiting ticket payload => some (s.goto t (.woken ticket payload))
    | _ => none
  | .recheck t =>
    match s.writers t with
    | .woken ticket payload => some (s.await config t ticket payload)
    | _ => none
  | .peek stallOutput outgoingBytes late copied =>
    match s.sender with
    | .waits => some (s.peek config stallOutput outgoingBytes late copied)
    | _ => none
  | .send succeeds =>
    match s.sender with
    | .peeked payload =>
      some (if succeeds then { s with handed := s.handed ++ [payload], sender := .sent }
        else { s with sender := .errored .notEnoughMemory })
    | _ => none
  | .pop =>
    match s.sender with
    | .sent => some s.pop
    | _ => none
  | .pump succeeds =>
    match s.sender with
    | .pump => some { s with sender := if succeeds then .waits else .errored .connectionReset }
    | _ => none
  | .setWorkerError =>
    match s.sender with
    | .errored error => some { s with terminalError := s.terminalError.or (some error), sender := .failed }
    | _ => none
  | .notify =>
    match s.sender with
    | .popped => some { s.notifyAll with sender := .pump }
    | .failed => some { s.notifyAll with sender := .ended }
    | _ => none
  | .shutdown => s.runShutdown

-- ---------------------------------------------------------------------------
-- The queue
-- ---------------------------------------------------------------------------

variable {config : Config} {s s' : State ι} {t : ι} {payload : Payload} {ticket : Option Nat} {k : Nat}

/-- What libdbus has taken and what is queued, against what was admitted. -/
def Order (s : State ι) : Prop :=
  match s.sender with
  | .peeked payload => s.admitted = s.handed ++ s.queue ∧ ∃ rest, s.queue = payload :: rest
  | .sent => ∃ done payload rest, s.queue = payload :: rest ∧ s.handed = done ++ [payload] ∧
      s.admitted = done ++ s.queue
  | _ => s.admitted = s.handed ++ s.queue

structure Stored (config : Config) (s : State ι) : Prop where
  bytes : s.pendingBytes = (s.queue.map List.length).sum
  messages : s.queue.length ≤ config.maxQueuedMessages
  bounded : s.pendingBytes ≤ config.maxQueuedBytes
  underflow : s.underflow = false
  counted : s.messagesWritten = s.messagesQueuedToLibdbus + s.queue.length
  order : s.Order

omit [DecidableEq ι] in
theorem order_iff_of_waits (hpeeked : ∀ payload, s.sender ≠ .peeked payload) (hsent : s.sender ≠ .sent) :
    s.Order ↔ s.admitted = s.handed ++ s.queue := by
  unfold Order
  split
  · exact absurd ‹_› (hpeeked _)
  · exact absurd ‹_› hsent
  · exact .rfl

omit [DecidableEq ι] in
/-- More is admitted behind what is there. -/
theorem Order.append (h : s.Order) (payload : Payload) (hsender : s'.sender = s.sender)
    (hqueue : s'.queue = s.queue ++ [payload]) (hadmitted : s'.admitted = s.admitted ++ [payload])
    (hhanded : s'.handed = s.handed) : s'.Order := by
  unfold Order at h ⊢
  rw [hsender, hqueue, hadmitted, hhanded]
  split at h
  · obtain ⟨hsplit, rest, hrest⟩ := h
    exact ⟨by rw [hsplit, List.append_assoc], rest ++ [payload], by rw [hrest]; rfl⟩
  · obtain ⟨done, first, rest, hrest, hdone, hsplit⟩ := h
    exact ⟨done, first, rest ++ [payload], by rw [hrest]; rfl, hdone, by rw [hsplit, List.append_assoc]⟩
  · rw [h, List.append_assoc]

omit [DecidableEq ι] in
/-- Only the writers, the tickets and the flags change. -/
theorem Stored.congr (h : s.Stored config) (hqueue : s'.queue = s.queue)
    (hpending : s'.pendingBytes = s.pendingBytes)
    (hunderflow : s'.underflow = s.underflow) (hwritten : s'.messagesWritten = s.messagesWritten)
    (hqueued : s'.messagesQueuedToLibdbus = s.messagesQueuedToLibdbus) (horder : s'.Order) :
    s'.Stored config where
  bytes := by rw [hpending, hqueue]; exact h.bytes
  messages := by rw [hqueue]; exact h.messages
  bounded := by rw [hpending]; exact h.bounded
  underflow := by rw [hunderflow]; exact h.underflow
  counted := by rw [hwritten, hqueued, hqueue]; exact h.counted
  order := horder

theorem Stored.finish (h : s.Stored config)
    (hspace : s.aborted = false → s.hasSpace config payload.length = true) :
    (s.finish t payload ticket).Stored config := by
  unfold State.finish
  split
  · exact h.congr rfl rfl rfl rfl rfl h.order
  next habort =>
    have hspace := hspace (by simpa using habort)
    simp only [hasSpace, Bool.and_eq_true, decide_eq_true_eq] at hspace
    have hbounded := h.bounded
    exact {
      bytes := by
        change s.pendingBytes + payload.length = ((s.queue ++ [payload]).map List.length).sum
        simp [h.bytes]
      messages := by
        change (s.queue ++ [payload]).length ≤ _
        simp only [List.length_append, List.length_singleton]
        omega
      bounded := by
        change s.pendingBytes + payload.length ≤ _
        omega
      underflow := h.underflow
      counted := by
        change s.messagesWritten + 1 = s.messagesQueuedToLibdbus + (s.queue ++ [payload]).length
        simp only [List.length_append, List.length_singleton]
        have := h.counted
        omega
      order := h.order.append payload rfl rfl rfl rfl }

theorem Stored.await (h : s.Stored config) : (s.await config t k payload).Stored config := by
  unfold State.await
  split
  next hgo =>
    have hnotified : Stored config { s with servingTicket := s.servingTicket + 1 }.notifyAll :=
      h.congr rfl rfl rfl rfl rfl h.order
    refine hnotified.finish fun hlive => ?_
    change s.aborted = false at hlive
    simp only [mayGo, hlive, Bool.false_or, Bool.and_eq_true] at hgo
    exact hgo.2
  · exact h.congr rfl rfl rfl rfl rfl h.order

theorem Stored.write (h : s.Stored config) : (s.write config t payload).Stored config := by
  unfold State.write
  split
  · exact h
  split
  · have hticket : Stored config { s with nextTicket := s.nextTicket + 1 } :=
      h.congr rfl rfl rfl rfl rfl h.order
    exact hticket.await
  next hfast =>
    refine h.finish fun hlive => ?_
    by_contra hno
    exact hfast ⟨hlive, .inr (by simpa using hno)⟩

omit [DecidableEq ι] in
theorem Stored.peek {stallOutput late copied : Bool} {outgoingBytes : Nat} (h : s.Stored config)
    (hsender : s.sender = .waits) : (s.peek config stallOutput outgoingBytes late copied).Stored config := by
  have hall : s.admitted = s.handed ++ s.queue := by
    have horder := h.order
    rwa [order_iff_of_waits (by simp [hsender]) (by simp [hsender])] at horder
  unfold State.peek
  split
  · exact h.congr rfl rfl rfl rfl rfl hall
  · split
    next first rest hqueue =>
      split
      · refine h.congr rfl rfl rfl rfl rfl ?_
        cases copied
        · exact hall
        · exact ⟨hall, rest, hqueue⟩
      · exact h.congr rfl rfl rfl rfl rfl hall
    · exact h.congr rfl rfl rfl rfl rfl hall

omit [DecidableEq ι] in
theorem Stored.pop (h : s.Stored config) (hsender : s.sender = .sent) : s.pop.Stored config := by
  have horder := h.order
  rw [Order, hsender] at horder
  obtain ⟨done, first, rest, hqueue, hdone, hsplit⟩ := horder
  have hbytes := h.bytes
  have hmessages := h.messages
  have hbounded := h.bounded
  have hcounted := h.counted
  rw [hqueue] at hbytes hmessages hcounted
  simp only [List.map_cons, List.sum_cons, List.length_cons] at hbytes hmessages hcounted
  unfold State.pop
  rw [hqueue]
  exact {
    bytes := by
      change s.pendingBytes - first.length = (rest.map List.length).sum
      omega
    messages := by
      change rest.length ≤ _
      omega
    bounded := by
      change s.pendingBytes - first.length ≤ _
      omega
    underflow := by
      change (s.underflow || decide (s.pendingBytes < first.length)) = false
      simp only [h.underflow, Bool.false_or, decide_eq_false_iff_not]
      omega
    counted := by
      change s.messagesWritten = s.messagesQueuedToLibdbus + 1 + rest.length
      omega
    order := by
      change s.admitted = s.handed ++ rest
      rw [hsplit, hdone, hqueue, List.append_assoc]
      rfl }

omit [DecidableEq ι] in
/-- The worker goes on without touching the queue. -/
theorem Stored.goes (h : s.Stored config) (hpeeked : ∀ payload, s.sender ≠ .peeked payload)
    (hsent : s.sender ≠ .sent) (hpeeked' : ∀ payload, s'.sender ≠ .peeked payload) (hsent' : s'.sender ≠ .sent)
    (hqueue : s'.queue = s.queue) (hpending : s'.pendingBytes = s.pendingBytes)
    (hunderflow : s'.underflow = s.underflow) (hwritten : s'.messagesWritten = s.messagesWritten)
    (hqueued : s'.messagesQueuedToLibdbus = s.messagesQueuedToLibdbus) (hadmitted : s'.admitted = s.admitted)
    (hhanded : s'.handed = s.handed) : s'.Stored config := by
  refine h.congr hqueue hpending hunderflow hwritten hqueued ?_
  rw [order_iff_of_waits hpeeked' hsent', hadmitted, hhanded, hqueue]
  exact (order_iff_of_waits hpeeked hsent).mp h.order

theorem Stored.step {a : Action ι} (h : s.Stored config) (hstep : s.step config a = some s') :
    s'.Stored config := by
  cases a with
  | write t payload =>
    simp only [State.step] at hstep
    split at hstep <;> cases hstep
    exact h.write
  | spuriousWakeUp t =>
    simp only [State.step] at hstep
    split at hstep <;> cases hstep
    exact h.congr rfl rfl rfl rfl rfl h.order
  | recheck t =>
    simp only [State.step] at hstep
    split at hstep <;> cases hstep
    exact h.await
  | peek stallOutput outgoingBytes late copied =>
    simp only [State.step] at hstep
    split at hstep <;> cases hstep
    exact h.peek ‹_›
  | send succeeds =>
    simp only [State.step] at hstep
    split at hstep <;> cases hstep
    next payload hsender =>
      have horder := h.order
      rw [Order, hsender] at horder
      obtain ⟨hall, rest, hqueue⟩ := horder
      split
      · exact h.congr rfl rfl rfl rfl rfl ⟨s.handed, payload, rest, hqueue, rfl, hall⟩
      · exact h.congr rfl rfl rfl rfl rfl hall
  | pop =>
    simp only [State.step] at hstep
    split at hstep <;> cases hstep
    exact h.pop ‹_›
  | pump succeeds =>
    simp only [State.step] at hstep
    split at hstep <;> cases hstep
    next hsender =>
      refine h.goes (by simp [hsender]) (by simp [hsender]) ?_ ?_ rfl rfl rfl rfl rfl rfl rfl <;>
        split <;> simp
  | setWorkerError =>
    simp only [State.step] at hstep
    split at hstep <;> cases hstep
    next hsender =>
      exact h.goes (by simp [hsender]) (by simp [hsender]) (by simp) (by simp) rfl rfl rfl rfl rfl rfl rfl
  | notify =>
    simp only [State.step] at hstep
    split at hstep <;> cases hstep
    next hsender =>
      exact h.goes (by simp [hsender]) (by simp [hsender]) (by simp) (by simp) rfl rfl rfl rfl rfl rfl rfl
    next hsender =>
      exact h.goes (by simp [hsender]) (by simp [hsender]) (by simp) (by simp) rfl rfl rfl rfl rfl rfl rfl
  | shutdown =>
    simp only [State.step, runShutdown] at hstep
    split at hstep
    all_goals try split at hstep
    all_goals cases hstep
    all_goals exact h.congr rfl rfl rfl rfl rfl h.order

-- ---------------------------------------------------------------------------
-- The tickets
-- ---------------------------------------------------------------------------

end State

def WriterPc.ticket : WriterPc → Option Nat
  | .idle => none
  | .waiting ticket _ | .woken ticket _ => some ticket

namespace State

variable {ι : Type} [DecidableEq ι] {config : Config} {s s' : State ι} {t : ι} {payload : Payload}
  {ticket : Option Nat} {k : Nat}

/-- The tickets from the served one on, while nobody is turned away. -/
structure Line (s : State ι) : Prop where
  range : ∀ t k, (s.writers t).ticket = some k → s.servingTicket ≤ k ∧ k < s.nextTicket
  distinct : ∀ t u k, (s.writers t).ticket = some k → (s.writers u).ticket = some k → t = u
  bound : s.servingTicket ≤ s.nextTicket
  served : s.ticketed = List.range s.servingTicket

structure Queued (s : State ι) : Prop where
  line : s.aborted = false → s.Line
  order : ∃ k, s.ticketed = List.range k

omit [DecidableEq ι] in
/-- No ticket is given or done with. -/
theorem Queued.congr (h : s.Queued) (htickets : ∀ t, (s'.writers t).ticket = (s.writers t).ticket)
    (haborted : s'.aborted = false → s.aborted = false) (hnext : s'.nextTicket = s.nextTicket)
    (hserving : s'.servingTicket = s.servingTicket) (hticketed : s'.ticketed = s.ticketed) : s'.Queued where
  line hlive := by
    obtain ⟨range, distinct, bound, served⟩ := h.line (haborted hlive)
    refine ⟨fun t k ht => ?_, fun t u k ht hu => ?_, ?_, ?_⟩
    · rw [htickets] at ht
      rw [hserving, hnext]
      exact range t k ht
    · rw [htickets] at ht hu
      exact distinct t u k ht hu
    · rw [hserving, hnext]
      exact bound
    · rw [hticketed, hserving, served]
  order := by rw [hticketed]; exact h.order

omit [DecidableEq ι] in
theorem ticket_notifyAll (s : State ι) (t : ι) : (s.notifyAll.writers t).ticket = (s.writers t).ticket := by
  unfold notifyAll
  dsimp only
  split <;> simp [WriterPc.ticket, *]

theorem Queued.goto {pc : WriterPc} (h : s.Queued) (hticket : pc.ticket = (s.writers t).ticket) :
    (s.goto t pc).Queued := by
  refine h.congr (fun u => ?_) id rfl rfl rfl
  by_cases hu : u = t
  · subst hu
    simp [State.goto, hticket]
  · simp [State.goto, hu]

omit [DecidableEq ι] in
/-- Once it is turned away, a writer does not count. -/
theorem Queued.turnedAway (h : s.Queued) (haborted : s'.aborted = true) (hticketed : s'.ticketed = s.ticketed) :
    s'.Queued where
  line hlive := by rw [haborted] at hlive; cases hlive
  order := by rw [hticketed]; exact h.order

/-- The first in line goes, or waits on. -/
theorem Queued.await (h : s.Queued) (hticket : (s.writers t).ticket = some k) :
    (s.await config t k payload).Queued := by
  unfold State.await
  split
  next hgo =>
    unfold State.finish
    split
    next habort => exact h.turnedAway habort rfl
    next hlive =>
      have hlive : s.aborted = false := Bool.eq_false_iff.mpr hlive
      simp only [mayGo, hlive, Bool.false_or, Bool.and_eq_true, beq_iff_eq] at hgo
      obtain ⟨rfl, -⟩ := hgo
      obtain ⟨range, distinct, -, served⟩ := h.line hlive
      have hserved : s.ticketed ++ [s.servingTicket] = List.range (s.servingTicket + 1) := by
        rw [served, List.range_succ]
      -- the others keep their tickets, which are later ones
      have hother : ∀ u k,
        (Function.update ({ s with servingTicket := s.servingTicket + 1 }.notifyAll.writers) t
          .idle u).ticket = some k → u ≠ t ∧ (s.writers u).ticket = some k := by
        intro u k hu
        by_cases hut : u = t
        · subst hut
          rw [Function.update_self] at hu
          cases hu
        · rw [Function.update_of_ne hut, ticket_notifyAll] at hu
          exact ⟨hut, hu⟩
      refine ⟨fun _ => ⟨fun u k hu => ?_, fun u v k hu hv => ?_, (range t _ hticket).2, hserved⟩, _, hserved⟩
      · obtain ⟨hut, hu⟩ := hother u k hu
        obtain ⟨hle, hlt⟩ := range u k hu
        refine ⟨Nat.lt_of_le_of_ne hle fun heq => hut ?_, hlt⟩
        exact distinct u t k hu (heq ▸ hticket)
      · exact distinct u v k (hother u k hu).2 (hother v k hv).2
  next => exact h.goto hticket.symm

/-- A new ticket is not the one that may go. -/
theorem await_newTicket (hlive : s.aborted = false)
    (hwait : s.nextTicket ≠ s.servingTicket ∨ s.hasSpace config payload.length = false) :
    { s with nextTicket := s.nextTicket + 1 }.await config t s.nextTicket payload =
      { s with nextTicket := s.nextTicket + 1 }.goto t (.waiting s.nextTicket payload) := by
  have hno : mayGo { s with nextTicket := s.nextTicket + 1 } config s.nextTicket payload = false := by
    change (s.aborted || (s.nextTicket == s.servingTicket && s.hasSpace config payload.length)) = false
    rw [hlive]
    rcases hwait with hne | hfull
    · simp [hne]
    · simp [hfull]
  unfold State.await
  rw [if_neg (by simp [hno])]

theorem Queued.write (h : s.Queued) (hidle : s.writers t = .idle) : (s.write config t payload).Queued := by
  unfold State.write
  split
  · exact h
  split
  next hwait =>
    obtain ⟨hlive, hwait⟩ := hwait
    rw [await_newTicket hlive hwait]
    obtain ⟨range, distinct, bound, served⟩ := h.line hlive
    have hnone : (s.writers t).ticket = none := by rw [hidle]; rfl
    have hticket : ∀ u k, (Function.update s.writers t (.waiting s.nextTicket payload) u).ticket = some k →
        u = t ∧ k = s.nextTicket ∨ u ≠ t ∧ (s.writers u).ticket = some k := by
      intro u k hu
      by_cases hut : u = t
      · subst hut
        rw [Function.update_self] at hu
        exact .inl ⟨rfl, (Option.some.inj hu).symm⟩
      · rw [Function.update_of_ne hut] at hu
        exact .inr ⟨hut, hu⟩
    refine ⟨fun _ => ⟨fun u k hu => ?_, fun u v k hu hv => ?_, Nat.le_succ_of_le bound, served⟩, h.order⟩
    · rcases hticket u k hu with ⟨-, rfl⟩ | ⟨-, hold⟩
      · exact ⟨bound, Nat.lt_succ_self _⟩
      · exact ⟨(range u k hold).1, Nat.lt_succ_of_lt (range u k hold).2⟩
    · rcases hticket u k hu with ⟨hut, hk⟩ | ⟨-, hold⟩ <;> rcases hticket v k hv with ⟨hvt, hk'⟩ | ⟨-, hold'⟩
      · exact hut.trans hvt.symm
      · exact absurd (hk ▸ (range v k hold').2) (Nat.lt_irrefl _)
      · exact absurd (hk' ▸ (range u k hold).2) (Nat.lt_irrefl _)
      · exact distinct u v k hold hold'
  next =>
    unfold State.finish
    split
    · exact h.goto (by rw [hidle])
    next =>
      have hgone : (s.goto t .idle).Queued := h.goto (by rw [hidle])
      exact hgone.congr (fun _ => rfl) id rfl rfl (List.append_nil _)

theorem Queued.step {a : Action ι} (h : s.Queued) (hstep : s.step config a = some s') : s'.Queued := by
  cases a with
  | write t payload =>
    simp only [State.step] at hstep
    split at hstep <;> cases hstep
    exact h.write ‹_›
  | spuriousWakeUp t =>
    simp only [State.step] at hstep
    split at hstep <;> cases hstep
    next hw => exact h.goto (by rw [hw]; rfl)
  | recheck t =>
    simp only [State.step] at hstep
    split at hstep <;> cases hstep
    next hw => exact h.await (by rw [hw]; rfl)
  | peek stallOutput outgoingBytes late copied =>
    simp only [State.step] at hstep
    split at hstep <;> cases hstep
    unfold State.peek
    split
    · exact h.congr (fun _ => rfl) id rfl rfl rfl
    · split
      · split <;> exact h.congr (fun _ => rfl) id rfl rfl rfl
      · exact h.congr (fun _ => rfl) id rfl rfl rfl
  | send succeeds =>
    simp only [State.step] at hstep
    split at hstep <;> cases hstep
    split <;> exact h.congr (fun _ => rfl) id rfl rfl rfl
  | pop =>
    simp only [State.step] at hstep
    split at hstep <;> cases hstep
    unfold State.pop
    split <;> exact h.congr (fun _ => rfl) id rfl rfl rfl
  | pump succeeds =>
    simp only [State.step] at hstep
    split at hstep <;> cases hstep
    exact h.congr (fun _ => rfl) id rfl rfl rfl
  | setWorkerError =>
    simp only [State.step] at hstep
    split at hstep <;> cases hstep
    refine h.turnedAway ?_ rfl
    cases s.terminalError <;> simp [aborted]
  | notify =>
    simp only [State.step] at hstep
    split at hstep <;> cases hstep <;> exact h.congr (ticket_notifyAll s) id rfl rfl rfl
  | shutdown =>
    simp only [State.step, runShutdown] at hstep
    split at hstep
    next => cases hstep; exact h.turnedAway rfl rfl
    next => cases hstep; exact h.congr (fun _ => rfl) id rfl rfl rfl
    next => cases hstep; exact h.congr (ticket_notifyAll s) id rfl rfl rfl
    next => split at hstep <;> cases hstep; exact h.congr (fun _ => rfl) id rfl rfl rfl
    next => cases hstep

-- ---------------------------------------------------------------------------
-- Wake-ups
-- ---------------------------------------------------------------------------

/-- A `notify_all` is about to come. -/
def Notifying (s : State ι) : Prop :=
  s.sender = .popped ∨ s.sender = .failed ∨ s.shutdown = .stopping ∨ s.shutdown = .stored

/-- A writer that waits and may go is about to be notified. -/
def Awake (config : Config) (s : State ι) : Prop :=
  ∀ t k payload, s.writers t = .waiting k payload → s.mayGo config k payload = true → s.Notifying

omit [DecidableEq ι] in
theorem not_waiting_notifyAll (s : State ι) (t : ι) (k : Nat) (payload : Payload) :
    s.notifyAll.writers t ≠ .waiting k payload := by
  unfold notifyAll
  dsimp only
  split
  · simp
  · exact ‹∀ ticket payload, s.writers t = .waiting ticket payload → False› k payload

omit [DecidableEq ι] in
/-- Nobody new waits, and nobody who waits may go who could not before. -/
theorem Awake.congr (h : s.Awake config) (hwaiting : ∀ t k payload, s'.writers t = .waiting k payload →
      s.writers t = .waiting k payload)
    (hmayGo : ∀ k payload, s'.mayGo config k payload = true → s.mayGo config k payload = true)
    (hnotifying : s.Notifying → s'.Notifying) : s'.Awake config :=
  fun t k payload ht hgo => hnotifying (h t k payload (hwaiting t k payload ht) (hmayGo k payload hgo))

theorem waiting_goto_idle {pc : WriterPc} (hpc : ∀ k payload, pc ≠ .waiting k payload) :
    ∀ u k payload, (s.goto t pc).writers u = .waiting k payload → s.writers u = .waiting k payload := by
  intro u k payload hu
  by_cases hut : u = t
  · subst hut
    exact absurd ((Function.update_self ..).symm.trans hu) (hpc k payload)
  · exact (Function.update_of_ne hut ..).symm.trans hu

theorem writers_finish (s : State ι) (t : ι) (payload : Payload) (ticket : Option Nat) :
    (s.finish t payload ticket).writers = (s.goto t .idle).writers := by
  unfold State.finish
  split <;> rfl

theorem Awake.await (h : s.Awake config) : (s.await config t k payload).Awake config := by
  unfold State.await
  split
  · -- everybody has just been notified
    intro u k' payload' hu _
    rw [writers_finish] at hu
    exact absurd (waiting_goto_idle (by simp) u k' payload' hu) (not_waiting_notifyAll _ u k' payload')
  next hno =>
    intro u k' payload' hu hgo
    by_cases hut : u = t
    · subst hut
      obtain ⟨rfl, rfl⟩ := WriterPc.waiting.inj ((Function.update_self ..).symm.trans hu)
      exact absurd hgo hno
    · exact h u k' payload' ((Function.update_of_ne hut ..).symm.trans hu) hgo

theorem Awake.write (h : s.Awake config) (queued : s.Queued) :
    (s.write config t payload).Awake config := by
  unfold State.write
  split
  · exact h
  split
  · have hticket : Awake config { s with nextTicket := s.nextTicket + 1 } := h
    exact hticket.await
  next hfast =>
    unfold State.finish
    split
    · exact h.congr (waiting_goto_idle (by simp)) (fun _ _ => id) id
    next hlive =>
      have hlive : s.aborted = false := by simpa using hlive
      -- with the tickets all served, nobody waits
      have hserved : s.nextTicket = s.servingTicket := by
        by_contra hne
        exact hfast ⟨hlive, .inl hne⟩
      intro u k' payload' hu _
      have hu := waiting_goto_idle (s := s) (by simp) u k' payload' hu
      obtain ⟨hle, hlt⟩ := (queued.line hlive).range u k' (by rw [hu]; rfl)
      omega

theorem Awake.step {a : Action ι} (h : s.Awake config) (queued : s.Queued) (hstep : s.step config a = some s') :
    s'.Awake config := by
  -- a step of the worker that does not notify
  have hworker : ∀ {d : State ι}, d.writers = s.writers → (∀ k payload, d.mayGo config k payload =
    s.mayGo config k payload) →
      s.sender ≠ .popped → s.sender ≠ .failed → d.shutdown = s.shutdown → d.Awake config :=
    fun hwriters hmayGo hpopped hfailed hshutdown => by
      refine h.congr (fun t k payload ht => hwriters ▸ ht) (fun k payload hgo =>
        hmayGo k payload ▸ hgo) fun hnotify => ?_
      rcases hnotify with hn | hn | hn | hn
      · exact absurd hn hpopped
      · exact absurd hn hfailed
      · exact .inr (.inr (.inl (hshutdown.trans hn)))
      · exact .inr (.inr (.inr (hshutdown.trans hn)))
  cases a with
  | write t payload =>
    simp only [State.step] at hstep
    split at hstep <;> cases hstep
    exact h.write queued
  | spuriousWakeUp t =>
    simp only [State.step] at hstep
    split at hstep <;> cases hstep
    exact h.congr (waiting_goto_idle (by simp)) (fun _ _ => id) id
  | recheck t =>
    simp only [State.step] at hstep
    split at hstep <;> cases hstep
    exact h.await
  | peek stallOutput outgoingBytes late copied =>
    simp only [State.step] at hstep
    split at hstep <;> cases hstep
    next hs =>
      unfold State.peek
      split
      · exact hworker rfl (fun _ _ => rfl) (by simp [hs]) (by simp [hs]) rfl
      · split
        · split <;> exact hworker rfl (fun _ _ => rfl) (by simp [hs]) (by simp [hs]) rfl
        · exact hworker rfl (fun _ _ => rfl) (by simp [hs]) (by simp [hs]) rfl
  | send succeeds =>
    simp only [State.step] at hstep
    split at hstep <;> cases hstep
    next hs => split <;> exact hworker rfl (fun _ _ => rfl) (by simp [hs]) (by simp [hs]) rfl
  | pop =>
    simp only [State.step] at hstep
    split at hstep <;> cases hstep
    next hs =>
      unfold State.pop
      split
      · exact fun _ _ _ _ _ => .inl rfl
      · exact hworker rfl (fun _ _ => rfl) (by simp [hs]) (by simp [hs]) rfl
  | pump succeeds =>
    simp only [State.step] at hstep
    split at hstep <;> cases hstep
    next hs => exact hworker rfl (fun _ _ => rfl) (by simp [hs]) (by simp [hs]) rfl
  | setWorkerError =>
    simp only [State.step] at hstep
    split at hstep <;> cases hstep
    exact fun _ _ _ _ _ => .inr (.inl rfl)
  | notify =>
    simp only [State.step] at hstep
    split at hstep <;> cases hstep <;>
      exact fun t k payload ht _ => absurd ht (not_waiting_notifyAll s t k payload)
  | shutdown =>
    simp only [State.step, runShutdown] at hstep
    split at hstep
    next => cases hstep; exact fun _ _ _ _ _ => .inr (.inr (.inl rfl))
    next => cases hstep; exact fun _ _ _ _ _ => .inr (.inr (.inr rfl))
    next => cases hstep; exact fun t k payload ht _ => absurd ht (not_waiting_notifyAll s t k payload)
    next hs =>
      split at hstep <;> cases hstep
      next hended =>
        refine h.congr (fun _ _ _ => id) (fun _ _ => id) fun hnotify => ?_
        rcases hnotify with hn | hn | hn | hn
        · rw [hended] at hn; cases hn
        · rw [hended] at hn; cases hn
        · rw [hs] at hn; cases hn
        · rw [hs] at hn; cases hn
    next => cases hstep

-- ---------------------------------------------------------------------------
-- Every run
-- ---------------------------------------------------------------------------

/-- Who is admitted, and before whom. -/
def Fair (config : Config) (s : State ι) : Prop :=
  ∀ a s', s.step config a = some s' → s'.admitted ≠ s.admitted →
    (∃ t payload, a = .write t payload ∧ ∀ u, (s.writers u).ticket = none) ∨
    ∃ t k payload, a = .recheck t ∧ s.writers t = .woken k payload ∧
      ∀ u k', (s.writers u).ticket = some k' → k ≤ k'

theorem Queued.fair (h : s.Queued) : s.Fair config := by
  intro a s' hstep hadmits
  cases a with
  | write t payload =>
    simp only [State.step] at hstep
    split at hstep <;> cases hstep
    refine .inl ⟨t, payload, rfl, fun u => ?_⟩
    unfold State.write at hadmits
    split at hadmits
    · exact absurd rfl hadmits
    split at hadmits
    next hwait =>
      rw [await_newTicket hwait.1 hwait.2] at hadmits
      exact absurd rfl hadmits
    next hfast =>
      unfold State.finish at hadmits
      split at hadmits
      · exact absurd rfl hadmits
      next hlive =>
        have hlive : s.aborted = false := by simpa using hlive
        have hserved : s.nextTicket = s.servingTicket := by
          by_contra hne
          exact hfast ⟨hlive, .inl hne⟩
        rw [Option.eq_none_iff_forall_ne_some]
        intro k hu
        obtain ⟨hle, hlt⟩ := (h.line hlive).range u k hu
        omega
  | recheck t =>
    simp only [State.step] at hstep
    split at hstep <;> cases hstep
    next k payload hw =>
      refine .inr ⟨t, k, payload, rfl, hw, fun u k' hu => ?_⟩
      unfold State.await at hadmits
      split at hadmits
      next hgo =>
        unfold State.finish at hadmits
        split at hadmits
        · exact absurd rfl hadmits
        next hlive =>
          have hlive : s.aborted = false := Bool.eq_false_iff.mpr hlive
          simp only [mayGo, hlive, Bool.false_or, Bool.and_eq_true, beq_iff_eq] at hgo
          rw [hgo.1]
          exact ((h.line hlive).range u k' hu).1
      next => exact absurd rfl hadmits
  | peek stallOutput outgoingBytes late copied =>
    simp only [State.step] at hstep
    split at hstep <;> cases hstep
    unfold State.peek at hadmits
    split at hadmits
    · exact absurd rfl hadmits
    · split at hadmits
      · split at hadmits <;> exact absurd rfl hadmits
      · exact absurd rfl hadmits
  | send succeeds =>
    simp only [State.step] at hstep
    split at hstep <;> cases hstep
    split at hadmits <;> exact absurd rfl hadmits
  | pop =>
    simp only [State.step] at hstep
    split at hstep <;> cases hstep
    unfold State.pop at hadmits
    split at hadmits <;> exact absurd rfl hadmits
  | shutdown =>
    simp only [State.step, runShutdown] at hstep
    split at hstep
    all_goals try split at hstep
    all_goals cases hstep
    all_goals exact absurd rfl hadmits
  | spuriousWakeUp | pump | setWorkerError | notify =>
    simp only [State.step] at hstep
    split at hstep <;> cases hstep <;> exact absurd rfl hadmits

omit [DecidableEq ι] in
theorem Order.prefix_admitted (h : s.Order) : s.handed <+: s.admitted := by
  unfold Order at h
  split at h
  · rw [h.1]
    exact List.prefix_append ..
  · obtain ⟨done, payload, rest, hqueue, hhanded, hadmitted⟩ := h
    rw [hhanded, hadmitted, hqueue]
    exact ⟨rest, by simp⟩
  · rw [h]
    exact List.prefix_append ..

/-- The output is bounded, in order and awake. -/
structure Sound (config : Config) (s : State ι) : Prop where
  messages : s.queue.length ≤ config.maxQueuedMessages
  bounded : s.pendingBytes ≤ config.maxQueuedBytes
  bytes : s.pendingBytes = (s.queue.map List.length).sum
  underflow : s.underflow = false
  counted : s.messagesWritten = s.messagesQueuedToLibdbus + s.queue.length
  -- Those who have waited were admitted in the order of their tickets.
  tickets : ∃ k, s.ticketed = List.range k
  -- Nobody is admitted while an earlier one waits.
  fair : s.Fair config
  -- libdbus has taken the first of the admitted payloads, each of them once and in order.
  handed : s.handed <+: s.admitted
  -- No wake-up is lost.
  awake : s.sender = .waits ∨ s.sender = .ended → s.shutdown = .idle ∨ s.shutdown = .joins ∨
    s.shutdown = .done →
    ∀ t k payload, s.writers t = .waiting k payload → s.mayGo config k payload = false

omit [DecidableEq ι] in
theorem stored_initial (config : Config) : ({} : State ι).Stored config :=
  ⟨rfl, Nat.zero_le _, Nat.zero_le _, rfl, rfl, rfl⟩

omit [DecidableEq ι] in
theorem queued_initial : ({} : State ι).Queued :=
  ⟨fun _ => ⟨nofun, nofun, Nat.le_refl _, rfl⟩, 0, rfl⟩

/-- The queue takes one payload. The second writer to come waits, and so does the third, which is
woken first. -/
def oneSlot : List (Action (Fin 3)) :=
  [Action.write 0 [1], Action.write 1 [2, 2], Action.write 2 [3], Action.peek false 0 false true,
    Action.send true,
    Action.pop, Action.notify, Action.recheck 2, Action.recheck 1, Action.pump true]

example : (exec (State.step ⟨4, 4, 1⟩) ({} : State (Fin 3)) oneSlot).map
    (fun s => (s.handed, s.queue, s.ticketed, s.writers 2)) = some ([[1]], [[2, 2]], [0], .woken 1 [3]) := by
    decide

end State
end Dmn.Dbus.Output
