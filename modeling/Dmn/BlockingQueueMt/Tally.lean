import Dmn.BlockingQueueMt.WakeUp

/-!
# The accounts of the mutex queue

Every item that is pushed is taken once, in the order of the pushes, and the two counters tell how
many items are between. `waitForEmpty` asserts that they are equal after a wait that the shutdown
flag ends as well as an empty queue does.
-/

namespace Dmn.BlockingQueueMt

open Lib

variable {ι T : Type}

/-- The items that a reply hands over. -/
def Reply.got : Reply T → List T
  | .item ret => ret.toList
  | .items ret => ret
  | _ => []

namespace Pc

/-- Taken out of the queue and not returned yet. -/
def inHand : Pc T → List T
  | .notify _ reply | .leave reply => reply.got
  | _ => []

/-- A pop without a timeout goes on when its items are there, or after shutdown. -/
def Ready (queue : List T) (shutdownFlag : Bool) : Pc T → Prop
  | .take .one => queue ≠ [] ∨ shutdownFlag = true
  | .take (.many count timeout) => timeout ≤ 0 → count ≤ queue.length ∨ shutdownFlag = true
  | .relock wanted true => wanted.timed = true
  | _ => True

@[simp] theorem inHand_idle : (.idle : Pc T).inHand = [] := rfl
@[simp] theorem inHand_notify : (.notify empty reply : Pc T).inHand = reply.got := rfl

@[simp] theorem wakeEmpty_inHand (p : Pc T) : p.wakeEmpty.inHand = p.inHand := by
  cases p <;> rfl

@[simp] theorem wakeNotEmpty_inHand (p : Pc T) : p.wakeNotEmpty.inHand = p.inHand := by
  cases p <;> rfl

theorem wakeEmpty_ready {p : Pc T} {queue : List T} {flag : Bool} (h : p.Ready queue flag) :
    p.wakeEmpty.Ready queue flag := by
  cases p <;> exact h

theorem wakeNotEmpty_ready {p : Pc T} {queue : List T} {flag : Bool} (h : p.Ready queue flag) :
    p.wakeNotEmpty.Ready queue flag := by
  cases p with
  | waiting => trivial
  | _ => exact h

theorem ready_shutdown {p : Pc T} {queue : List T} {flag : Bool} (h : p.Ready queue flag) :
    p.Ready queue true := by
  cases p with
  | take wanted =>
    cases wanted with
    | one => exact .inr rfl
    | many count timeout => exact fun _ => .inr rfl
  | relock wanted timedOut => cases timedOut <;> exact h
  | _ => exact h

theorem ready_unlocked {p : Pc T} {queue queue' : List T} {flag flag' : Bool}
    (h : p.Ready queue flag) (free : p.holdsMutex = false) : p.Ready queue' flag' := by
  cases p with
  | take => cases free
  | relock wanted timedOut => cases timedOut <;> exact h
  | _ => trivial

end Pc

/-- The item that the next step puts into the queue. -/
def Pc.pushes : Pc T → List T
  | .lock (.push item) => [item]
  | _ => []

namespace State

/-- The items that the next step takes out of the queue. -/
def takesAt (s : State ι T) : Pc T → List T
  | .popFront _ => s.queue.take 1
  | .take .one => if s.shutdownFlag then [] else s.queue.take 1
  | .take (.many count _) => s.queue.take count
  | _ => []

/-- The next step ends a `waitForEmpty`, and its assertion fails. -/
def AssertsAt (s : State ι T) : Pc T → Prop
  | .emptyCheck => (s.queue = [] ∨ s.shutdownFlag = true) ∧ s.popCount ≠ s.pushCount
  | _ => False

end State

def Action.thread : Action ι T → ι
  | .call t _ | .run t | .notify t _ | .timeout t | .spuriousWakeUp t => t

/-- A state with the history of its queue. -/
structure Log (ι T : Type) where
  state : State ι T := {}
  -- In the order of the pushes.
  pushed : List T := []
  -- In the order of the pops, with the thread.
  taken : List (ι × T) := []

namespace State

variable {s : State ι T} {t : ι}

structure Held (s : State ι T) : Prop where
  mutex : Owned s.mutex fun t => (s.pc t).holdsMutex
  ready : ∀ t, (s.pc t).Ready s.queue s.shutdownFlag

theorem Held.empty : ({} : State ι T).Held where
  mutex t := by simp [Pc.holdsMutex]
  ready _ := trivial

theorem Held.notifyAllEmpty (h : s.Held) : s.notifyAllEmpty.Held where
  mutex := h.mutex.keep fun u => by simp [State.notifyAllEmpty]
  ready u := Pc.wakeEmpty_ready (h.ready u)

theorem Held.notifyAllNotEmpty (h : s.Held) : s.notifyAllNotEmpty.Held where
  mutex := h.mutex.keep fun u => by simp [State.notifyAllNotEmpty]
  ready u := Pc.wakeNotEmpty_ready (h.ready u)

theorem Held.others_free (h : s.Held) (hold : (s.pc t).holdsMutex) {u : ι} (hu : u ≠ t) :
    (s.pc u).holdsMutex = false := by
  by_contra hn
  exact hu (h.mutex.unique (by simpa using hn) hold)

end State

/-- What the entries of one thread say. -/
def entriesOf [DecidableEq ι] (t : ι) (log : List (ι × β)) : List β :=
  (log.filter fun e => e.1 = t).map (·.2)

section
variable [DecidableEq ι]

theorem entriesOf_append (t : ι) (log log' : List (ι × β)) :
    entriesOf t (log ++ log') = entriesOf t log ++ entriesOf t log' := by
  simp [entriesOf]

theorem entriesOf_self (t : ι) (l : List β) : entriesOf t (l.map (t, ·)) = l := by
  simp [entriesOf, List.filter_map, Function.comp_def]

theorem entriesOf_other {t u : ι} (h : u ≠ t) (l : List β) : entriesOf u (l.map (t, ·)) = [] := by
  simp [entriesOf, List.filter_map, Function.comp_def, h.symm]

namespace State

variable {s s' : State ι T} {t : ι} {p : Pc T}

/-- What a step does to the accounts. -/
structure Booked (s s' : State ι T) (t : ι) (pushes takes : List T) (asserts : Prop) : Prop where
  queue : s.queue ++ pushes = takes ++ s'.queue
  pushCount : s'.pushCount = s.pushCount + UInt64.ofNat pushes.length
  popCount : s'.popCount = s.popCount + UInt64.ofNat takes.length
  hand : ∃ replies : List (Reply T), s'.returned = s.returned ++ replies.map (t, ·) ∧
    replies.flatMap Reply.got ++ (s'.pc t).inHand = (s.pc t).inHand ++ takes
  others : ∀ u, u ≠ t → (s'.pc u).inHand = (s.pc u).inHand
  assertFailed : s'.assertFailed = true ↔ s.assertFailed = true ∨ asserts

omit [DecidableEq ι] in
/-- A thread moves, and nothing is booked. -/
theorem Booked.moves {asserts : Prop} (queue : s'.queue = s.queue)
    (pushCount : s'.pushCount = s.pushCount) (popCount : s'.popCount = s.popCount)
    (returned : s'.returned = s.returned) (failed : s'.assertFailed = s.assertFailed)
    (pc : ∀ u, (s'.pc u).inHand = (s.pc u).inHand) (never : ¬asserts) :
    Booked s s' t [] [] asserts where
  queue := by simp [queue]
  pushCount := by simp [pushCount]
  popCount := by simp [popCount]
  hand := ⟨[], by simp [returned], by simp [pc]⟩
  others u _ := pc u
  assertFailed := by simp [failed, never]

theorem inHand_goto (same : p.inHand = (s.pc t).inHand) (u : ι) :
    ((s.goto t p).pc u).inHand = (s.pc u).inHand := by
  by_cases hu : u = t
  · subst hu
    simpa using same
  · simp [hu]

theorem inHand_notifyAllEmpty (same : p.inHand = (s.pc t).inHand) (u : ι) :
    ((s.notifyAllEmpty.goto t p).pc u).inHand = (s.pc u).inHand := by
  rw [inHand_goto (same.trans (Pc.wakeEmpty_inHand (s.pc t)).symm) u]
  exact Pc.wakeEmpty_inHand (s.pc u)

/-- A reply that hands over what is in hand, or nothing. -/
theorem Booked.returns {reply : Reply T} {asserts : Prop} (queue : s'.queue = s.queue)
    (pushCount : s'.pushCount = s.pushCount) (popCount : s'.popCount = s.popCount)
    (returned : s'.returned = s.returned ++ [(t, reply)])
    (failed : s'.assertFailed = true ↔ s.assertFailed = true ∨ asserts)
    (pc : s'.pc = Function.update s.pc t .idle) (got : reply.got = (s.pc t).inHand) :
    Booked s s' t [] [] asserts where
  queue := by simp [queue]
  pushCount := by simp [pushCount]
  popCount := by simp [popCount]
  hand := ⟨[reply], by simp [returned], by simp [pc, got]⟩
  others u hu := by simp [pc, hu]
  assertFailed := failed

/-- The end of a pop. -/
theorem Booked.takes {reply : Reply T} {rest taken : List T} {popCount : UInt64} {asserts : Prop}
    (queue : s.queue = taken ++ rest) (pops : popCount = s.popCount + UInt64.ofNat taken.length)
    (empty : (s.pc t).inHand = []) (got : reply.got = taken) (never : ¬asserts) :
    Booked s (({ s with queue := rest, popCount := popCount } : State ι T).finish t reply) t []
      taken asserts where
  queue := by simp [queue, finish, goto, unlock]
  pushCount := by simp [finish, goto, unlock]
  popCount := pops
  hand := ⟨[], by simp [finish, goto, unlock], by simp [finish, goto, unlock, empty, got]⟩
  others u hu := by simp [finish, goto, unlock, hu]
  assertFailed := by simp [finish, goto, unlock, never]

theorem Booked.pushes {item : T} {asserts : Prop} (empty : (s.pc t).inHand = [])
    (never : ¬asserts) :
    Booked s (({ s with queue := s.queue ++ [item], pushCount := s.pushCount + 1 } :
      State ι T).goto t (.notify false .pushed)) t [item] [] asserts where
  queue := by simp [goto]
  pushCount := rfl
  popCount := by simp [goto]
  hand := ⟨[], by simp [goto], by simp [goto, empty, Reply.got]⟩
  others u hu := by simp [goto, hu]
  assertFailed := by simp [goto, never]

theorem itemReply_got (wait : Bool) (ret : Option T) :
    (itemReply wait ret).got = ret.toList := by
  cases ret <;> cases wait <;> rfl

theorem Booked.refuse {call : Guarded T} {asserts : Prop} (inflightCount : Nat)
    (empty : (s.pc t).inHand = []) (never : ¬asserts) :
    Booked s (({ s with inflightCount := inflightCount } : State ι T).refuse t call) t [] []
      asserts := by
  cases call with
  | push item | popMany count timeout | popOptional wait =>
    exact .returns (t := t) rfl rfl rfl rfl (by simp [State.refuse, return_, goto, unlock, never]) rfl
      empty.symm

theorem booked_run (ran : s.run t = some s') :
    Booked s s' t (s.pc t).pushes (s.takesAt (s.pc t)) (s.AssertsAt (s.pc t)) := by
  unfold State.run at ran
  cases pc : s.pc t with
  | idle | waiting | emptyWaiting | crashed => simp [pc] at ran
  | gateTest call =>
    simp only [pc] at ran
    split at ran
    · obtain rfl := Option.some.inj ran
      exact .refuse s.inflightCount (by rw [pc]; rfl) nofun
    · obtain rfl := Option.some.inj ran
      exact .moves rfl rfl rfl rfl rfl (inHand_goto (congrArg Pc.inHand pc).symm) nofun
  | gateCount call =>
    simp only [pc] at ran
    obtain rfl := Option.some.inj ran
    exact .moves rfl rfl rfl rfl rfl (inHand_goto (congrArg Pc.inHand pc).symm) nofun
  | gateRetest call =>
    simp only [pc] at ran
    obtain rfl := Option.some.inj ran
    refine .moves rfl rfl rfl rfl rfl (inHand_goto ?_) nofun
    rw [pc]
    split
    · rfl
    · cases call <;> rfl
  | gateUndo call =>
    simp only [pc] at ran
    obtain rfl := Option.some.inj ran
    exact .refuse _ (by rw [pc]; rfl) nofun
  | lock call =>
    simp only [pc] at ran
    split at ran
    · cases ran
    · obtain rfl := Option.some.inj ran
      cases call with
      | push item =>
        exact .pushes (by rw [pc]; rfl) nofun
      | popOptional wait | popMany count timeout =>
        exact .moves rfl rfl rfl rfl rfl (inHand_goto (congrArg Pc.inHand pc).symm) nofun
  | popFront wait =>
    simp only [pc] at ran
    obtain rfl := Option.some.inj ran
    have empty : (s.pc t).inHand = [] := by rw [pc]; rfl
    have takes : s.takesAt (.popFront wait) = s.queue.take 1 := rfl
    rw [takes]
    cases queue : s.queue with
    | nil =>
      cases wait with
      | true => exact .moves rfl rfl rfl rfl rfl (inHand_goto empty.symm) nofun
      | false => exact .takes (by simp [queue]) (by simp) empty rfl nofun
    | cons x rest => exact .takes (by simp [queue]) rfl empty (itemReply_got ..) nofun
  | check wanted woken =>
    simp only [pc] at ran
    obtain rfl := Option.some.inj ran
    refine .moves rfl rfl rfl rfl rfl (inHand_goto ?_) nofun
    rw [pc]
    split <;> rfl
  | wait wanted =>
    simp only [pc] at ran
    obtain rfl := Option.some.inj ran
    exact .moves rfl rfl rfl rfl rfl (inHand_goto (congrArg Pc.inHand pc).symm) nofun
  | relock wanted timedOut =>
    simp only [pc] at ran
    split at ran
    · cases ran
    · obtain rfl := Option.some.inj ran
      refine .moves rfl rfl rfl rfl rfl (inHand_goto ?_) nofun
      rw [pc]
      split <;> rfl
  | take wanted =>
    have empty : (s.pc t).inHand = [] := by rw [pc]; rfl
    cases wanted with
    | one =>
      have takes : s.takesAt (.take .one) = if s.shutdownFlag then [] else s.queue.take 1 := rfl
      simp only [pc] at ran
      rw [takes]
      split at ran
      · rename_i flag
        obtain rfl := Option.some.inj ran
        exact .takes (by simp [flag]) (by simp [flag]) empty (by simp [flag, itemReply_got]) nofun
      · rename_i flag
        obtain rfl := Option.some.inj ran
        cases queue : s.queue with
        | nil =>
          simp only [flag]
          exact .moves rfl rfl rfl rfl rfl (inHand_goto empty.symm) nofun
        | cons x rest =>
          exact .takes (by simp [flag, queue]) (by simp [flag]) empty (by simp [flag, itemReply_got]) nofun
    | many count timeout =>
      simp only [pc] at ran
      obtain rfl := Option.some.inj ran
      exact .takes (List.take_append_drop ..).symm rfl empty rfl nofun
  | notify empty reply =>
    cases empty with
    | false => simp [pc] at ran
    | true =>
      simp only [pc] at ran
      obtain rfl := Option.some.inj ran
      exact .moves rfl rfl rfl rfl rfl (inHand_notifyAllEmpty (congrArg Pc.inHand pc).symm) nofun
  | leave reply =>
    simp only [pc] at ran
    obtain rfl := Option.some.inj ran
    exact .returns rfl rfl rfl rfl (by simp [return_, goto, AssertsAt]) rfl
        (congrArg Pc.inHand pc).symm
  | emptyLock =>
    simp only [pc] at ran
    split at ran
    · cases ran
    · obtain rfl := Option.some.inj ran
      exact .moves rfl rfl rfl rfl rfl (inHand_goto (congrArg Pc.inHand pc).symm) nofun
  | emptyCheck =>
    simp only [pc] at ran
    obtain rfl := Option.some.inj ran
    split
    · rename_i satisfied
      refine .returns (t := t) rfl rfl rfl rfl ?_ rfl (congrArg Pc.inHand pc).symm
      have satisfied : s.queue = [] ∨ s.shutdownFlag = true :=
        satisfied.imp_left List.isEmpty_iff.mp
      simp [return_, goto, unlock, AssertsAt, satisfied]
    · rename_i unsatisfied
      refine .moves rfl rfl rfl rfl rfl (inHand_goto (congrArg Pc.inHand pc).symm) fun fails => ?_
      exact unsatisfied (fails.1.imp_left List.isEmpty_iff.mpr)
  | emptyWait =>
    simp only [pc] at ran
    obtain rfl := Option.some.inj ran
    exact .moves rfl rfl rfl rfl rfl (inHand_goto (congrArg Pc.inHand pc).symm) nofun
  | shutdownSet =>
    simp only [pc] at ran
    obtain rfl := Option.some.inj ran
    exact .moves rfl rfl rfl rfl rfl (inHand_goto (congrArg Pc.inHand pc).symm) nofun
  | shutdownNotifyEmpty =>
    simp only [pc] at ran
    obtain rfl := Option.some.inj ran
    exact .moves rfl rfl rfl rfl rfl (inHand_notifyAllEmpty (congrArg Pc.inHand pc).symm) nofun
  | shutdownNotify =>
    simp only [pc] at ran
    obtain rfl := Option.some.inj ran
    refine .moves rfl rfl rfl rfl rfl (fun u => ?_) nofun
    have same := (Pc.wakeNotEmpty_inHand (s.pc t)).trans (congrArg Pc.inHand pc)
    rw [inHand_goto same.symm u]
    exact Pc.wakeNotEmpty_inHand (s.pc u)
  | shutdownDrain =>
    simp only [pc] at ran
    split at ran
    · obtain rfl := Option.some.inj ran
      exact .returns (t := t) rfl rfl rfl rfl (by simp [return_, goto, AssertsAt]) rfl
        (congrArg Pc.inHand pc).symm
    · cases ran

theorem booked_notify [Fintype ι] (ran : s.notify t pick = some s') :
    Booked s s' t [] [] False := by
  unfold State.notify at ran
  split at ran
  · rename_i reply pc
    obtain ⟨s'', picked, rfl⟩ := Option.map_eq_some_iff.mp ran
    have hand : ∀ u, (s''.pc u).inHand = (s.pc u).inHand ∧ s''.queue = s.queue ∧
        s''.pushCount = s.pushCount ∧ s''.popCount = s.popCount ∧ s''.returned = s.returned ∧
        s''.assertFailed = s.assertFailed := by
      cases pick with
      | none =>
        simp only [notifyOne] at picked
        split at picked
        · cases picked
        · obtain rfl := Option.some.inj picked
          simp
      | some v =>
        simp only [notifyOne] at picked
        split at picked
        · obtain rfl := Option.some.inj picked
          exact fun u => ⟨inHand_goto (Pc.wakeNotEmpty_inHand (s.pc v)) u, rfl, rfl, rfl, rfl, rfl⟩
        · cases picked
    obtain ⟨_, queue, pushCount, popCount, returned, failed⟩ := hand t
    refine .moves queue pushCount popCount returned failed (fun u => ?_) not_false
    have same : (Pc.leave reply).inHand = (s''.pc t).inHand :=
      ((hand t).1.trans (congrArg Pc.inHand pc)).symm
    exact (inHand_goto same u).trans (hand u).1
  · cases ran

end State

namespace Action

/-- The items that a step puts into the queue. -/
def pushes (s : State ι T) : Action ι T → List T
  | .run t => (s.pc t).pushes
  | _ => []

def takes (s : State ι T) : Action ι T → List T
  | .run t => s.takesAt (s.pc t)
  | _ => []

def Asserts (s : State ι T) : Action ι T → Prop
  | .run t => s.AssertsAt (s.pc t)
  | _ => False

end Action

theorem State.booked_step [Fintype ι] {s s' : State ι T} {a : Action ι T} (ha : s.step a = some s') :
    Booked s s' a.thread (a.pushes s) (a.takes s) (a.Asserts s) := by
  cases a with
  | call t call =>
    simp only [step] at ha
    split at ha
    · rename_i pc
      obtain ⟨p, entry, rfl⟩ := Option.map_eq_some_iff.mp ha
      refine .moves rfl rfl rfl rfl rfl (inHand_goto ?_) not_false
      rw [pc]
      cases call with
      | popMany count timeout =>
        simp only [State.entry] at entry
        split at entry
        · obtain rfl := Option.some.inj entry
          rfl
        · cases entry
      | _ =>
        obtain rfl := Option.some.inj entry
        rfl
    · cases ha
  | run t => exact booked_run ha
  | notify t pick => exact booked_notify ha
  | timeout t =>
    simp only [step] at ha
    split at ha
    · rename_i wanted pc
      split at ha
      · obtain rfl := Option.some.inj ha
        exact .moves rfl rfl rfl rfl rfl (inHand_goto (congrArg Pc.inHand pc).symm) not_false
      · cases ha
    · rename_i wanted pc
      split at ha
      · obtain rfl := Option.some.inj ha
        exact .moves rfl rfl rfl rfl rfl (inHand_goto (congrArg Pc.inHand pc).symm) not_false
      · cases ha
    · cases ha
  | spuriousWakeUp t =>
    simp only [step] at ha
    split at ha
    · rename_i wanted pc
      obtain rfl := Option.some.inj ha
      exact .moves rfl rfl rfl rfl rfl (inHand_goto (congrArg Pc.inHand pc).symm) not_false
    · rename_i pc
      obtain rfl := Option.some.inj ha
      exact .moves rfl rfl rfl rfl rfl (inHand_goto (congrArg Pc.inHand pc).symm) not_false
    · cases ha

-- ---------------------------------------------------------------------------
-- Who holds the mutex, and what it found
-- ---------------------------------------------------------------------------

namespace State

variable {s s' : State ι T} {t : ι} {p : Pc T}

/-- A thread moves; the others keep what they know, as the queue stays or they do not have the
mutex. -/
theorem Held.moves (h : s.Held) (pc : s'.pc = Function.update s.pc t p)
    (mutex : Owned s'.mutex fun u => (Function.update s.pc t p u).holdsMutex)
    (ready : p.Ready s'.queue s'.shutdownFlag)
    (others : ∀ u, u ≠ t → (s.pc u).Ready s.queue s.shutdownFlag →
      (s.pc u).Ready s'.queue s'.shutdownFlag) : s'.Held where
  mutex := pc ▸ mutex
  ready u := by
    rw [pc]
    by_cases hu : u = t
    · subst hu
      simpa using ready
    · simpa [hu] using others u hu (h.ready u)

/-- The thread neither locks nor unlocks. -/
theorem Held.goto (h : s.Held) (mutex : p.holdsMutex = (s.pc t).holdsMutex)
    (ready : p.Ready s.queue s.shutdownFlag) : (s.goto t p).Held :=
  h.moves rfl (h.mutex.move mutex) ready fun _ _ h => h

/-- The thread with the mutex changes the queue and unlocks. -/
theorem Held.finish (h : s.Held) (hold : (s.pc t).holdsMutex) (queue : List T)
    (popCount : UInt64) {reply : Reply T} :
    ({ s with queue := queue, popCount := popCount }.finish t reply).Held :=
  h.moves rfl (h.mutex.moveDrop hold rfl) trivial fun _ hu known =>
    Pc.ready_unlocked known (h.others_free hold hu)

theorem Held.refuse (h : s.Held) {call : Guarded T} (inflightCount : Nat)
    (hold : (s.pc t).holdsMutex = call.locksFirst) :
    ({ s with inflightCount := inflightCount }.refuse t call).Held := by
  cases call with
  | push item | popMany count timeout =>
    exact h.moves (p := .idle) rfl (h.mutex.move hold.symm) trivial fun _ _ known => known
  | popOptional wait =>
    exact h.moves (p := .idle) rfl (h.mutex.moveDrop hold rfl) trivial fun _ _ known => known

theorem Held.run (h : s.Held) (ran : s.run t = some s') : s'.Held := by
  have known := h.ready t
  unfold State.run at ran
  cases pc : s.pc t with
  | idle | waiting | emptyWaiting | crashed => simp [pc] at ran
  | gateTest call =>
    simp only [pc] at ran
    split at ran
    · obtain rfl := Option.some.inj ran
      exact h.refuse s.inflightCount (by rw [pc]; rfl)
    · obtain rfl := Option.some.inj ran
      exact h.goto (by rw [pc]; rfl) trivial
  | gateCount call =>
    simp only [pc] at ran
    obtain rfl := Option.some.inj ran
    exact h.moves rfl (h.mutex.move (by rw [pc]; rfl)) trivial fun _ _ known => known
  | gateRetest call =>
    simp only [pc] at ran
    obtain rfl := Option.some.inj ran
    split
    · exact h.goto (by rw [pc]; rfl) trivial
    · cases call <;> exact h.goto (by rw [pc]; rfl) trivial
  | gateUndo call =>
    simp only [pc] at ran
    obtain rfl := Option.some.inj ran
    exact h.refuse _ (by rw [pc]; rfl)
  | lock call =>
    simp only [pc] at ran
    split at ran
    · cases ran
    · rename_i taken
      have free := isNone_of_not_isSome taken
      obtain rfl := Option.some.inj ran
      cases call with
      | push item =>
        refine h.moves rfl (h.mutex.move (by rw [pc]; rfl)) trivial fun u _ known => ?_
        exact Pc.ready_unlocked known (by simpa using h.mutex.free free (t := u))
      | popOptional wait | popMany count timeout =>
        exact h.moves rfl (h.mutex.moveTake free rfl) trivial fun _ _ known => known
  | popFront wait =>
    have hold : (s.pc t).holdsMutex := by rw [pc]; rfl
    simp only [pc] at ran
    obtain rfl := Option.some.inj ran
    split
    · exact h.finish hold _ _
    · split
      · exact h.goto (by rw [pc]; rfl) trivial
      · exact h.finish hold _ _
  | check wanted woken =>
    simp only [pc] at ran
    obtain rfl := Option.some.inj ran
    split
    · rename_i satisfied
      refine h.goto (by rw [pc]; rfl) ?_
      cases wanted with
      | one =>
        refine satisfied.imp_left fun enough empty => ?_
        simp [empty, Wanted.count] at enough
      | many count timeout => exact fun _ => satisfied
    · exact h.goto (by rw [pc]; rfl) trivial
  | wait wanted =>
    simp only [pc] at ran
    obtain rfl := Option.some.inj ran
    exact h.moves rfl (h.mutex.moveDrop (by rw [pc]; rfl) rfl) trivial fun _ _ known => known
  | relock wanted timedOut =>
    simp only [pc] at ran
    split at ran
    · cases ran
    · rename_i taken
      obtain rfl := Option.some.inj ran
      split
      · rename_i out
        refine h.moves rfl (h.mutex.moveTake (isNone_of_not_isSome taken) rfl) ?_
          fun _ _ known => known
        rw [pc, out] at known
        cases wanted with
        | one => cases known
        | many count timeout =>
          have timed : 0 < timeout := by simpa [Pc.Ready, Wanted.timed] using known
          exact fun untimed => by omega
      · exact h.moves rfl (h.mutex.moveTake (isNone_of_not_isSome taken) rfl) trivial
          fun _ _ known => known
  | take wanted =>
    have hold : (s.pc t).holdsMutex := by rw [pc]; rfl
    cases wanted with
    | one =>
      simp only [pc] at ran
      split at ran
      · obtain rfl := Option.some.inj ran
        exact h.finish hold _ _
      · rename_i flag
        obtain rfl := Option.some.inj ran
        split
        · exact h.finish hold _ _
        · rename_i empty
          rw [pc] at known
          exact absurd known (by simp [Pc.Ready, empty, flag])
    | many count timeout =>
      simp only [pc] at ran
      obtain rfl := Option.some.inj ran
      exact h.finish hold _ _
  | notify empty reply =>
    cases empty with
    | false => simp [pc] at ran
    | true =>
      simp only [pc] at ran
      obtain rfl := Option.some.inj ran
      exact h.notifyAllEmpty.goto (by simp [State.notifyAllEmpty, pc]; rfl) trivial
  | leave reply =>
    simp only [pc] at ran
    obtain rfl := Option.some.inj ran
    exact h.moves (t := t) rfl (h.mutex.move (by rw [pc]; rfl)) trivial fun _ _ known => known
  | emptyLock =>
    simp only [pc] at ran
    split at ran
    · cases ran
    · rename_i taken
      obtain rfl := Option.some.inj ran
      exact h.moves rfl (h.mutex.moveTake (isNone_of_not_isSome taken) rfl) trivial
        fun _ _ known => known
  | emptyCheck =>
    simp only [pc] at ran
    obtain rfl := Option.some.inj ran
    split
    · exact h.moves (t := t) rfl (h.mutex.moveDrop (by rw [pc]; rfl) rfl) trivial
        fun _ _ known => known
    · exact h.goto (by rw [pc]; rfl) trivial
  | emptyWait =>
    simp only [pc] at ran
    obtain rfl := Option.some.inj ran
    exact h.moves rfl (h.mutex.moveDrop (by rw [pc]; rfl) rfl) trivial fun _ _ known => known
  | shutdownSet =>
    simp only [pc] at ran
    obtain rfl := Option.some.inj ran
    exact h.moves rfl (h.mutex.move (by rw [pc]; rfl)) trivial fun _ _ known =>
      Pc.ready_shutdown known
  | shutdownNotifyEmpty =>
    simp only [pc] at ran
    obtain rfl := Option.some.inj ran
    exact h.notifyAllEmpty.goto (by simp [State.notifyAllEmpty, pc]; rfl) trivial
  | shutdownNotify =>
    simp only [pc] at ran
    obtain rfl := Option.some.inj ran
    exact h.notifyAllNotEmpty.goto (by simp [State.notifyAllNotEmpty, pc]; rfl) trivial
  | shutdownDrain =>
    simp only [pc] at ran
    split at ran
    · obtain rfl := Option.some.inj ran
      exact h.moves (t := t) rfl (h.mutex.move (by rw [pc]; rfl)) trivial fun _ _ known => known
    · cases ran

theorem Held.notify [Fintype ι] (h : s.Held) (ran : s.notify t pick = some s') : s'.Held := by
  unfold State.notify at ran
  split at ran
  · rename_i reply pc
    obtain ⟨s'', picked, rfl⟩ := Option.map_eq_some_iff.mp ran
    cases pick with
    | none =>
      simp only [notifyOne] at picked
      split at picked
      · cases picked
      · obtain rfl := Option.some.inj picked
        exact h.goto (by rw [pc]; rfl) trivial
    | some u =>
      simp only [notifyOne] at picked
      split at picked
      · rename_i waiting
        obtain rfl := Option.some.inj picked
        have other : t ≠ u := by
          rintro rfl
          simp [pc, Pc.isWaiting] at waiting
        have woken : (s.goto u (s.pc u).wakeNotEmpty).Held :=
          h.goto (Pc.wakeNotEmpty_holdsMutex _) (Pc.wakeNotEmpty_ready (h.ready u))
        exact woken.goto (by simp [other, pc]; rfl) trivial
      · cases picked
  · cases ran

theorem Held.step [Fintype ι] {a : Action ι T} (h : s.Held) (ha : s.step a = some s') :
    s'.Held := by
  cases a with
  | call t call =>
    simp only [State.step] at ha
    split at ha
    · rename_i pc
      obtain ⟨p, entry, rfl⟩ := Option.map_eq_some_iff.mp ha
      have plain : p.holdsMutex = false ∧ p.Ready s.queue s.shutdownFlag := by
        cases call with
        | popMany count timeout =>
          simp only [State.entry] at entry
          split at entry
          · obtain rfl := Option.some.inj entry
            exact ⟨rfl, trivial⟩
          · cases entry
        | _ =>
          obtain rfl := Option.some.inj entry
          exact ⟨rfl, trivial⟩
      exact h.goto (by rw [pc, plain.1]; rfl) plain.2
    · cases ha
  | run t => exact h.run ha
  | notify t pick => exact h.notify ha
  | timeout t =>
    simp only [State.step] at ha
    split at ha
    · rename_i wanted pc
      split at ha
      · rename_i timed
        obtain rfl := Option.some.inj ha
        exact h.goto (by rw [pc]; rfl) timed
      · cases ha
    · rename_i wanted pc
      split at ha
      · rename_i timed
        obtain rfl := Option.some.inj ha
        exact h.goto (by rw [pc]; rfl) timed
      · cases ha
    · cases ha
  | spuriousWakeUp t =>
    simp only [State.step] at ha
    split at ha
    · rename_i wanted pc
      obtain rfl := Option.some.inj ha
      exact h.goto (by rw [pc]; rfl) trivial
    · rename_i pc
      obtain rfl := Option.some.inj ha
      exact h.goto (by rw [pc]; rfl) trivial
    · cases ha

end State

-- ---------------------------------------------------------------------------
-- The accounts over a run
-- ---------------------------------------------------------------------------

namespace Log

variable {l l' : Log ι T} {a : Action ι T}

def step [Fintype ι] (l : Log ι T) (a : Action ι T) : Option (Log ι T) :=
  (l.state.step a).map fun state =>
    { state
      pushed := l.pushed ++ a.pushes l.state
      taken := l.taken ++ (a.takes l.state).map (a.thread, ·) }

/-- What was pushed is what was taken and then what is queued, in order; what a thread took it
returned, or has in hand. -/
structure Inv (l : Log ι T) : Prop where
  held : l.state.Held
  counts : l.state.pushCount = l.state.popCount + UInt64.ofNat l.state.queue.length
  inOrder : l.taken.map (·.2) ++ l.state.queue = l.pushed
  returned : ∀ t, entriesOf t l.taken =
    (entriesOf t l.state.returned).flatMap Reply.got ++ (l.state.pc t).inHand

theorem Inv.empty : ({} : Log ι T).Inv where
  held := .empty
  counts := rfl
  inOrder := rfl
  returned _ := rfl

theorem Inv.step [Fintype ι] (h : l.Inv) (ha : l.step a = some l') : l'.Inv := by
  obtain ⟨s', hs, rfl⟩ := Option.map_eq_some_iff.mp ha
  have booked := State.booked_step hs
  refine ⟨h.held.step hs, ?_, ?_, fun t => ?_⟩
  · have lengths : l.state.queue.length + (a.pushes l.state).length =
        (a.takes l.state).length + s'.queue.length := by
      simpa using congrArg List.length booked.queue
    calc s'.pushCount
        = l.state.popCount + UInt64.ofNat (l.state.queue.length + (a.pushes l.state).length) := by
          rw [booked.pushCount, h.counts, UInt64.ofNat_add, UInt64.add_assoc]
      _ = s'.popCount + UInt64.ofNat s'.queue.length := by
          rw [lengths, booked.popCount, UInt64.ofNat_add, UInt64.add_assoc]
  · have queue := booked.queue
    simp only [List.map_append, List.map_map, Function.comp_def, List.map_id']
    rw [List.append_assoc, ← queue, ← List.append_assoc, h.inOrder]
  · obtain ⟨replies, returned, hand⟩ := booked.hand
    simp only [entriesOf_append, returned, List.flatMap_append]
    by_cases ht : t = a.thread
    · subst ht
      rw [entriesOf_self, entriesOf_self, h.returned, List.append_assoc, List.append_assoc, hand]
    · rw [entriesOf_other ht, entriesOf_other ht, booked.others t ht, h.returned]
      simp

structure Accounted (l : Log ι T) : Prop where
  counts : l.state.pushCount = l.state.popCount + UInt64.ofNat l.state.queue.length
  inOrder : l.taken.map (·.2) ++ l.state.queue = l.pushed
  returned : ∀ t, entriesOf t l.taken =
    (entriesOf t l.state.returned).flatMap Reply.got ++ (l.state.pc t).inHand
  -- A pop without a timeout, before shutdown.
  full : ∀ t count timeout s', l.state.pc t = .take (.many count timeout) → timeout ≤ 0 →
    l.state.shutdownFlag = false → l.state.run t = some s' →
    ∃ items, s'.pc t = .notify s'.queue.isEmpty (.items items) ∧ items.length = count ∧
      l.state.queue = items ++ s'.queue
  asserted : l.state.assertFailed = false

/-- A `waitForEmpty` that the shutdown flag lets go finds the queue empty. -/
def Emptied (l : Log ι T) : Action ι T → Prop
  | .run t => l.state.pc t = .emptyCheck → l.state.shutdownFlag = true →
    l.state.queue.length % 2 ^ 64 = 0
  | _ => True

theorem ofNat_eq_zero {n : Nat} : UInt64.ofNat n = 0 ↔ n % 2 ^ 64 = 0 := by
  rw [← UInt64.toNat_inj]
  simp

/-- The assertion fails where the flag ends the wait and the counters can tell that items are
left. -/
theorem Inv.asserts_iff (h : l.Inv) : a.Asserts l.state ↔ ¬l.Emptied a := by
  cases a with
  | run t =>
    show l.state.AssertsAt (l.state.pc t) ↔ ¬(l.state.pc t = .emptyCheck → _)
    cases pc : l.state.pc t with
    | emptyCheck =>
      have differ : l.state.popCount ≠ l.state.pushCount ↔ ¬l.state.queue.length % 2 ^ 64 = 0 := by
        rw [← ofNat_eq_zero, h.counts, Ne, UInt64.left_eq_add]
      show (l.state.queue = [] ∨ l.state.shutdownFlag = true) ∧ _ ↔ _
      rw [differ]
      constructor
      · rintro ⟨empty | flag, left⟩ emptied
        · simp [empty] at left
        · exact left (emptied rfl flag)
      · intro more
        simp only [forall_const, Classical.not_imp] at more
        exact ⟨.inr more.1, more.2⟩
    | _ => exact ⟨nofun, fun more => absurd nofun more⟩
  | _ => exact ⟨nofun, fun more => absurd trivial more⟩

theorem Inv.full (h : l.Inv) {t : ι} (pc : l.state.pc t = .take (.many count timeout))
    (untimed : timeout ≤ 0) (flag : l.state.shutdownFlag = false) {s' : State ι T}
    (ran : l.state.run t = some s') :
    ∃ items, s'.pc t = .notify s'.queue.isEmpty (.items items) ∧ items.length = count ∧
      l.state.queue = items ++ s'.queue := by
  have ready := h.held.ready t
  rw [pc] at ready
  have enough : count ≤ l.state.queue.length := by
    simpa [flag] using ready untimed
  unfold State.run at ran
  simp only [pc] at ran
  obtain rfl := Option.some.inj ran
  exact ⟨l.state.queue.take count, by simp [State.finish, State.goto, State.unlock],
    by simp [enough], (List.take_append_drop ..).symm⟩

theorem Inv.accounted (h : l.Inv) (asserted : l.state.assertFailed = false) : l.Accounted where
  counts := h.counts
  inOrder := h.inOrder
  returned := h.returned
  full _ _ _ _ pc untimed flag ran := h.full pc untimed flag ran
  asserted := asserted

/-- One step fails the assertion or keeps it. -/
theorem Inv.asserted_step [Fintype ι] (h : l.Inv) (ha : l.step a = some l') :
    l'.state.assertFailed = false ↔ l.state.assertFailed = false ∧ l.Emptied a := by
  obtain ⟨s', hs, rfl⟩ := Option.map_eq_some_iff.mp ha
  have failed := (State.booked_step hs).assertFailed
  rw [h.asserts_iff] at failed
  simp only [← Bool.not_eq_true, failed]
  tauto

theorem inv_of_reaches [Fintype ι] (run : Reaches step ({} : Log ι T) l) : l.Inv :=
  run.invariant .empty fun h _ ha => h.step ha

/-- The accounts are in order in exactly the runs in which no shutdown lets a `waitForEmpty` go
with items in the queue. -/
theorem accounted_iff [Fintype ι] (run : Reaches step ({} : Log ι T) l) :
    l.Accounted ↔ ReachesBy step Emptied {} l := by
  constructor
  · intro accounted
    have asserted := accounted.asserted
    clear accounted
    induction run with
    | refl => exact .refl
    | tail a before _ ha ih =>
      obtain ⟨asserted, emptied⟩ := ((inv_of_reaches before).asserted_step ha).mp asserted
      exact (ih asserted).tail a emptied ha
  · intro emptied
    refine (inv_of_reaches run).accounted ?_
    refine (emptied.invariant (I := fun l => l.Inv ∧ l.state.assertFailed = false) ⟨.empty, rfl⟩
      fun ⟨h, asserted⟩ emptied ha => ?_).2
    exact ⟨h.step ha, (h.asserted_step ha).mpr ⟨asserted, emptied⟩⟩

end Log
end

def steps (t : Fin 2) (n : Nat) : List (Action (Fin 2) Nat) := List.replicate n (.run t)

/-- An item is pushed and popped, and after shutdown the queue is waited for. -/
def shutDownEmpty : List (Action (Fin 2) Nat) :=
  .call 0 (.push 7) :: steps 0 4 ++ .notify 0 none :: steps 0 1 ++ .call 0 .popNoWait :: steps 0 7 ++
  .call 1 .shutdown :: steps 1 3 ++ .call 0 .waitForEmpty :: steps 0 2

instance [DecidableEq T] (l : Log ι T) (a : Action ι T) : Decidable (l.Emptied a) :=
  match a with
  | .run t => inferInstanceAs (Decidable (l.state.pc t = .emptyCheck →
      l.state.shutdownFlag = true → l.state.queue.length % 2 ^ 64 = 0))
  | .call _ _ | .notify _ _ | .timeout _ | .spuriousWakeUp _ => isTrue trivial

theorem Log.accounted_iff_shutDownEmpty :
    ((execBy Log.step Log.Emptied {} shutDownEmpty).get (by decide)).Accounted := by
  have run := ReachesBy.of_execBy (Option.some_get (x := execBy Log.step Log.Emptied {} shutDownEmpty)
    (by decide)).symm
  exact (accounted_iff run.reaches).mpr run

/-- The flag is set while an item is queued, and then the queue is waited for. -/
def shutDownFilled : List (Action (Fin 2) Nat) :=
  .call 0 (.push 7) :: steps 0 4 ++ .notify 0 none :: steps 0 1 ++ .call 1 .shutdown :: steps 1 4 ++
  .call 0 .waitForEmpty :: steps 0 2

theorem Log.accounted_shutDownFilled :
    ¬ ∀ l : Log (Fin 2) Nat, Reaches Log.step {} l → l.Accounted := fun all => by
  have reached : ∃ l : Log (Fin 2) Nat, Reaches Log.step {} l ∧ l.state.assertFailed = true :=
    ReachesBy.exists_of_any shutDownFilled (by decide)
  obtain ⟨l, run, failed⟩ := reached
  exact Bool.false_ne_true ((all l run).asserted.symm.trans failed)

end Dmn.BlockingQueueMt
