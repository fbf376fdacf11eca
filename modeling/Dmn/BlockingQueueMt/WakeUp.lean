import Dmn.BlockingQueueMt.Machine
import Dmn.Lib.Mutex
import Mathlib.Data.Fintype.Option

/-!
# No waiter is stranded

A push and a pop wake one waiter, and a waiter that wakes, finds too few items
and waits again hands the wake-up on to no one. `shutdown` sets the flag and
notifies without the mutex. Where a wake-up is never dropped while another
waiter could use it, and `shutdown` does not notify while a waiter is on its
way into the wait set, a state in which no thread can step has no waiter whose
predicate is true.
-/

namespace Dmn.BlockingQueueMt

open Lib

/-- `popOptional` takes its ticket under the mutex. -/
def Guarded.locksFirst : Guarded T → Bool
  | .popOptional _ => true
  | _ => false

namespace Pc

variable {T : Type}

def holdsMutex : Pc T → Bool
  | .gateTest call | .gateCount call | .gateRetest call | .gateUndo call => call.locksFirst
  | .popFront _ | .check _ _ | .wait _ | .take _ | .emptyCheck | .emptyWait => true
  | _ => false

/-- What a thread knows of the queue and the flag. -/
def Agrees (queue : List T) (shutdownFlag : Bool) : Pc T → Prop
  | .wait wanted => queue.length < wanted.count
  | .waiting wanted => 0 < wanted.count
  | .relock wanted timedOut => timedOut → wanted.timed
  | .take .one => queue ≠ [] ∨ shutdownFlag
  | .crashed => False
  | _ => True

/-- A thread that was woken, or is going to wake a waiter. -/
def isToken : Pc T → Bool
  | .relock _ _ | .check _ true | .take _ | .notify false _ => true
  | _ => false

def aboutToWait : Pc T → Bool
  | .wait _ => true
  | _ => false

/-- Past the last look at the flag, on the way into the wait set or in it. -/
def parked : Pc T → Bool
  | .wait _ | .waiting _ => true
  | _ => false

/-- In `shutdown`, the waiters are still to be notified. -/
def notifying : Pc T → Bool
  | .shutdownNotifyEmpty | .shutdownNotify => true
  | _ => false

theorem agrees_unlocked {p : Pc T} {queue queue' : List T} {flag flag' : Bool}
    (h : p.Agrees queue flag) (hm : p.holdsMutex = false) : p.Agrees queue' flag' := by
  cases p with
  | wait | take => cases hm
  | waiting | relock | crashed => exact h
  | _ => trivial

theorem agrees_shutdown {p : Pc T} {queue : List T} {flag : Bool} (h : p.Agrees queue flag) :
    p.Agrees queue true := by
  cases p with
  | take wanted =>
    cases wanted with
    | one => exact .inr rfl
    | many => trivial
  | _ => exact h

theorem holdsMutex_not_notifying {p : Pc T} (h : p.holdsMutex) : p.notifying = false := by
  cases p <;> first | rfl | cases h

@[simp] theorem wakeEmpty_holdsMutex (p : Pc T) : p.wakeEmpty.holdsMutex = p.holdsMutex := by
  cases p <;> rfl

@[simp] theorem wakeEmpty_isToken (p : Pc T) : p.wakeEmpty.isToken = p.isToken := by
  cases p <;> rfl

@[simp] theorem wakeEmpty_parked (p : Pc T) : p.wakeEmpty.parked = p.parked := by
  cases p <;> rfl

@[simp] theorem wakeEmpty_notifying (p : Pc T) : p.wakeEmpty.notifying = p.notifying := by
  cases p <;> rfl

theorem wakeEmpty_agrees {p : Pc T} {queue : List T} {flag : Bool} (h : p.Agrees queue flag) :
    p.wakeEmpty.Agrees queue flag := by
  cases p <;> exact h

@[simp] theorem wakeNotEmpty_holdsMutex (p : Pc T) :
    p.wakeNotEmpty.holdsMutex = p.holdsMutex := by
  cases p <;> rfl

theorem wakeNotEmpty_agrees {p : Pc T} {queue : List T} {flag : Bool} (h : p.Agrees queue flag) :
    p.wakeNotEmpty.Agrees queue flag := by
  cases p with
  | waiting => exact nofun
  | _ => exact h

theorem wakeEmpty_waiting {p : Pc T} : p.wakeEmpty = .waiting wanted ↔ p = .waiting wanted := by
  cases p <;> simp [wakeEmpty]

end Pc

namespace State

variable {ι T : Type} {s s' : State ι T} {t : ι} {p : Pc T}

/-- A waiter of `m_not_empty_cond` that the queue could serve. -/
def Hungry (s : State ι T) (t : ι) : Prop :=
  ∃ wanted, s.pc t = .waiting wanted ∧ wanted.count ≤ s.queue.length

structure Inv (s : State ι T) : Prop where
  mutex : Owned s.mutex fun t => (s.pc t).holdsMutex
  agrees : ∀ t, (s.pc t).Agrees s.queue s.shutdownFlag
  -- Where a waiter could be served a wake-up is under way.
  awake : ∀ t, s.Hungry t → ∃ u, (s.pc u).isToken
  -- Who is still parked after shutdown is going to be notified.
  notifies : s.shutdownFlag → ∀ t, (s.pc t).parked → ∃ u, (s.pc u).notifying

theorem Inv.empty : ({} : State ι T).Inv where
  mutex t := by simp [Pc.holdsMutex]
  agrees _ := trivial
  awake t := by
    rintro ⟨_, hpc, _⟩
    cases hpc
  notifies := nofun

theorem Inv.others_free (h : s.Inv) (hk : (s.pc t).holdsMutex) (hu : u ≠ t) :
    (s.pc u).holdsMutex = false := by
  by_contra hn
  exact hu (h.mutex.unique (by simpa using hn) hk)

theorem Inv.all_free (h : s.Inv) (hm : s.mutex = none) (u : ι) : (s.pc u).holdsMutex = false := by
  simpa using h.mutex.free hm (t := u)

/-- The waiters of `m_empty_cond` play no part. -/
theorem Inv.notifyAllEmpty (h : s.Inv) : s.notifyAllEmpty.Inv where
  mutex := h.mutex.keep fun u => by simp [State.notifyAllEmpty]
  agrees u := Pc.wakeEmpty_agrees (h.agrees u)
  awake u := by
    rintro ⟨wanted, hpc, hle⟩
    obtain ⟨v, hv⟩ := h.awake u ⟨wanted, Pc.wakeEmpty_waiting.mp hpc, hle⟩
    exact ⟨v, by simpa [State.notifyAllEmpty] using hv⟩
  notifies hflag u hu := by
    obtain ⟨v, hv⟩ := h.notifies hflag u (by simpa [State.notifyAllEmpty] using hu)
    exact ⟨v, by simpa [State.notifyAllEmpty] using hv⟩

theorem Inv.not_aboutToWait (h : s.Inv) (hok : ∀ u ∈ s.mutex, (s.pc u).aboutToWait = false)
    (u : ι) : (s.pc u).aboutToWait = false := by
  by_contra hn
  have hholds : (s.pc u).holdsMutex := by
    cases hp : s.pc u <;> simp_all [Pc.aboutToWait, Pc.holdsMutex]
  exact hn (hok u ((h.mutex u).mpr hholds))

variable [DecidableEq ι]

@[simp] theorem pc_goto : (s.goto t p).pc = Function.update s.pc t p := rfl

theorem agrees_update {queue : List T} {flag : Bool}
    (h : ∀ u, u ≠ t → (s.pc u).Agrees queue flag) (ha : p.Agrees queue flag) (u : ι) :
    (Function.update s.pc t p u).Agrees queue flag := by
  by_cases hu : u = t
  · subst hu
    simpa using ha
  · simpa [hu] using h u hu

/-- A thread moves and leaves the queue and the flag alone. -/
theorem Inv.moves (h : s.Inv) (hqueue : s'.queue = s.queue)
    (hflag : s'.shutdownFlag = s.shutdownFlag) (hpc : s'.pc = Function.update s.pc t p)
    (hmutex : Owned s'.mutex fun u => (Function.update s.pc t p u).holdsMutex)
    (hagrees : p.Agrees s.queue s.shutdownFlag)
    (htoken : (s.pc t).isToken → (∃ u, s.Hungry u) →
      p.isToken ∨ ∃ v, v ≠ t ∧ (s.pc v).isToken)
    (hwaiting : ∀ wanted, p = .waiting wanted → s.queue.length < wanted.count)
    (hparked : s.shutdownFlag → p.parked → (s.pc t).parked)
    (hnotifying : (s.pc t).notifying → p.notifying) : s'.Inv where
  mutex := hpc ▸ hmutex
  agrees := by
    rw [hqueue, hflag, hpc]
    exact agrees_update (fun u _ => h.agrees u) hagrees
  awake u := by
    rintro ⟨wanted, hu, hle⟩
    rw [hqueue] at hle
    rw [hpc] at hu ⊢
    have hut : u ≠ t := by
      rintro rfl
      have := hwaiting wanted (by simpa using hu)
      omega
    have hhungry : s.Hungry u := ⟨wanted, by simpa [hut] using hu, hle⟩
    obtain ⟨v, hv⟩ := h.awake u hhungry
    by_cases hvt : v = t
    · subst hvt
      rcases htoken hv ⟨u, hhungry⟩ with hp | ⟨w, hwt, hw⟩
      · exact ⟨v, by simpa using hp⟩
      · exact ⟨w, by simpa [hwt] using hw⟩
    · exact ⟨v, by simpa [hvt] using hv⟩
  notifies hf u hu := by
    rw [hflag] at hf
    rw [hpc] at hu ⊢
    have hparkedAt : (s.pc u).parked := by
      by_cases hut : u = t
      · subst hut
        exact hparked hf (by simpa using hu)
      · simpa [hut] using hu
    obtain ⟨v, hv⟩ := h.notifies hf u hparkedAt
    refine ⟨v, ?_⟩
    by_cases hvt : v = t
    · subst hvt
      simpa using hnotifying hv
    · simpa [hvt] using hv

/-- The plain case: no wake-up is at stake and no one goes to sleep. -/
theorem Inv.passes (h : s.Inv) (hqueue : s'.queue = s.queue)
    (hflag : s'.shutdownFlag = s.shutdownFlag) (hpc : s'.pc = Function.update s.pc t p)
    (hmutex : Owned s'.mutex fun u => (Function.update s.pc t p u).holdsMutex)
    (hagrees : p.Agrees s.queue s.shutdownFlag) (htoken : (s.pc t).isToken → p.isToken)
    (hparked : p.parked = false) (hnotifying : (s.pc t).notifying → p.notifying) : s'.Inv := by
  refine h.moves hqueue hflag hpc hmutex hagrees (fun ht _ => .inl (htoken ht)) ?_ ?_ hnotifying
  · rintro wanted rfl
    cases hparked
  · simp [hparked]

/-- Items come or go while no other thread has the mutex; a wake-up follows. -/
theorem Inv.changes (h : s.Inv) (hfree : ∀ u, u ≠ t → (s.pc u).holdsMutex = false)
    (hflag : s'.shutdownFlag = s.shutdownFlag) (hpc : s'.pc = Function.update s.pc t p)
    (hmutex : Owned s'.mutex fun u => (Function.update s.pc t p u).holdsMutex)
    (hagrees : p.Agrees s'.queue s.shutdownFlag) (hparked : p.parked = false)
    (hnotifying : (s.pc t).notifying = false) (htoken : p.isToken ∨ s'.queue = []) : s'.Inv where
  mutex := hpc ▸ hmutex
  agrees := by
    rw [hflag, hpc]
    exact agrees_update (fun u hu => Pc.agrees_unlocked (h.agrees u) (hfree u hu)) hagrees
  awake u := by
    rintro ⟨wanted, hu, hle⟩
    rw [hpc] at hu ⊢
    rcases htoken with htoken | hempty
    · exact ⟨t, by simpa using htoken⟩
    · have hut : u ≠ t := by
        rintro rfl
        simp only [Function.update_self] at hu
        subst hu
        cases hparked
      have hag := h.agrees u
      rw [show s.pc u = .waiting wanted by simpa [hut] using hu] at hag
      have hag : 0 < wanted.count := hag
      simp [hempty] at hle
      omega
  notifies hf u hu := by
    rw [hflag] at hf
    rw [hpc] at hu ⊢
    have hut : u ≠ t := by
      rintro rfl
      simp [hparked] at hu
    obtain ⟨v, hv⟩ := h.notifies hf u (by simpa [hut] using hu)
    have hvt : v ≠ t := by
      rintro rfl
      simp [hnotifying] at hv
    exact ⟨v, by simpa [hvt] using hv⟩

/-- A thread with the mutex takes items, or none, and unlocks. -/
theorem Inv.finish (h : s.Inv) (hold : (s.pc t).holdsMutex) (queue : List T) (popCount : UInt64) :
    ({ s with queue := queue, popCount := popCount }.finish t reply).Inv := by
  refine h.changes (t := t) (p := .notify queue.isEmpty reply) (fun u => h.others_free hold) rfl rfl
    (h.mutex.moveDrop hold rfl) trivial rfl (Pc.holdsMutex_not_notifying hold) ?_
  cases hempty : queue.isEmpty
  · exact .inl rfl
  · exact .inr (List.isEmpty_iff.mp hempty)

-- ---------------------------------------------------------------------------
-- Runs that drop no wake-up
-- ---------------------------------------------------------------------------

def Satisfied (s : State ι T) (wanted : Wanted) : Prop :=
  wanted.count ≤ s.queue.length ∨ s.shutdownFlag

/-- A waiter that was woken does not wait again while another waiter could be
served and no other wake-up is under way; `shutdown` does not notify while the
thread with the mutex is about to wait. -/
def CarefulAt (s : State ι T) (t : ι) : Pc T → Prop
  | .check wanted true =>
    s.Satisfied wanted ∨ (∀ u, ¬s.Hungry u) ∨ ∃ v, v ≠ t ∧ (s.pc v).isToken
  | .shutdownNotify => ∀ u ∈ s.mutex, (s.pc u).aboutToWait = false
  | _ => True

def Careful (s : State ι T) : Action ι T → Prop
  | .run t => s.CarefulAt t (s.pc t)
  | _ => True

theorem Inv.refuse (h : s.Inv) (hpc : s.pc t = .gateTest call ∨ s.pc t = .gateUndo call)
    (inflightCount : Nat) : ({ s with inflightCount := inflightCount }.refuse t call).Inv := by
  have htoken : (s.pc t).isToken = false := by rcases hpc with hpc | hpc <;> rw [hpc] <;> rfl
  have hnotifying : (s.pc t).notifying = false := by rcases hpc with hpc | hpc <;> rw [hpc] <;> rfl
  have hmutex : (s.pc t).holdsMutex = call.locksFirst := by
    rcases hpc with hpc | hpc <;> rw [hpc] <;> rfl
  cases call with
  | push item =>
    exact h.passes (t := t) (p := .idle) rfl rfl rfl (h.mutex.move hmutex.symm) trivial
      (by simp [htoken]) rfl (by simp [hnotifying])
  | popMany count timeout =>
    exact h.passes (t := t) (p := .idle) rfl rfl rfl (h.mutex.move hmutex.symm) trivial
      (by simp [htoken]) rfl (by simp [hnotifying])
  | popOptional wait =>
    exact h.passes (t := t) (p := .idle) rfl rfl rfl (h.mutex.moveDrop hmutex rfl) trivial
      (by simp [htoken]) rfl (by simp [hnotifying])

theorem isNone_of_not_isSome {o : Option α} (h : ¬o.isSome = true) : o = none := by
  cases o <;> simp_all

/-- `shutdown` reaches everyone in the wait set, and no one is about to enter it. -/
theorem Inv.shutdownNotify (h : s.Inv) (hpc : s.pc t = .shutdownNotify)
    (hno : ∀ u, (s.pc u).aboutToWait = false) :
    (s.notifyAllNotEmpty.goto t .shutdownDrain).Inv := by
  have hparked : ∀ u, (s.pc u).wakeNotEmpty.parked = false := fun u => by
    have := hno u
    cases hu : s.pc u <;> simp_all [Pc.aboutToWait, Pc.parked, Pc.wakeNotEmpty]
  have hplace : ∀ u, ((s.notifyAllNotEmpty.goto t .shutdownDrain).pc u).parked = false := by
    intro u
    by_cases hu : u = t
    · subst hu
      simp [Pc.parked]
    · simpa [hu, State.notifyAllNotEmpty] using hparked u
  refine ⟨?_, ?_, ?_, ?_⟩
  · refine h.mutex.keep fun u => ?_
    by_cases hu : u = t
    · subst hu
      simp [hpc, Pc.holdsMutex]
    · simp [hu, State.notifyAllNotEmpty]
  · intro u
    show (Function.update (fun v => (s.pc v).wakeNotEmpty) t .shutdownDrain u).Agrees _ _
    by_cases hu : u = t
    · subst hu
      simp [Pc.Agrees]
    · rw [Function.update_of_ne hu]
      exact Pc.wakeNotEmpty_agrees (h.agrees u)
  · rintro u ⟨wanted, hu, -⟩
    have := hplace u
    rw [hu] at this
    cases this
  · intro _ u hu
    rw [hplace u] at hu
    cases hu

theorem Inv.shutdownSet (h : s.Inv) (hpc : s.pc t = .shutdownSet) :
    ({ s with shutdownFlag := true }.goto t .shutdownNotifyEmpty).Inv where
  mutex := h.mutex.move (by rw [hpc]; rfl)
  agrees := agrees_update (fun u _ => Pc.agrees_shutdown (h.agrees u)) trivial
  awake u := by
    rintro ⟨wanted, hu, hle⟩
    have hut : u ≠ t := by
      rintro rfl
      simp at hu
    obtain ⟨v, hv⟩ := h.awake u ⟨wanted, by simpa [hut] using hu, hle⟩
    have hvt : v ≠ t := by
      rintro rfl
      simp [hpc, Pc.isToken] at hv
    exact ⟨v, by simpa [hvt] using hv⟩
  notifies _ _ _ := ⟨t, by simp [Pc.notifying]⟩

theorem Inv.run (h : s.Inv) (hok : s.Careful (.run t)) (hs : s.run t = some s') : s'.Inv := by
  have hag := h.agrees t
  have hok : s.CarefulAt t (s.pc t) := hok
  unfold State.run at hs
  cases hpc : s.pc t with
  | idle | waiting | emptyWaiting | crashed => simp [hpc] at hs
  | gateTest call =>
    simp only [hpc] at hs
    split at hs
    · obtain rfl := Option.some.inj hs
      exact h.refuse (.inl hpc) s.inflightCount
    · obtain rfl := Option.some.inj hs
      exact h.passes rfl rfl rfl (h.mutex.move (by rw [hpc]; rfl)) trivial
        (by rw [hpc]; nofun) rfl (by rw [hpc]; nofun)
  | gateCount call =>
    simp only [hpc] at hs
    obtain rfl := Option.some.inj hs
    exact h.passes rfl rfl rfl (h.mutex.move (by rw [hpc]; rfl)) trivial
      (by rw [hpc]; nofun) rfl (by rw [hpc]; nofun)
  | gateRetest call =>
    simp only [hpc] at hs
    obtain rfl := Option.some.inj hs
    split
    · exact h.passes rfl rfl rfl (h.mutex.move (by rw [hpc]; rfl)) trivial
        (by rw [hpc]; nofun) rfl (by rw [hpc]; nofun)
    · cases call with
      | push item | popMany count timeout | popOptional wait =>
        exact h.passes rfl rfl rfl (h.mutex.move (by rw [hpc]; rfl)) trivial (by rw [hpc]; nofun)
          rfl (by rw [hpc]; nofun)
  | gateUndo call =>
    simp only [hpc] at hs
    obtain rfl := Option.some.inj hs
    exact h.refuse (.inr hpc) _
  | lock call =>
    simp only [hpc] at hs
    split at hs
    · cases hs
    · rename_i hm
      have hm := isNone_of_not_isSome hm
      obtain rfl := Option.some.inj hs
      cases call with
      | push item =>
        exact h.changes (fun u _ => h.all_free hm u) rfl rfl (h.mutex.move (by rw [hpc]; rfl))
          trivial rfl (by rw [hpc]; rfl) (.inl rfl)
      | popMany count timeout | popOptional wait =>
        exact h.passes rfl rfl rfl (h.mutex.moveTake hm rfl) trivial (by rw [hpc]; nofun) rfl
          (by rw [hpc]; nofun)
  | popFront wait =>
    have hold : (s.pc t).holdsMutex := by rw [hpc]; rfl
    simp only [hpc] at hs
    obtain rfl := Option.some.inj hs
    split
    · exact h.finish hold _ _
    · split
      · exact h.passes rfl rfl rfl (h.mutex.move (by rw [hpc]; rfl)) trivial (by rw [hpc]; nofun) rfl
          (by rw [hpc]; nofun)
      · exact h.finish hold s.queue s.popCount
  | check wanted woken =>
    simp only [hpc] at hs
    obtain rfl := Option.some.inj hs
    split
    · rename_i hsat
      refine h.passes rfl rfl rfl (h.mutex.move (by rw [hpc]; rfl)) ?_ (fun _ => rfl) rfl
        (by rw [hpc]; nofun)
      cases wanted with
      | one =>
        refine hsat.imp_left fun hle heq => ?_
        simp [heq, Wanted.count] at hle
      | many => trivial
    · rename_i hunsat
      have hlt : s.queue.length < wanted.count := by
        by_contra hle
        exact hunsat (.inl (by omega))
      refine h.moves rfl rfl rfl (h.mutex.move (by rw [hpc]; rfl)) hlt (fun ht ⟨u, hu⟩ => ?_) nofun
        (fun hf => absurd (.inr hf) hunsat) (by rw [hpc]; nofun)
      cases woken with
      | false =>
        rw [hpc] at ht
        cases ht
      | true =>
        rw [hpc] at hok
        rcases hok with hsat | hnone | hother
        · exact absurd hsat hunsat
        · exact absurd hu (hnone u)
        · exact .inr hother
  | wait wanted =>
    rw [hpc] at hag
    have hag : s.queue.length < wanted.count := hag
    simp only [hpc] at hs
    obtain rfl := Option.some.inj hs
    refine h.moves rfl rfl rfl (h.mutex.moveDrop (by rw [hpc]; rfl) rfl) ?_ (by rw [hpc]; nofun) ?_
      (fun _ _ => by rw [hpc]; rfl) (by rw [hpc]; nofun)
    · show 0 < wanted.count
      omega
    · rintro _ heq
      obtain rfl := Pc.waiting.inj heq
      exact hag
  | relock wanted timedOut =>
    rw [hpc] at hag
    simp only [hpc] at hs
    split at hs
    · cases hs
    · rename_i hm
      have hm := isNone_of_not_isSome hm
      obtain rfl := Option.some.inj hs
      split
      · rename_i hout
        refine h.passes rfl rfl rfl (h.mutex.moveTake hm rfl) ?_ (fun _ => rfl) rfl (by rw [hpc]; nofun)
        cases wanted with
        | one => cases hag hout
        | many => trivial
      · exact h.passes rfl rfl rfl (h.mutex.moveTake hm rfl) trivial (fun _ => rfl) rfl
          (by rw [hpc]; nofun)
  | take wanted =>
    have hold : (s.pc t).holdsMutex := by rw [hpc]; rfl
    rw [hpc] at hag
    cases wanted with
    | one =>
      simp only [hpc] at hs
      split at hs
      · obtain rfl := Option.some.inj hs
        exact h.finish hold s.queue s.popCount
      · rename_i hf
        obtain rfl := Option.some.inj hs
        split
        · exact h.finish hold _ _
        · rename_i heq
          exact absurd hag (by simp [Pc.Agrees, heq, hf])
    | many count timeout =>
      simp only [hpc] at hs
      obtain rfl := Option.some.inj hs
      exact h.finish hold _ _
  | notify empty reply =>
    cases empty with
    | false => simp [hpc] at hs
    | true =>
      simp only [hpc] at hs
      obtain rfl := Option.some.inj hs
      have hpc' : s.notifyAllEmpty.pc t = .notify true reply := by
        simp [State.notifyAllEmpty, hpc, Pc.wakeEmpty]
      exact h.notifyAllEmpty.passes rfl rfl rfl (h.notifyAllEmpty.mutex.move (by rw [hpc']; rfl)) trivial
        (by rw [hpc']; nofun) rfl (by rw [hpc']; nofun)
  | leave reply =>
    simp only [hpc] at hs
    obtain rfl := Option.some.inj hs
    exact h.passes (t := t) (p := .idle) rfl rfl rfl (h.mutex.move (by rw [hpc]; rfl)) trivial
      (by rw [hpc]; nofun) rfl (by rw [hpc]; nofun)
  | emptyLock =>
    simp only [hpc] at hs
    split at hs
    · cases hs
    · rename_i hm
      obtain rfl := Option.some.inj hs
      exact h.passes rfl rfl rfl (h.mutex.moveTake (isNone_of_not_isSome hm) rfl) trivial
        (by rw [hpc]; nofun) rfl (by rw [hpc]; nofun)
  | emptyCheck =>
    simp only [hpc] at hs
    obtain rfl := Option.some.inj hs
    split
    · exact h.passes (t := t) (p := .idle) rfl rfl rfl (h.mutex.moveDrop (by rw [hpc]; rfl) rfl) trivial
        (by rw [hpc]; nofun) rfl (by rw [hpc]; nofun)
    · exact h.passes rfl rfl rfl (h.mutex.move (by rw [hpc]; rfl)) trivial (by rw [hpc]; nofun) rfl
        (by rw [hpc]; nofun)
  | emptyWait =>
    simp only [hpc] at hs
    obtain rfl := Option.some.inj hs
    exact h.passes rfl rfl rfl (h.mutex.moveDrop (by rw [hpc]; rfl) rfl) trivial
      (by rw [hpc]; nofun) rfl (by rw [hpc]; nofun)
  | shutdownSet =>
    simp only [hpc] at hs
    obtain rfl := Option.some.inj hs
    exact h.shutdownSet hpc
  | shutdownNotifyEmpty =>
    simp only [hpc] at hs
    obtain rfl := Option.some.inj hs
    have hpc' : s.notifyAllEmpty.pc t = .shutdownNotifyEmpty := by
      simp [State.notifyAllEmpty, hpc, Pc.wakeEmpty]
    exact h.notifyAllEmpty.passes rfl rfl rfl (h.notifyAllEmpty.mutex.move (by rw [hpc']; rfl)) trivial
      (by rw [hpc']; nofun) rfl (fun _ => rfl)
  | shutdownNotify =>
    rw [hpc] at hok
    simp only [hpc] at hs
    obtain rfl := Option.some.inj hs
    exact h.shutdownNotify hpc (h.not_aboutToWait hok)
  | shutdownDrain =>
    simp only [hpc] at hs
    split at hs
    · obtain rfl := Option.some.inj hs
      exact h.passes (t := t) (p := .idle) rfl rfl rfl (h.mutex.move (by rw [hpc]; rfl)) trivial
        (by rw [hpc]; nofun) rfl (by rw [hpc]; nofun)
    · cases hs

/-- A wake-up goes from the one who notifies to the one who is woken. -/
theorem Inv.notify [Fintype ι] (h : s.Inv) (hs : s.notify t pick = some s') : s'.Inv := by
  unfold State.notify at hs
  split at hs
  · rename_i reply hpc
    obtain ⟨s'', hs'', rfl⟩ := Option.map_eq_some_iff.mp hs
    cases pick with
    | none =>
      simp only [notifyOne] at hs''
      split at hs''
      · cases hs''
      · rename_i hnone
        obtain rfl := Option.some.inj hs''
        refine h.moves rfl rfl rfl (h.mutex.move (by rw [hpc]; rfl)) trivial ?_ nofun (fun _ => nofun)
          (by rw [hpc]; nofun)
        rintro - ⟨u, wanted, hu, -⟩
        exact absurd ⟨u, by rw [hu]; rfl⟩ hnone
    | some u =>
      simp only [notifyOne] at hs''
      split at hs''
      · rename_i hu
        obtain rfl := Option.some.inj hs''
        obtain ⟨wanted, hwaiting⟩ : ∃ wanted, s.pc u = .waiting wanted := by
          cases hpu : s.pc u <;> simp_all [Pc.isWaiting]
        have hne : t ≠ u := by
          rintro rfl
          simp [hpc] at hwaiting
        have hwoken : (s.goto u (s.pc u).wakeNotEmpty).Inv := by
          rw [hwaiting]
          exact h.passes rfl rfl rfl (h.mutex.move (by rw [hwaiting]; rfl)) nofun (fun _ => rfl) rfl
            (by rw [hwaiting]; nofun)
        have hpc' : (s.goto u (s.pc u).wakeNotEmpty).pc t = .notify false reply := by
          simp [hne, hpc]
        refine hwoken.moves rfl rfl rfl (hwoken.mutex.move (by rw [hpc']; rfl)) trivial (fun _ _ => ?_)
          nofun (fun _ => nofun) (by rw [hpc']; nofun)
        exact .inr ⟨u, hne.symm, by simp [hwaiting, Pc.wakeNotEmpty, Pc.isToken]⟩
      · cases hs''
  · cases hs

theorem Inv.step [Fintype ι] {x : Action ι T} (h : s.Inv) (hok : s.Careful x)
    (hs : s.step x = some s') : s'.Inv := by
  cases x with
  | call t call =>
    simp only [State.step] at hs
    split at hs
    · rename_i hpc
      obtain ⟨p, hentry, rfl⟩ := Option.map_eq_some_iff.mp hs
      have hplain : p.holdsMutex = false ∧ p.parked = false ∧ p.Agrees s.queue s.shutdownFlag := by
        cases call with
        | popMany count timeout =>
          simp only [entry] at hentry
          split at hentry
          · obtain rfl := Option.some.inj hentry
            exact ⟨rfl, rfl, trivial⟩
          · cases hentry
        | _ =>
          obtain rfl := Option.some.inj hentry
          exact ⟨rfl, rfl, trivial⟩
      exact h.passes rfl rfl rfl (h.mutex.move (by rw [hpc, hplain.1]; rfl)) hplain.2.2
        (by rw [hpc]; nofun) hplain.2.1 (by rw [hpc]; nofun)
    · cases hs
  | run t => exact h.run hok hs
  | notify t pick => exact h.notify hs
  | timeout t =>
    simp only [State.step] at hs
    split at hs
    · rename_i wanted hpc
      split at hs
      · rename_i htimed
        obtain rfl := Option.some.inj hs
        exact h.passes rfl rfl rfl (h.mutex.move (by rw [hpc]; rfl)) (fun _ => htimed) (fun _ => rfl) rfl
          (by rw [hpc]; nofun)
      · cases hs
    · rename_i wanted hpc
      split at hs
      · rename_i htimed
        obtain rfl := Option.some.inj hs
        exact h.passes rfl rfl rfl (h.mutex.move (by rw [hpc]; rfl)) (fun _ => htimed) (fun _ => rfl) rfl
          (by rw [hpc]; nofun)
      · cases hs
    · cases hs
  | spuriousWakeUp t =>
    simp only [State.step] at hs
    split at hs
    · rename_i wanted hpc
      obtain rfl := Option.some.inj hs
      exact h.passes rfl rfl rfl (h.mutex.move (by rw [hpc]; rfl)) nofun (fun _ => rfl) rfl
        (by rw [hpc]; nofun)
    · rename_i hpc
      obtain rfl := Option.some.inj hs
      exact h.passes rfl rfl rfl (h.mutex.move (by rw [hpc]; rfl)) trivial (by rw [hpc]; nofun) rfl
        (by rw [hpc]; nofun)
    · cases hs

-- ---------------------------------------------------------------------------
-- Quiescent states
-- ---------------------------------------------------------------------------

/-- No thread can step; the next call, a timeout and a spurious wake-up do not count. -/
def Quiescent [Fintype ι] (s : State ι T) : Prop :=
  ∀ t, s.run t = none ∧ ∀ pick, s.notify t pick = none

/-- A `notify_one` can always be carried out. -/
theorem exists_notify [Fintype ι] (hpc : s.pc t = .notify false reply) :
    ∃ pick, s.notify t pick ≠ none := by
  by_cases hw : ∃ u, (s.pc u).isWaiting
  · obtain ⟨u, hu⟩ := hw
    exact ⟨some u, by simp [State.notify, hpc, notifyOne, hu]⟩
  · exact ⟨none, by simp [State.notify, hpc, notifyOne, hw]⟩

/-- Why a thread cannot step. -/
def Blocked (s : State ι T) : Pc T → Prop
  | .idle | .waiting _ | .emptyWaiting | .crashed | .shutdownDrain => True
  | .lock _ | .relock _ _ | .emptyLock => s.mutex ≠ none
  | _ => False

theorem Quiescent.blocked [Fintype ι] (hq : s.Quiescent) (t : ι) : s.Blocked (s.pc t) := by
  obtain ⟨hrun, hnotify⟩ := hq t
  unfold State.run at hrun
  cases hpc : s.pc t with
  | idle | waiting | emptyWaiting | crashed | shutdownDrain => trivial
  | lock | relock | emptyLock =>
    simp only [hpc] at hrun
    split at hrun
    · rename_i hm
      exact fun heq => by simp [heq] at hm
    · cases hrun
  | notify empty reply =>
    cases empty with
    | true => simp [hpc] at hrun
    | false =>
      obtain ⟨pick, hpick⟩ := exists_notify hpc
      exact hpick (hnotify pick)
  | take wanted => cases wanted <;> simp [hpc] at hrun
  | _ => simp [hpc] at hrun

theorem Inv.mutex_free [Fintype ι] (h : s.Inv) (hq : s.Quiescent) : s.mutex = none := by
  rcases h.mutex.exists_holder with hnone | ⟨t, ht⟩
  · exact hnone
  · have hb := hq.blocked t
    have hag := h.agrees t
    cases hpc : s.pc t <;> simp_all [Pc.holdsMutex, Blocked]

/-- No waiter of `m_not_empty_cond` has a true predicate. -/
def NoneStranded (s : State ι T) : Prop :=
  ∀ t wanted, s.pc t = .waiting wanted → s.queue.length < wanted.count ∧ s.shutdownFlag = false

theorem Inv.atRest [Fintype ι] (h : s.Inv) (hq : s.Quiescent) : s.NoneStranded := by
  intro t wanted hpc
  constructor
  · by_contra hle
    obtain ⟨u, hu⟩ := h.awake t ⟨wanted, hpc, by omega⟩
    have hb := hq.blocked u
    have hm := h.mutex_free hq
    cases hpu : s.pc u <;> simp_all [Pc.isToken, Blocked]
  · by_contra hf
    obtain ⟨u, hu⟩ := h.notifies (by simpa using hf) t (by rw [hpc]; rfl)
    have hb := hq.blocked u
    cases hpu : s.pc u <;> simp_all [Pc.notifying, Blocked]

/-- Where no wake-up is dropped and `shutdown` does not notify too early, no
waiter is stranded. -/
theorem noneStranded [Fintype ι] (h : ReachesBy step Careful ({} : State ι T) s)
    (hq : s.Quiescent) : s.NoneStranded :=
  (h.invariant Inv.empty fun hi hok hs => hi.step hok hs).atRest hq

-- ---------------------------------------------------------------------------
-- Kept and lost wake-ups
-- ---------------------------------------------------------------------------

instance (s : State ι T) (t : ι) : Decidable (s.Hungry t) :=
  match hpc : s.pc t with
  | .waiting wanted =>
    decidable_of_iff (wanted.count ≤ s.queue.length)
      ⟨fun hle => ⟨wanted, hpc, hle⟩, fun ⟨_, heq, hle⟩ => Pc.waiting.inj (hpc.symm.trans heq) ▸ hle⟩
  | .idle | .gateTest _ | .gateCount _ | .gateRetest _ | .gateUndo _ | .lock _ | .popFront _
  | .check _ _ | .wait _ | .relock _ _ | .take _ | .notify _ _ | .leave _ | .emptyLock | .emptyCheck
  | .emptyWait | .emptyWaiting | .shutdownSet | .shutdownNotifyEmpty | .shutdownNotify
  | .shutdownDrain | .crashed => isFalse fun ⟨_, heq, _⟩ => nomatch hpc.symm.trans heq

instance (s : State ι T) (wanted : Wanted) : Decidable (s.Satisfied wanted) :=
  inferInstanceAs (Decidable (_ ∨ _))

instance [Fintype ι] (s : State ι T) (t : ι) (p : Pc T) : Decidable (s.CarefulAt t p) := by
  rcases p with _ | _ | _ | _ | _ | _ | _ | ⟨wanted, _ | _⟩ | _ | _ | _ | _ | _ | _ | _ | _ | _ | _ |
    _ | _ | _ | _ | _ <;>
  first
  | exact isTrue trivial
  | exact inferInstanceAs (Decidable (s.Satisfied wanted ∨ (∀ u, ¬s.Hungry u) ∨
      ∃ v, v ≠ t ∧ (s.pc v).isToken))
  | exact inferInstanceAs (Decidable (∀ u ∈ s.mutex, (s.pc u).aboutToWait = false))

instance [Fintype ι] (s : State ι T) (x : Action ι T) : Decidable (s.Careful x) :=
  match x with
  | .run t => inferInstanceAs (Decidable (s.CarefulAt t (s.pc t)))
  | .call _ _ | .notify _ _ | .timeout _ | .spuriousWakeUp _ => isTrue trivial

instance [Fintype ι] (s : State ι T) : Decidable s.Quiescent :=
  inferInstanceAs (Decidable (∀ t, s.run t = none ∧ ∀ pick, s.notify t pick = none))

def runs (t : Fin 3) (n : Nat) : List (Action (Fin 3) Nat) := List.replicate n (.run t)

/-- A pop of two items is woken by the first one and waits again. -/
def wakeUpKept : List (Action (Fin 3) Nat) :=
  .call 0 (.popMany 2 0) :: runs 0 6 ++ .call 1 (.push 7) :: runs 1 4 ++
  .notify 1 (some 0) :: runs 1 1 ++ runs 0 3

theorem noneStranded_wakeUpKept :
    ((execBy step Careful {} wakeUpKept).get (by decide)).NoneStranded :=
  noneStranded (.of_execBy (Option.some_get _).symm) (by decide)

/-- Another pop, of one item, waits too: the only wake-up goes to the one that
cannot use it. -/
def wakeUpDropped : List (Action (Fin 3) Nat) :=
  .call 0 (.popMany 2 0) :: runs 0 6 ++ .call 2 .pop :: runs 2 7 ++ .call 1 (.push 7) :: runs 1 4 ++
  .notify 1 (some 0) :: runs 1 1 ++ runs 0 3

/-- `shutdown` notifies between the look at the flag and the wait of a pop. -/
def shutDownTooEarly : List (Action (Fin 3) Nat) :=
  .call 0 .pop :: runs 0 6 ++ .call 1 .shutdown :: runs 1 3 ++ runs 0 1

theorem stranded_wakeUpDropped_shutDownTooEarly :
    (((exec step {} wakeUpDropped).get (by decide)).Quiescent ∧
      ¬((exec step {} wakeUpDropped).get (by decide)).NoneStranded) ∧
    ((exec step {} shutDownTooEarly).get (by decide)).Quiescent ∧
      ¬((exec step {} shutDownTooEarly).get (by decide)).NoneStranded := by
  refine ⟨⟨by decide, fun h => ?_⟩, by decide, fun h => ?_⟩
  · exact absurd (h 2 .one rfl).1 (by decide)
  · exact absurd (h 0 .one rfl).2 (by decide)

end State
end Dmn.BlockingQueueMt
