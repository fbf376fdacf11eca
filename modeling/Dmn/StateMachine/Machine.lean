import Dmn.Lib.Transition
import Mathlib.Data.List.Basic
import Mathlib.Order.Basic

/-!
# The caller-driven state machine

`Dmn_State`: callbacks in numbered slots, and the number of the next one. What a callback does is up
to the client, so an invocation is a list of calls on the machine that it makes, and whether it
throws in the end. The lifecycle hooks do nothing here.
-/

namespace Dmn.StateMachine

open Dmn.Lib

inductive Exn
  | logicError (what : String)
  | invalidArgument (what : String)
  | outOfRange (what : String)
  -- What a callback threw.
  | callback
  deriving DecidableEq, Repr

/-- An invocation of a callback, with what selected it. -/
structure Invocation (κ : Type) where
  fn : κ
  next : Int
  size : Int
  deriving DecidableEq

structure Machine (κ : Type) where
  next : Int := 0
  -- The callbacks of the slots from 1 on; slot 0 is a placeholder.
  states : List κ := []
  initialized : Bool := false
  finalized : Bool := false
  runningStateCallback : Bool := false
  -- History: the callbacks that `runNext` invoked.
  invoked : List (Invocation κ) := []
  -- History: no transition call and no invocation came after the last `setEnd`.
  ended : Bool := false
  -- History: a callback was appended after it.
  appended : Bool := false

/-- The calls that a client or a callback makes; an empty function object is `none`. -/
inductive Call (κ : Type)
  | setStateFnc (fnc : Option κ) (index : Int)
  | setNext
  | setNextTo (index : Int)
  | setEnd
  | runNext

/-- What a callback does while it runs. -/
structure Body (κ : Type) where
  calls : List (Call κ)
  throws : Bool

structure Outcome (κ : Type) (β : Type) where
  machine : Machine κ
  result : Except Exn β

namespace Machine

variable {κ : Type}

/-- `m_states.size()` -/
def size (s : Machine κ) : Int := s.states.length + 1

def hasStateFncs (s : Machine κ) : Bool := s.size > 1

/-- `operator bool` -/
def live (s : Machine κ) : Bool := s.hasStateFncs && !s.finalized

def finalize (s : Machine κ) : Machine κ := { s with finalized := true }

def setEnd (s : Machine κ) : Machine κ :=
  { s with next := s.size, ended := true, appended := false }

def setNextTo (s : Machine κ) (index : Int) : Outcome κ Unit :=
  if index ≤ 0 ∨ index > s.size then
    ⟨s, .error (.outOfRange "setNext: index must select a user state or the end")⟩
  else ⟨{ s with next := index, ended := false }, .ok ()⟩

/-- Nothing comes back from a failed assertion. -/
def setNext (s : Machine κ) : Option (Machine κ) :=
  if 0 ≤ s.next ∧ s.next < s.size then some { s with next := s.next + 1, ended := false } else none

def setStateFnc (s : Machine κ) (fnc : Option κ) (index : Int) : Outcome κ Unit :=
  if s.runningStateCallback then
    ⟨s, .error (.logicError "setStateFnc: cannot modify callbacks while a state is running")⟩
  else match fnc with
    | none => ⟨s, .error (.invalidArgument "setStateFnc: callback must not be empty")⟩
    | some fnc =>
      if index < 0 then ⟨s, .error (.outOfRange "setStateFnc: index must be >= 0")⟩
      else if index = s.size ∨ index = 0 then
        ⟨{ s with states := s.states ++ [fnc], appended := true }, .ok ()⟩
      else if index < s.size then
        ⟨{ s with states := s.states.set (index.toNat - 1) fnc }, .ok ()⟩
      else ⟨s, .error (.outOfRange "setStateFnc: cannot skip steps; index too large")⟩

def init (s : Machine κ) : Outcome κ Unit :=
  let o := s.setNextTo 1
  match o.result with
  | .ok () => ⟨{ o.machine with initialized := true }, .ok ()⟩
  | .error exn => ⟨o.machine, .error exn⟩

/-- A call from outside of `runNext` or from the running callback, which may catch what the call
throws. A recursive `runNext` throws at once. -/
def perform (s : Machine κ) : Call κ → Option (Machine κ)
  | .setStateFnc fnc index => some (s.setStateFnc fnc index).machine
  | .setNext => s.setNext
  | .setNextTo index => some (s.setNextTo index).machine
  | .setEnd => some s.setEnd
  | .runNext => if s.runningStateCallback then some s else none

def performAll (s : Machine κ) : List (Call κ) → Option (Machine κ)
  | [] => some s
  | call :: calls => (s.perform call).bind (performAll · calls)

def enter (s : Machine κ) (fn : κ) : Machine κ :=
  { s with
    runningStateCallback := true
    invoked := s.invoked ++ [⟨fn, s.next, s.size⟩]
    ended := false }

def leave (s : Machine κ) (throws : Bool) : Outcome κ Bool :=
  let s := { s with runningStateCallback := false }
  if throws then ⟨s, .error .callback⟩
  else
    let s := if s.next ≥ s.size then s.finalize else s
    ⟨s, .ok s.live⟩

/-- How `runNext` goes on: it returns or throws, it invokes a callback, or an assertion fails. -/
inductive Selection (κ : Type)
  | done (o : Outcome κ Bool)
  | invoke (s : Machine κ) (fn : κ)
  | fails

/-- `runNext` up to the invocation. -/
def select (s : Machine κ) : Selection κ :=
  if s.runningStateCallback then
    .done ⟨s, .error (.logicError "runNext: recursive calls are not allowed")⟩
  else if s.finalized then .done ⟨s, .ok false⟩
  else if s.next > s.size then .fails
  else
    -- a selected end takes precedence over initialization
    let ready : Outcome κ Unit :=
      if s.next ≥ s.size then { machine := s.finalize, result := .ok () }
      else if !s.initialized then s.init
      else { machine := s, result := .ok () }
    let s := ready.machine
    match ready.result with
    | .error exn => .done ⟨s, .error exn⟩
    | .ok () =>
      if s.finalized then .done ⟨s, .ok false⟩
      else if s.next ≥ s.size then .done ⟨s.finalize, .ok false⟩
      else if s.next > 0 then
        match s.states[s.next.toNat - 1]? with
        | some fn => .invoke s fn
        | none => .fails
      else .fails

/-- `runNext`; the callback that it invokes, if any, behaves like `body`. -/
def runNext (s : Machine κ) (body : Body κ) : Option (Outcome κ Bool) :=
  match s.select with
  | .done o => some o
  | .invoke s fn => ((s.enter fn).performAll body.calls).map fun s => s.leave body.throws
  | .fails => none

inductive Action (κ : Type)
  | call (c : Call κ)
  | runNext (body : Body κ)

def step (s : Machine κ) : Action κ → Option (Machine κ)
  | .call c => s.perform c
  | .runNext body => (s.runNext body).map (·.machine)

-- ---------------------------------------------------------------------------
-- The selected slot
-- ---------------------------------------------------------------------------

/-- A slot or the end is selected, and a `setEnd` selects the end as long as nothing is appended. -/
structure Selected (s : Machine κ) : Prop where
  low : 0 ≤ s.next
  high : s.next ≤ s.size
  started : s.initialized ∨ s.ended → 1 ≤ s.next
  atEnd : s.ended → s.appended = false → s.next = s.size
  behind : s.ended → s.appended → s.next < s.size

theorem size_pos (s : Machine κ) : 1 ≤ s.size := by
  unfold size
  omega

theorem Selected.new : Selected ({} : Machine κ) := by
  constructor <;> simp [size]

/-- A slot that is selected by a client. -/
theorem Selected.select {s' : Machine κ} (positive : 1 ≤ s'.next) (high : s'.next ≤ s'.size)
    (free : s'.ended = false) : s'.Selected where
  low := by omega
  high := high
  started _ := positive
  atEnd ended := by simp [free] at ended
  behind ended := by simp [free] at ended

theorem Selected.setEnd (s : Machine κ) : s.setEnd.Selected where
  low := by
    have := s.size_pos
    show 0 ≤ s.size
    omega
  high := Int.le_refl _
  started _ := s.size_pos
  atEnd _ _ := rfl
  behind _ := nofun

theorem Selected.setNextTo {s : Machine κ} (h : s.Selected) (index : Int) :
    (s.setNextTo index).machine.Selected := by
  unfold Machine.setNextTo
  split
  · exact h
  · next inside =>
    have bounds : 0 < index ∧ index ≤ s.size := by omega
    exact .select bounds.1 bounds.2 rfl

theorem Selected.setStateFnc {s : Machine κ} (h : s.Selected) (fnc : Option κ) (index : Int) :
    (s.setStateFnc fnc index).machine.Selected := by
  unfold Machine.setStateFnc
  split
  · exact h
  · split
    · exact h
    · split
      · exact h
      · split
        · next fnc _ _ =>
          -- one slot more, and the end is not where it was
          have longer : ({ s with states := s.states ++ [fnc], appended := true } :
              Machine κ).size = s.size + 1 := by
            simp [size]
          have high := h.high
          exact ⟨h.low, by rw [longer]; exact Int.le_add_one high, h.started, fun _ => nofun,
            fun _ _ => by rw [longer]; exact Int.lt_add_one_of_le high⟩
        · split
          · next fnc _ _ _ =>
            have same : ({ s with states := s.states.set (index.toNat - 1) fnc } :
                Machine κ).size = s.size := by
              simp [size]
            exact ⟨h.low, by rw [same]; exact h.high, h.started,
              fun ended kept => by rw [same]; exact h.atEnd ended kept,
              fun ended added => by rw [same]; exact h.behind ended added⟩
          · exact h

theorem Selected.perform {s s' : Machine κ} (h : s.Selected) {c : Call κ}
    (performed : s.perform c = some s') : s'.Selected := by
  cases c with
  | setStateFnc fnc index =>
    cases performed
    exact h.setStateFnc fnc index
  | setNext =>
    have performed : s.setNext = some s' := performed
    unfold Machine.setNext at performed
    split at performed
    · next inside =>
      cases performed
      have bounds : 1 ≤ s.next + 1 ∧ s.next + 1 ≤ s.size := by omega
      exact .select bounds.1 bounds.2 rfl
    · cases performed
  | setNextTo index =>
    cases performed
    exact h.setNextTo index
  | setEnd =>
    cases performed
    exact .setEnd s
  | runNext =>
    have performed : (if s.runningStateCallback then some s else none) = some s' := performed
    split at performed
    · cases performed
      exact h
    · cases performed

/-- What no call but `runNext` changes. -/
structure Framed (s s' : Machine κ) : Prop where
  invoked : s'.invoked = s.invoked
  finalized : s'.finalized = s.finalized
  running : s'.runningStateCallback = s.runningStateCallback

theorem perform_framed {s s' : Machine κ} {c : Call κ} (performed : s.perform c = some s') :
    Framed s s' := by
  cases c with
  | setStateFnc fnc index =>
    cases performed
    unfold setStateFnc
    grind [Framed]
  | setNext =>
    have performed : s.setNext = some s' := performed
    unfold setNext at performed
    grind [Framed]
  | setNextTo index =>
    cases performed
    unfold setNextTo
    grind [Framed]
  | setEnd =>
    cases performed
    exact ⟨rfl, rfl, rfl⟩
  | runNext =>
    have performed : (if s.runningStateCallback then some s else none) = some s' := performed
    grind [Framed]

/-- A running callback cannot append, so its `setEnd` stays one. -/
theorem perform_kept {s s' : Machine κ} {c : Call κ} (running : s.runningStateCallback = true)
    (performed : s.perform c = some s') (kept : s.ended → s.appended = false) :
    s'.ended → s'.appended = false := by
  cases c with
  | setStateFnc fnc index =>
    cases performed
    unfold setStateFnc
    rw [if_pos running]
    exact kept
  | setNext =>
    have performed : s.setNext = some s' := performed
    unfold setNext at performed
    grind
  | setNextTo index =>
    cases performed
    unfold setNextTo
    grind
  | setEnd =>
    cases performed
    exact fun _ => rfl
  | runNext =>
    have performed : (if s.runningStateCallback then some s else none) = some s' := performed
    grind

/-- What holds inside of a callback, from its invocation on. -/
structure Within (start s : Machine κ) : Prop where
  selected : s.Selected
  framed : Framed start s
  kept : s.ended → s.appended = false

theorem performAll_within {start s s' : Machine κ} {calls : List (Call κ)}
    (running : start.runningStateCallback = true) (w : Within start s)
    (performed : s.performAll calls = some s') : Within start s' := by
  induction calls generalizing s with
  | nil =>
    cases performed
    exact w
  | cons c calls ih =>
    obtain ⟨t, first, rest⟩ := Option.bind_eq_some_iff.mp performed
    have framed := perform_framed first
    refine ih ⟨w.selected.perform first, ⟨?_, ?_, ?_⟩, ?_⟩ rest
    · rw [framed.invoked, w.framed.invoked]
    · rw [framed.finalized, w.framed.finalized]
    · rw [framed.running, w.framed.running]
    · exact perform_kept (w.framed.running.trans running) first w.kept

-- ---------------------------------------------------------------------------
-- runNext
-- ---------------------------------------------------------------------------

/-- How `runNext` goes on between two calls of the client. -/
inductive Selects (s : Machine κ) : Selection κ → Prop
  | past : s.finalized = true → Selects s (.done ⟨s, .ok false⟩)
  | ending (o : Machine κ) : s.finalized = false → s.next = s.size ∨ s.states = [] →
      o.Selected → o.finalized = true → o.invoked = s.invoked → o.runningStateCallback = false →
      Selects s (.done ⟨o, .ok false⟩)
  | invoking (s' : Machine κ) (fn : κ) : s.finalized = false → s.next < s.size →
      s'.Selected → 1 ≤ s'.next → s'.next < s'.size → s'.finalized = false →
      s'.invoked = s.invoked → s'.runningStateCallback = false → Selects s (.invoke s' fn)

theorem Selected.finalize {s : Machine κ} (h : s.Selected) : s.finalize.Selected := by
  obtain ⟨low, high, started, atEnd, behind⟩ := h
  exact ⟨low, high, started, atEnd, behind⟩

/-- Initialization selects the first slot, or the end of an empty machine. -/
def begun (s : Machine κ) : Machine κ := { s with next := 1, ended := false, initialized := true }

@[simp] theorem begun_next (s : Machine κ) : s.begun.next = 1 := rfl
@[simp] theorem begun_size (s : Machine κ) : s.begun.size = s.size := rfl
@[simp] theorem begun_states (s : Machine κ) : s.begun.states = s.states := rfl
@[simp] theorem begun_finalized (s : Machine κ) : s.begun.finalized = s.finalized := rfl

theorem init_eq (s : Machine κ) : s.init = ⟨s.begun, .ok ()⟩ := by
  have inside : ¬ ((1 : Int) ≤ 0 ∨ 1 > s.size) := by
    have := s.size_pos
    omega
  rw [init, setNextTo, if_neg inside]
  rfl

theorem selected_slot {s : Machine κ} (low : 1 ≤ s.next) (high : s.next < s.size) :
    ∃ fn, s.states[s.next.toNat - 1]? = some fn := by
  have inside : s.next.toNat - 1 < s.states.length := by
    unfold size at high
    omega
  exact ⟨_, List.getElem?_eq_getElem inside⟩

theorem select_selects {s : Machine κ} (h : s.Selected) (idle : s.runningStateCallback = false) :
    Selects s s.select := by
  have high := h.high
  unfold select
  rw [if_neg (by simp [idle])]
  split
  · next h => exact .past h
  · next live =>
    have live : s.finalized = false := by simpa using live
    rw [if_neg (by omega)]
    by_cases atEnd : s.next ≥ s.size
    · simp only [if_pos atEnd]
      exact .ending s.finalize live (.inl (by omega)) h.finalize rfl rfl idle
    · simp only [if_neg atEnd]
      by_cases started : s.initialized = true
      · have low := h.started (.inl started)
        obtain ⟨fn, slot⟩ := selected_slot low (by omega)
        simp only [started, Bool.not_true, Bool.false_eq_true, if_false, live, if_neg atEnd,
          if_pos (show s.next > 0 by omega), slot]
        exact .invoking s fn live (by omega) h low (by omega) live rfl idle
      · have first : s.begun.Selected := .select (Int.le_refl 1) s.size_pos rfl
        simp only [started, Bool.not_false, if_true, init_eq, begun_finalized, live, begun_next,
          begun_size, Bool.false_eq_true, if_false]
        split
        · next empty =>
          refine .ending _ live (.inr ?_) first.finalize rfl rfl idle
          unfold size at empty
          exact List.length_eq_zero_iff.mp (by omega)
        · next nonempty =>
          have below : s.begun.next < s.begun.size := by
            rw [begun_next, begun_size]
            omega
          obtain ⟨fn, slot⟩ := selected_slot (Int.le_refl 1) below
          rw [begun_next] at slot
          simp only [if_pos (show (1 : Int) > 0 by decide), slot]
          exact .invoking _ fn live (by omega) first (Int.le_refl 1) below live rfl idle

/-- What an invoked callback leaves. -/
theorem within_enter {s : Machine κ} (h : s.Selected) (fn : κ) (low : 1 ≤ s.next) :
    Within (s.enter fn) (s.enter fn) :=
  ⟨.select low h.high rfl, ⟨rfl, rfl, rfl⟩, nofun⟩

/-- A call of `runNext` that came back: without an invocation the machine is finalized, with one the
callback of the selected slot was invoked once. -/
inductive Ran (s : Machine κ) (body : Body κ) (o : Outcome κ Bool) : Prop
  | returned : o.machine.Selected → o.machine.finalized = true →
      o.machine.invoked = s.invoked → o.machine.runningStateCallback = false →
      (s.finalized = true → o.machine = s) → Ran s body o
  | invoked (i : Invocation κ) : s.finalized = false → s.next < s.size → o.machine.Selected →
      1 ≤ i.next → i.next < i.size → o.machine.invoked = s.invoked ++ [i] →
      o.machine.runningStateCallback = false →
      (o.result ≠ .error .callback → o.machine.ended = true → o.machine.finalized = true) →
      Ran s body o

theorem Selected.leave {s : Machine κ} (h : s.Selected) (throws : Bool) :
    (s.leave throws).machine.Selected := by
  obtain ⟨low, high, started, atEnd, behind⟩ := h
  unfold Machine.leave
  simp only
  split
  · exact ⟨low, high, started, atEnd, behind⟩
  · split <;> exact ⟨low, high, started, atEnd, behind⟩

theorem leave_frame (s : Machine κ) (throws : Bool) :
    (s.leave throws).machine.invoked = s.invoked ∧
      (s.leave throws).machine.runningStateCallback = false ∧
      (s.leave throws).machine.ended = s.ended := by
  unfold leave
  simp only
  split
  · exact ⟨rfl, rfl, rfl⟩
  · split <;> exact ⟨rfl, rfl, rfl⟩

/-- A callback that returned with the end selected is the last one. -/
theorem leave_finalizes {s : Machine κ} {throws : Bool} (atEnd : s.next = s.size)
    (returned : (s.leave throws).result ≠ .error .callback) :
    (s.leave throws).machine.finalized = true := by
  unfold leave at returned ⊢
  simp only at returned ⊢
  split
  · next threw => simp [threw] at returned
  · have reached : s.next ≥ s.size := by omega
    rw [if_pos (show ({ s with runningStateCallback := false } : Machine κ).next ≥
      ({ s with runningStateCallback := false } : Machine κ).size from reached)]
    rfl

theorem runNext_ran {s : Machine κ} (h : s.Selected) (idle : s.runningStateCallback = false)
    {body : Body κ} {o : Outcome κ Bool} (ran : s.runNext body = some o) : Ran s body o := by
  have selects := select_selects h idle
  unfold runNext at ran
  cases eq : s.select with
  | done o' =>
    rw [eq] at ran selects
    cases ran
    cases selects with
    | past ended => exact .returned h ended rfl idle fun _ => rfl
    | ending o live atEnd selected finalized invoked idle' =>
      exact .returned selected finalized invoked idle' fun past => by simp [live] at past
  | invoke s' fn =>
    rw [eq] at ran selects
    obtain ⟨left, performed, rfl⟩ := Option.map_eq_some_iff.mp ran
    cases selects with
    | invoking _ _ live inside selected low high live' invoked idle' =>
      have w := performAll_within rfl (within_enter selected fn low) performed
      obtain ⟨kept, idle'', ended⟩ := leave_frame left body.throws
      refine .invoked ⟨fn, s'.next, s'.size⟩ live inside (w.selected.leave _) low high ?_ idle''
        fun returned last => ?_
      · rw [kept, w.framed.invoked, ← invoked]
        rfl
      · rw [ended] at last
        exact leave_finalizes (w.selected.atEnd last (w.kept last)) returned
  | fails =>
    rw [eq] at selects
    cases selects

-- ---------------------------------------------------------------------------
-- Ending a machine
-- ---------------------------------------------------------------------------

/-- What ending a machine promises, in one state of it. -/
structure Definite (s : Machine κ) : Prop where
  bounds : 0 ≤ s.next ∧ s.next ≤ s.size
  -- No assertion of `runNext` fails.
  holds : s.select ≠ .fails
  once : ∀ body o, s.runNext body = some o → o.machine.invoked = s.invoked ∨
    ∃ i, o.machine.invoked = s.invoked ++ [i] ∧ 1 ≤ i.next ∧ i.next < i.size
  -- After a `setEnd` the next `runNext` finalizes.
  ends : s.ended = true → ∀ body o, s.runNext body = some o →
    o.machine.finalized = true ∧ o.machine.invoked = s.invoked
  -- A callback whose last transition was a `setEnd`, and which returns.
  endsItself : ∀ body o, s.runNext body = some o → o.result ≠ .error .callback →
    o.machine.ended = true → o.machine.finalized = true
  past : s.finalized = true → ∀ t, Reaches step s t →
    t.finalized = true ∧ t.invoked = s.invoked

/-- Between the calls of the client no callback runs. -/
structure Idle (s : Machine κ) : Prop where
  selected : s.Selected
  idle : s.runningStateCallback = false

theorem Idle.step {s t : Machine κ} (h : s.Idle) {a : Action κ} (ha : s.step a = some t) :
    t.Idle := by
  cases a with
  | call c =>
    exact ⟨h.selected.perform ha, (perform_framed ha).running.trans h.idle⟩
  | runNext body =>
    obtain ⟨o, ran, rfl⟩ := Option.map_eq_some_iff.mp ha
    cases runNext_ran h.selected h.idle ran with
    | returned selected _ _ idle _ => exact ⟨selected, idle⟩
    | invoked _ _ _ selected _ _ _ idle _ => exact ⟨selected, idle⟩

theorem idle_of_reaches {s : Machine κ} (run : Reaches step ({} : Machine κ) s) : s.Idle :=
  run.invariant ⟨.new, rfl⟩ fun h _ ha => h.step ha

theorem Idle.past {s t : Machine κ} (h : s.Idle) (past : s.finalized = true)
    (run : Reaches Machine.step s t) : t.Idle ∧ t.finalized = true ∧ t.invoked = s.invoked := by
  refine run.invariant (I := fun t => t.Idle ∧ t.finalized = true ∧ t.invoked = s.invoked)
    ⟨h, past, rfl⟩ fun {t a t'} ⟨h, past, same⟩ _ ha => ⟨h.step ha, ?_⟩
  cases a with
  | call c =>
    have framed := perform_framed ha
    exact ⟨framed.finalized.trans past, framed.invoked.trans same⟩
  | runNext body =>
    obtain ⟨o, ran, rfl⟩ := Option.map_eq_some_iff.mp ha
    cases runNext_ran h.selected h.idle ran with
    | returned _ _ _ _ still =>
      rw [still past]
      exact ⟨past, same⟩
    | invoked _ live => simp [past] at live

theorem Idle.not_fails {s : Machine κ} (h : s.Idle) : s.select ≠ .fails := fun fails => by
  have selects := select_selects h.selected h.idle
  rw [fails] at selects
  cases selects

/-- A callback that does nothing is invoked. -/
theorem Idle.invokes {s : Machine κ} (h : s.Idle) (live : s.finalized = false)
    (low : 1 ≤ s.next) (high : s.next < s.size) :
    ∃ o, s.runNext ⟨[], false⟩ = some o ∧ o.machine.invoked ≠ s.invoked := by
  have selects := select_selects h.selected h.idle
  unfold runNext
  cases eq : s.select with
  | done o =>
    rw [eq] at selects
    cases selects with
    | past ended => simp [ended] at live
    | ending _ _ atEnd =>
      rcases atEnd with atEnd | empty
      · omega
      · simp [size, empty] at high
        omega
  | invoke s' fn =>
    rw [eq] at selects
    cases selects with
    | invoking _ _ _ _ _ _ _ _ same _ =>
      refine ⟨_, rfl, fun stays => ?_⟩
      rw [(leave_frame _ _).1] at stays
      simp [enter, same] at stays
  | fails => exact absurd eq h.not_fails

/-- In every history: all of it holds exactly in the states in which nothing was appended since a
`setEnd` that is yet to take effect. -/
theorem definite_iff {s : Machine κ} (run : Reaches step ({} : Machine κ) s) :
    s.Definite ↔ ¬ (s.ended = true ∧ s.appended = true ∧ s.finalized = false) := by
  have h := idle_of_reaches run
  constructor
  · rintro definite ⟨ended, appended, live⟩
    obtain ⟨o, ran, more⟩ := h.invokes live (h.selected.started (.inr ended))
      (h.selected.behind ended appended)
    exact more (definite.ends ended _ o ran).2
  · intro kept
    refine ⟨⟨h.selected.low, h.selected.high⟩, h.not_fails, fun body o ran => ?_,
      fun ended body o ran => ?_, fun body o ran returned ended => ?_,
      fun past t later => (h.past past later).2⟩
    · cases runNext_ran h.selected h.idle ran with
      | returned _ _ same => exact .inl same
      | invoked i _ _ _ low high more => exact .inr ⟨i, more, low, high⟩
    · cases runNext_ran h.selected h.idle ran with
      | returned _ finalized same => exact ⟨finalized, same⟩
      | invoked _ live inside =>
        have free : s.appended = false := by
          by_contra added
          exact kept ⟨ended, by simpa using added, live⟩
        have atEnd := h.selected.atEnd ended free
        omega
    · cases runNext_ran h.selected h.idle ran with
      | returned _ finalized => exact finalized
      | invoked _ _ _ _ _ _ _ _ last => exact last returned ended

/-- One callback, which ends the machine and throws. -/
def endingThrow : List (Action Unit) :=
  [.call (.setStateFnc (some ()) 0), .runNext ⟨[.setEnd], true⟩]

theorem definite_iff_ended :
    ∃ s, Reaches step ({} : Machine Unit) s ∧ s.ended = true ∧ s.Definite := by
  have reached : ∃ s : Machine Unit, Reaches step {} s ∧ s.ended = true ∧ s.appended = false :=
    ReachesBy.exists_of_any endingThrow (by decide)
  obtain ⟨s, run, ended, free⟩ := reached
  exact ⟨s, run, ended, (definite_iff run).mpr fun stale => by simp [free] at stale⟩

/-- The end is selected, and then a callback appended: its slot is the one that was the end. -/
def endingEarly : List (Action Unit) :=
  [.call (.setStateFnc (some ()) 0), .call .setEnd, .call (.setStateFnc (some ()) 0)]

theorem definite_stale : ¬ ∀ s, Reaches step ({} : Machine Unit) s → s.Definite := by
  intro all
  have reached : ∃ s : Machine Unit, Reaches step {} s ∧ s.ended = true ∧
      (s.runNext ⟨[], false⟩).any (·.machine.finalized == false) = true :=
    ReachesBy.exists_of_any endingEarly (by decide)
  obtain ⟨s, run, ended, invokes⟩ := reached
  obtain ⟨o, ran, live⟩ := (Option.any_eq_true _ _).mp invokes
  have finalized := ((all s run).ends ended _ o ran).1
  simp [finalized] at live

end Machine
end Dmn.StateMachine
