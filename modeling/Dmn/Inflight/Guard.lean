import Dmn.Lib.Transition
import Dmn.Lib.Census

/-!
# The in-flight gate

`Dmn_Inflight_Guard` under any schedule. A constructor or destructor of a ticket is cut at every
atomic operation and at the calls of the derived class; one more thread closes the gate and waits
for the tickets. An index stands for one ticket at a time, so a thread that holds several tickets is
several of them.
-/

namespace Dmn.Inflight

open Lib

/-- Where a ticket is. -/
inductive Pc (T : Type) where
  | idle
  -- At the first call of `isInflightGuardClosed`.
  | test
  | count
  | retest
  | undo
  | undoNotify
  -- In `enterInflightGuardFnc`.
  | enter
  | rollback
  | rollbackNotify
  | held (value : T)
  -- In `leaveInflightGuardFnc`.
  | leave (value : T)
  | release
  | releaseNotify
  deriving DecidableEq

/-- Where the thread is that closes the gate. -/
inductive CloserPc where
  | idle
  | set
  -- In `waitForEmptyInflight`.
  | load
  -- At the comparison in `wait`.
  | wait (val : Nat)
  | asleep (val : Nat)
  | done
  deriving DecidableEq

inductive Outcome where
  -- The gate was closed.
  | rejected
  -- `enterInflightGuardFnc` threw.
  | threw
  | released
  deriving DecidableEq

structure State (ι T : Type) where
  inflightCount : Nat := 0
  closed : Bool := false
  pc : ι → Pc T := fun _ => .idle
  closer : CloserPc := .idle
  -- A `fetch_sub` has found the count at zero.
  underflow : Bool := false
  -- History: what a constructor and destructor have added to the count.
  own : ι → Int := fun _ => 0
  -- History: the number of tickets that were granted.
  granted : Nat := 0
  -- History: what each ticket that is gone has added in all.
  ended : List (ι × Outcome × Int) := []

inductive Action (ι T : Type) where
  -- A constructor begins.
  | acquire (t : ι)
  | run (t : ι)
  -- `enterInflightGuardFnc` returns, or throws.
  | entered (t : ι) (value : Option T)
  -- A destructor begins.
  | destroy (t : ι)
  | close
  -- The next step of the thread that closes the gate.
  | closer
  | spuriousWakeUp

namespace State

variable {ι T : Type} [DecidableEq ι]

def goto (s : State ι T) (t : ι) (pc : Pc T) : State ι T :=
  { s with pc := Function.update s.pc t pc }

def fetchAdd (s : State ι T) (t : ι) : State ι T :=
  { s with
    inflightCount := s.inflightCount + 1
    own := Function.update s.own t (s.own t + 1) }

def fetchSub (s : State ι T) (t : ι) : State ι T :=
  { s with
    inflightCount := s.inflightCount - 1
    underflow := s.underflow || s.inflightCount == 0
    own := Function.update s.own t (s.own t - 1) }

/-- `m_inflight_count.notify_all()` -/
def notifyAll (s : State ι T) : State ι T :=
  { s with
    closer := match s.closer with
      | .asleep val => .wait val
      | closer => closer }

/-- The ticket is gone. -/
def end_ (s : State ι T) (t : ι) (outcome : Outcome) : State ι T :=
  { s with ended := s.ended ++ [(t, outcome, s.own t)] }.goto t .idle

/-- The next step of a ticket. -/
def run (s : State ι T) (t : ι) : Option (State ι T) :=
  match s.pc t with
  | .idle | .enter | .held _ => none
  | .test => some (if s.closed then s.end_ t .rejected else s.goto t .count)
  | .count => some ((s.fetchAdd t).goto t .retest)
  | .retest => some (s.goto t (if s.closed then .undo else .enter))
  | .undo => some ((s.fetchSub t).goto t .undoNotify)
  | .undoNotify => some (s.notifyAll.end_ t .rejected)
  | .rollback => some ((s.fetchSub t).goto t .rollbackNotify)
  | .rollbackNotify => some (s.notifyAll.end_ t .threw)
  | .leave _ => some (s.goto t .release)
  | .release => some ((s.fetchSub t).goto t .releaseNotify)
  | .releaseNotify => some (s.notifyAll.end_ t .released)

def runCloser (s : State ι T) : Option (State ι T) :=
  match s.closer with
  | .idle | .asleep _ | .done => none
  | .set => some { s with closed := true, closer := .load }
  | .load =>
    some { s with closer := if s.inflightCount > 0 then .wait s.inflightCount else .done }
  | .wait val => some { s with closer := if s.inflightCount = val then .asleep val else .load }

def step (s : State ι T) : Action ι T → Option (State ι T)
  | .acquire t =>
    match s.pc t with
    | .idle => some ({ s with own := Function.update s.own t 0 }.goto t .test)
    | _ => none
  | .run t => s.run t
  | .entered t value =>
    match s.pc t with
    | .enter =>
      match value with
      | some value => some ({ s with granted := s.granted + 1 }.goto t (.held value))
      | none => some (s.goto t .rollback)
    | _ => none
  | .destroy t =>
    match s.pc t with
    | .held value => some (s.goto t (.leave value))
    | _ => none
  | .close => if s.closer = .idle then some { s with closer := .set } else none
  | .closer => s.runCloser
  | .spuriousWakeUp =>
    match s.closer with
    | .asleep val => some { s with closer := .wait val }
    | _ => none

end State

-- ---------------------------------------------------------------------------
-- Places
-- ---------------------------------------------------------------------------

namespace Pc

variable {T : Type}

/-- A ticket that its owner can use. -/
def isHeld : Pc T → Nat
  | .held _ => 1
  | _ => 0

/-- A constructor or destructor that has added one to the count and not taken it back. -/
def passing : Pc T → Nat
  | .retest | .undo | .enter | .rollback | .leave _ | .release => 1
  | .idle | .test | .count | .undoNotify | .rollbackNotify | .held _ | .releaseNotify => 0

def counted (pc : Pc T) : Nat := pc.isHeld + pc.passing

/-- Past the second test of the gate, with the count still up. -/
def admitted : Pc T → Bool
  | .enter | .rollback | .held _ | .leave _ | .release => true
  | _ => false

/-- About to notify. -/
def notifies : Pc T → Bool
  | .undoNotify | .rollbackNotify | .releaseNotify => true
  | _ => false

theorem counted_of_admitted {pc : Pc T} (h : pc.admitted = true) : pc.counted = 1 := by
  cases pc <;> first | rfl | cases h

end Pc

namespace State

variable {ι T : Type} [DecidableEq ι] {s s' : State ι T} {t : ι} {p : Pc T}

/-- The thread that closes the gate, at its places. -/
structure Closing (s : State ι T) : Prop where
  early : s.closer = .idle ∨ s.closer = .set ∨ s.closed = true
  shut : s.closer = .done → ∀ t, (s.pc t).admitted = false
  asleep : ∀ val, s.closer = .asleep val → 0 < val
  waits : ∀ val, s.closer = .wait val → 0 < val
  woken : ∀ val, s.closer = .asleep val → s.inflightCount = 0 → ∃ t, (s.pc t).notifies = true

structure Inv [Fintype ι] (s : State ι T) : Prop where
  count : s.inflightCount = census Pc.counted s.pc
  own : ∀ t, s.own t = (s.pc t).counted
  underflow : s.underflow = false
  ended : ∀ e ∈ s.ended, e.2.2 = 0
  closing : s.Closing

-- ---------------------------------------------------------------------------
-- One ticket moves
-- ---------------------------------------------------------------------------

/-- A ticket goes on, and the thread that closes the gate is where it was. -/
theorem Closing.move (closing : s.Closing) (hpc : s'.pc = Function.update s.pc t p)
    (hcloser : s'.closer = s.closer) (hclosed : s'.closed = s.closed)
    (hadmitted : p.admitted = true → (s.pc t).admitted = true ∨ s.closed = false)
    (hcount : s'.inflightCount = 0 → p.notifies = true ∨
      s.inflightCount = 0 ∧ (s.pc t).notifies = false) : s'.Closing where
  early := by rw [hcloser, hclosed]; exact closing.early
  shut := by
    intro hdone u
    rw [hcloser] at hdone
    rw [hpc]
    by_cases hu : u = t
    · subst hu
      rw [Function.update_self]
      by_contra h
      rcases hadmitted (by simpa using h) with hadm | hopen
      · rw [closing.shut hdone u] at hadm
        cases hadm
      · rcases closing.early with h | h | h <;> simp_all
    · rw [Function.update_of_ne hu]
      exact closing.shut hdone u
  asleep val h := closing.asleep val (hcloser ▸ h)
  waits val h := closing.waits val (hcloser ▸ h)
  woken := by
    intro val hasleep hzero
    rw [hcloser] at hasleep
    rw [hpc]
    rcases hcount hzero with hp | ⟨hzero, ht⟩
    · exact ⟨t, by rw [Function.update_self]; exact hp⟩
    · obtain ⟨u, hu⟩ := closing.woken val hasleep hzero
      refine ⟨u, ?_⟩
      rw [Function.update_of_ne (fun h => by rw [h, ht] at hu; cases hu)]
      exact hu

/-- A ticket that has notified is gone; whoever slept is awake. -/
theorem Closing.notified (closing : s.Closing) (hpc : s'.pc = Function.update s.pc t .idle)
    (hcloser : s'.closer = s.notifyAll.closer) (hclosed : s'.closed = s.closed) :
    s'.Closing := by
  have hadmitted : s.closer = .done → ∀ u, (s'.pc u).admitted = false := by
    intro hdone u
    rw [hpc]
    by_cases hu : u = t
    · rw [hu, Function.update_self]; rfl
    · rw [Function.update_of_ne hu]
      exact closing.shut hdone u
  cases hs : s.closer with
  | asleep val =>
    have hwait : s'.closer = .wait val := by rw [hcloser, notifyAll, hs]
    exact {
      early := by simpa [hs, hwait, hclosed] using closing.early
      shut := by simp [hwait]
      asleep := by simp [hwait]
      waits := by
        simp only [hwait, CloserPc.wait.injEq]
        rintro _ rfl
        exact closing.asleep val hs
      woken := by simp [hwait] }
  | _ =>
    have hsame : s'.closer = s.closer := by rw [hcloser, notifyAll, hs]
    exact {
      early := by rw [hsame, hclosed]; exact closing.early
      shut := fun h => hadmitted (hsame ▸ h)
      asleep := by simp [hsame, hs]
      waits := fun val h => closing.waits val (hsame ▸ h)
      woken := by simp [hsame, hs] }

section
variable [Fintype ι]

/-- The count and the history of the ticket change by the same amount. -/
theorem Inv.move (inv : s.Inv) (hpc : s'.pc = Function.update s.pc t p)
    (hcount : s'.inflightCount + (s.pc t).counted = s.inflightCount + p.counted)
    (hown : s'.own = Function.update s.own t p.counted) (hunderflow : s'.underflow = false)
    (hended : ∀ e ∈ s'.ended, e.2.2 = 0) (closing : s'.Closing) : s'.Inv where
  count := by
    have hmoved := census_update Pc.counted s.pc t p
    have := inv.count
    rw [hpc]
    omega
  own := by
    intro u
    rw [hown, hpc]
    by_cases hu : u = t
    · simp [hu]
    · simp [Function.update_of_ne hu, inv.own u]
  underflow := hunderflow
  ended := hended
  closing := closing

theorem Inv.own_eq (inv : s.Inv) (hp : p.counted = (s.pc t).counted) :
    s.own = Function.update s.own t p.counted := by
  rw [hp, ← inv.own t, Function.update_eq_self]

/-- A ticket goes on without touching the count. -/
theorem Inv.goto (inv : s.Inv) (hcounted : p.counted = (s.pc t).counted)
    (hnotifies : (s.pc t).notifies = false)
    (hadmitted : p.admitted = true → (s.pc t).admitted = true ∨ s.closed = false) :
    (s.goto t p).Inv :=
  inv.move rfl (by rw [hcounted]; rfl) (inv.own_eq hcounted) inv.underflow inv.ended
    (inv.closing.move rfl rfl rfl hadmitted fun h => .inr ⟨h, hnotifies⟩)

omit [DecidableEq ι] in
/-- The count of one who has added to it is not zero. -/
theorem Inv.pos (inv : s.Inv) (hcounted : (s.pc t).counted = 1) : 0 < s.inflightCount := by
  have := le_census (f := Pc.counted) s.pc t
  rw [inv.count]
  omega

theorem Inv.fetchSub (inv : s.Inv) (hcounted : (s.pc t).counted = 1) (hp : p.counted = 0)
    (hnotifies : p.notifies = true) (hadmitted : p.admitted = false) :
    ((s.fetchSub t).goto t p).Inv := by
  have hpos := inv.pos hcounted
  refine inv.move rfl ?_ ?_ ?_ inv.ended (inv.closing.move rfl rfl rfl ?_ fun _ => .inl hnotifies)
  · change s.inflightCount - 1 + _ = _
    omega
  · change Function.update s.own t (s.own t - 1) = _
    rw [inv.own t, hcounted, hp]
    rfl
  · change (s.underflow || s.inflightCount == 0) = false
    simp only [inv.underflow, Bool.false_or, beq_eq_false_iff_ne]
    omega
  · simp [hadmitted]

omit [DecidableEq ι] in
/-- What has ended left the count as it found it. -/
theorem Inv.ended_append (inv : s.Inv) (hcounted : (s.pc t).counted = 0) (outcome : Outcome) :
    ∀ e ∈ s.ended ++ [(t, outcome, s.own t)], e.2.2 = 0 := by
  intro e he
  rcases List.mem_append.mp he with he | he
  · exact inv.ended e he
  · obtain rfl := List.mem_singleton.mp he
    change s.own t = 0
    rw [inv.own t, hcounted]
    rfl

theorem Inv.notified (inv : s.Inv) (hcounted : (s.pc t).counted = 0) (outcome : Outcome) :
    (s.notifyAll.end_ t outcome).Inv :=
  inv.move rfl (by rw [hcounted]; rfl) (inv.own_eq (p := .idle) hcounted.symm) inv.underflow
    (inv.ended_append hcounted outcome) (inv.closing.notified rfl rfl rfl)

theorem Inv.run (inv : s.Inv) (hrun : s.run t = some s') : s'.Inv := by
  unfold State.run at hrun
  split at hrun <;> rename_i ht <;> cases hrun
  next =>
    split
    · exact inv.move (p := .idle) rfl (by rw [ht]; rfl) (inv.own_eq (by rw [ht]; rfl)) inv.underflow
        (inv.ended_append (by rw [ht]; rfl) .rejected)
        (inv.closing.move rfl rfl rfl nofun fun h => .inr ⟨h, by rw [ht]; rfl⟩)
    · exact inv.goto (by rw [ht]; rfl) (by rw [ht]; rfl) nofun
  next =>
    -- the one step that adds to the count
    refine inv.move (p := .retest) rfl (by rw [ht]; rfl) ?_ inv.underflow inv.ended
      (inv.closing.move rfl rfl rfl nofun nofun)
    change Function.update s.own t (s.own t + 1) = _
    rw [inv.own t, ht]
    rfl
  next =>
    split
    · exact inv.goto (by rw [ht]; rfl) (by rw [ht]; rfl) nofun
    · rename_i hopen
      exact inv.goto (by rw [ht]; rfl) (by rw [ht]; rfl) fun _ => .inr (by simpa using hopen)
  next => exact inv.fetchSub (by rw [ht]; rfl) rfl rfl rfl
  next => exact inv.notified (by rw [ht]; rfl) .rejected
  next => exact inv.fetchSub (by rw [ht]; rfl) rfl rfl rfl
  next => exact inv.notified (by rw [ht]; rfl) .threw
  next => exact inv.goto (by rw [ht]; rfl) (by rw [ht]; rfl) fun _ => .inl (by rw [ht]; rfl)
  next => exact inv.fetchSub (by rw [ht]; rfl) rfl rfl rfl
  next => exact inv.notified (by rw [ht]; rfl) .released

-- ---------------------------------------------------------------------------
-- Every run
-- ---------------------------------------------------------------------------

omit [DecidableEq ι] in
/-- Only the closer moves. -/
theorem Inv.runCloser (inv : s.Inv) (hrun : s.runCloser = some s') : s'.Inv := by
  obtain ⟨count, own, underflow, ended, closing⟩ := inv
  unfold State.runCloser at hrun
  split at hrun <;> rename_i hs <;> cases hrun <;> refine ⟨count, own, underflow, ended, ?_⟩
  next => exact ⟨.inr (.inr rfl), nofun, nofun, nofun, nofun⟩
  next =>
    have hclosed : s.closed = true := by simpa [hs] using closing.early
    split
    next hpos =>
      refine ⟨.inr (.inr hclosed), nofun, nofun, ?_, nofun⟩
      rintro val ⟨⟩
      exact hpos
    next hzero =>
      -- nothing counts any more, so nobody is past the second test
      refine ⟨.inr (.inr hclosed), fun _ t => ?_, nofun, nofun, nofun⟩
      have hnone : (s.pc t).counted = 0 := census_eq_zero (by omega) t
      by_contra hadm
      rw [Pc.counted_of_admitted (by simpa using hadm)] at hnone
      cases hnone
  next val =>
    have hclosed : s.closed = true := by simpa [hs] using closing.early
    have hpos := closing.waits val hs
    split
    next hsame =>
      refine ⟨.inr (.inr hclosed), nofun, ?_, nofun, ?_⟩
      · rintro _ ⟨⟩
        exact hpos
      · rintro _ ⟨⟩ hzero
        change s.inflightCount = 0 at hzero
        omega
    next => exact ⟨.inr (.inr hclosed), nofun, nofun, nofun, nofun⟩

theorem Inv.step {a : Action ι T} (inv : s.Inv) (hstep : s.step a = some s') : s'.Inv := by
  cases a with
  | run t => exact inv.run hstep
  | closer => exact inv.runCloser hstep
  | acquire t =>
    simp only [State.step] at hstep
    split at hstep <;> cases hstep
    next ht =>
      exact inv.move rfl (by rw [ht]; rfl) rfl inv.underflow inv.ended
        (inv.closing.move rfl rfl rfl nofun fun h => .inr ⟨h, by rw [ht]; rfl⟩)
  | entered t value =>
    simp only [State.step] at hstep
    split at hstep
    next ht =>
      split at hstep <;> cases hstep
      next value =>
        refine inv.move (p := .held value) rfl (by rw [ht]; rfl) (inv.own_eq (by rw [ht]; rfl))
          inv.underflow inv.ended (inv.closing.move rfl rfl rfl ?_ ?_)
        · exact fun _ => .inl (by rw [ht]; rfl)
        · exact fun h => .inr ⟨h, by rw [ht]; rfl⟩
      next => exact inv.goto (by rw [ht]; rfl) (by rw [ht]; rfl) fun _ => .inl (by rw [ht]; rfl)
    next => cases hstep
  | destroy t =>
    simp only [State.step] at hstep
    split at hstep <;> cases hstep
    next ht => exact inv.goto (by rw [ht]; rfl) (by rw [ht]; rfl) fun _ => .inl (by rw [ht]; rfl)
  | close =>
    simp only [State.step] at hstep
    split at hstep <;> cases hstep
    exact { inv with closing := ⟨.inr (.inl rfl), nofun, nofun, nofun, nofun⟩ }
  | spuriousWakeUp =>
    simp only [State.step] at hstep
    split at hstep <;> cases hstep
    next val hs =>
      refine { inv with closing := ⟨.inr (.inr ?_), nofun, nofun, ?_, nofun⟩ }
      · simpa [hs] using inv.closing.early
      · rintro _ ⟨⟩
        exact inv.closing.asleep val hs

omit [DecidableEq ι] in
theorem inv_initial : ({} : State ι T).Inv where
  count := by simp [census, Pc.counted, Pc.isHeld, Pc.passing]
  own t := rfl
  underflow := rfl
  ended := nofun
  closing := ⟨.inl rfl, nofun, nofun, nofun, nofun⟩

theorem inv_of_reaches (run : Reaches State.step ({} : State ι T) s) : s.Inv :=
  run.invariant inv_initial fun inv _ hstep => inv.step hstep

/-- Once the wait has returned, a step neither undoes that nor grants a ticket. -/
theorem Inv.step_of_done {a : Action ι T} (inv : s.Inv) (hdone : s.closer = .done)
    (hstep : s.step a = some s') : s'.closer = .done ∧ s'.granted = s.granted := by
  cases a with
  | run t =>
    simp only [State.step, State.run] at hstep
    split at hstep <;> cases hstep <;> try split
    all_goals exact ⟨by simp [State.goto, end_, fetchAdd, State.fetchSub, notifyAll, hdone], rfl⟩
  | entered t value =>
    simp only [State.step] at hstep
    split at hstep
    next ht =>
      have := inv.closing.shut hdone t
      rw [ht] at this
      cases this
    next => cases hstep
  | _ =>
    simp only [State.step, State.runCloser, hdone] at hstep
    first
      | cases hstep
      | (split at hstep <;> cases hstep); exact ⟨by simp [State.goto, hdone], rfl⟩

/-- What a gate promises. -/
structure Clean (s : State ι T) : Prop where
  underflow : s.underflow = false
  count : s.inflightCount = census Pc.isHeld s.pc + census Pc.passing s.pc
  -- Rejected, thrown out or released: the count is as the constructor found it.
  restored : ∀ t outcome change, (t, outcome, change) ∈ s.ended → change = 0
  -- After the wait nobody is inside, now or later.
  shut : s.closer = .done → ∀ s', Reaches State.step s s' →
    (∀ t, (s'.pc t).admitted = false) ∧ s'.granted = s.granted
  -- And the wait does not sleep over an empty gate.
  woken : ∀ val, s.closer = .asleep val → s.inflightCount = 0 → ∃ t, (s.pc t).notifies = true

theorem gate_clean (run : Reaches State.step ({} : State ι T) s) : s.Clean := by
  have inv := inv_of_reaches run
  exact {
    underflow := inv.underflow
    count := by rw [inv.count]; exact Finset.sum_add_distrib
    restored := fun t outcome change he => inv.ended _ he
    shut := by
      intro hdone s' hrun
      have hkept : s'.Inv ∧ s'.closer = .done ∧ s'.granted = s.granted :=
        hrun.invariant (I := fun u => u.Inv ∧ u.closer = .done ∧ u.granted = s.granted)
          ⟨inv, hdone, rfl⟩ fun ⟨inv, hdone, hsame⟩ _ hstep =>
            have hnext := inv.step_of_done hdone hstep
            ⟨inv.step hstep, hnext.1, hnext.2.trans hsame⟩
      exact ⟨hkept.1.closing.shut hkept.2.1, hkept.2.2⟩
    woken := inv.closing.woken }

end

/-- One ticket is held while the gate closes, another one is counted and turned away. -/
def closeUnder : List (Action (Fin 2) Unit) :=
  [Action.acquire 0, Action.run 0, Action.run 0, Action.run 0, Action.entered 0 (some ()),
    Action.acquire 1, Action.run 1, Action.close, Action.closer, Action.closer, Action.closer,
    Action.run 1, Action.run 1, Action.destroy 0, Action.run 0, Action.run 0, Action.run 0,
    Action.closer, Action.run 1, Action.run 1, Action.closer, Action.closer]

theorem gate_clean_closeUnder :
    ((exec State.step ({} : State (Fin 2) Unit) closeUnder).getD {}).Clean :=
  gate_clean (.of_isSome closeUnder (by decide))

/-- The last of them is over once the wait has returned. -/
example : ((exec State.step ({} : State (Fin 2) Unit) closeUnder).map fun s =>
    (s.closer, s.inflightCount, s.granted)) = some (.done, 0, 1) := by decide

end State
end Dmn.Inflight
