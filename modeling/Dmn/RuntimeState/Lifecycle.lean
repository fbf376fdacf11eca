import Dmn.RuntimeState.Retention

/-!
# The life of a state

The promise is set once, with one outcome, and then the hook of that outcome
is called. `onStarted` comes first, and a dispatch calls at most one callback.
-/

namespace Dmn.RuntimeState

open Dmn.Lib

variable {σ : Type}

def outcomes (log : List Event) : List TerminalState :=
  log.filterMap fun
    | .outcome o => some o
    | _ => none

def hooks (log : List Event) : List TerminalState :=
  log.filterMap fun
    | .hook o => some o
    | _ => none

theorem mem_outcomes {log : List Event} {o : TerminalState} : o ∈ outcomes log ↔ .outcome o ∈ log := by
  simp only [outcomes, List.mem_filterMap]
  constructor
  · rintro ⟨e, he, heq⟩
    cases e <;> simp_all
  · exact fun h => ⟨_, h, rfl⟩

theorem mem_hooks {log : List Event} {o : TerminalState} : o ∈ hooks log ↔ .hook o ∈ log := by
  simp only [hooks, List.mem_filterMap]
  constructor
  · rintro ⟨e, he, heq⟩
    cases e <;> simp_all
  · exact fun h => ⟨_, h, rfl⟩

theorem outcomes_append (log log' : List Event) : outcomes (log ++ log') = outcomes log ++ outcomes log' :=
  List.filterMap_append

theorem hooks_append (log log' : List Event) : hooks (log ++ log') = hooks log ++ hooks log' :=
  List.filterMap_append

/-- `onStarted` comes before every callback. -/
def StartsFirst (log : List Event) : Prop :=
  ∀ before after, log = before ++ .callback :: after → .onStarted ∈ before

theorem StartsFirst.snoc {log : List Event} {e : Event} (h : StartsFirst log)
    (he : e = .callback → .onStarted ∈ log) : StartsFirst (log ++ [e]) := by
  intro before after heq
  rcases List.eq_nil_or_concat after with rfl | ⟨after', e', rfl⟩
  · obtain ⟨rfl, hlast⟩ := List.append_inj' heq rfl
    exact he (List.cons.inj hlast).1
  · rw [List.concat_eq_append, ← List.cons_append, ← List.append_assoc] at heq
    obtain ⟨heq', -⟩ := List.append_inj' heq rfl
    exact h before after' heq'

/-- In the hook of an outcome. -/
def Pc.hook? : Pc σ → Option (σ × TerminalState)
  | .hook x o .. => some (x, o)
  | _ => none

def ExecPc.hook? : ExecPc σ → Option (σ × TerminalState)
  | .hook x o _ => some (x, o)
  | _ => none

/-- Past `beginStep`, before the callback. -/
def ExecPc.begun : ExecPc σ → Option σ
  | .onStarted x | .runNext x => some x
  | _ => none

/-- What a step leaves alone that is not about the outcome. -/
structure Life.Same (l l' : Life) : Prop where
  terminal : l'.terminal = l.terminal
  started : l'.started = l.started
  completed : l'.completed = l.completed
  failed : l'.failed = l.failed
  cancelled : l.terminal → l'.cancelled = l.cancelled
  requested : l.cancelled → l'.cancelled

namespace Life

variable {l l' : Life} {b : Bool}

theorem Same.refl (l : Life) : l.Same l := ⟨rfl, rfl, rfl, rfl, fun _ => rfl, id⟩

theorem submit_same (h : l.submit = some l') : l.Same l' := by
  obtain ⟨-, -, -, rfl⟩ := submit_eq h
  exact ⟨rfl, rfl, rfl, rfl, fun _ => rfl, id⟩

theorem reset_same (l : Life) : l.Same l.resetQueuedAfterSubmission.1 :=
  ⟨rfl, rfl, rfl, rfl, fun _ => rfl, id⟩

theorem Same.trans {l'' : Life} (h : l.Same l') (h' : l'.Same l'') : l.Same l'' :=
  ⟨h'.terminal.trans h.terminal, h'.started.trans h.started, h'.completed.trans h.completed,
    h'.failed.trans h.failed, fun ht => (h'.cancelled (h.terminal ▸ ht)).trans (h.cancelled ht),
    fun hc => h'.requested (h.requested hc)⟩

theorem runNext_keeps (l : Life) : l.Same l.runNext.1 := by
  unfold runNext
  split
  · exact .refl _
  · split
    · exact ⟨rfl, rfl, rfl, rfl, fun _ => rfl, id⟩
    · dsimp only
      generalize hinit : (if l.initialized = true then l else l.init) = m
      have hsame : l.Same m := by
        subst hinit
        cases l.initialized <;> exact ⟨rfl, rfl, rfl, rfl, fun _ => rfl, id⟩
      split
      · exact hsame.trans ⟨rfl, rfl, rfl, rfl, fun _ => rfl, id⟩
      · exact hsame

theorem runNextReturn_keeps (l : Life) (next : Nat) : l.Same (l.runNextReturn next).1 := by
  unfold runNextReturn
  dsimp only
  split <;> exact ⟨rfl, rfl, rfl, rfl, fun _ => rfl, id⟩

theorem setEnd_keeps (l : Life) : l.Same l.setEnd.runNext.1 :=
  have hend : l.Same l.setEnd := ⟨rfl, rfl, rfl, rfl, fun _ => rfl, id⟩
  hend.trans (runNext_keeps _)

theorem cancel_same (h : l.cancel = some (l', b)) : l.Same l' := by
  obtain ⟨hterminal, -, rfl, -⟩ := cancel_eq h
  refine ⟨rfl, rfl, rfl, rfl, fun ht => ?_, fun _ => rfl⟩
  rw [hterminal] at ht
  cases ht

end Life

namespace State

variable {ι : Type} [DecidableEq σ] {s s' : State ι σ} {t : ι} {p : Pc σ} {x y : σ}

/-- How many are in a hook of a state. -/
def hookers [Fintype ι] (s : State ι σ) (x : σ) : Nat :=
  census (fun p => hand (p.hook?.map Prod.fst) x) s.pc + hand (s.exec.hook?.map Prod.fst) x

def Hooking (s : State ι σ) (x : σ) (o : TerminalState) : Prop :=
  (∃ t, (s.pc t).hook? = some (x, o)) ∨ s.exec.hook? = some (x, o)

structure Lived [Fintype ι] (s : State ι σ) (x : σ) : Prop where
  once : (outcomes (s.log x)).length = (s.life x).terminal.toNat
  hooked : (hooks (s.log x)).length + s.hookers x = (outcomes (s.log x)).length
  hooking : ∀ o, s.Hooking x o → .outcome o ∈ s.log x
  hook : ∀ o, .hook o ∈ s.log x → .outcome o ∈ s.log x
  completed : .outcome .kCompleted ∈ s.log x → (s.life x).cancelled = false
  cancelled : .outcome .kCancelled ∈ s.log x → (s.life x).cancelled
  flags : ((s.life x).completed ↔ .outcome .kCompleted ∈ s.log x) ∧ ((s.life x).failed ↔
    .outcome .kFailed ∈ s.log x)
  started : (s.log x).count .onStarted = (s.life x).started.toNat
  begun : s.exec.begun = some x → (s.life x).started
  first : StartsFirst (s.log x)

theorem Lived.terminal_of_mem [Fintype ι] (h : s.Lived x) {o : TerminalState} (ho : .outcome o ∈ s.log x) :
    (s.life x).terminal := by
  have hpos := List.length_pos_of_mem (mem_outcomes.mpr ho)
  rw [h.once] at hpos
  cases hterminal : (s.life x).terminal with
  | true => rfl
  | false =>
    rw [hterminal] at hpos
    cases hpos

/-- Nothing happens to the state. -/
theorem Lived.same [Fintype ι] (h : s.Lived x) (hlog : s'.log x = s.log x)
    (hlife : Life.Same (s.life x) (s'.life x))
    (hhookers : s'.hookers x = s.hookers x) (hhooking : ∀ o, s'.Hooking x o → s.Hooking x o)
    (hbegun : s'.exec.begun = some x → (s.life x).started) : s'.Lived x where
  once := by rw [hlog, hlife.terminal, h.once]
  hooked := by rw [hlog, hhookers, h.hooked]
  hooking o ho := by
    rw [hlog]
    exact h.hooking o (hhooking o ho)
  hook := by
    rw [hlog]
    exact h.hook
  completed ho := by
    rw [hlog] at ho
    rw [hlife.cancelled (h.terminal_of_mem ho), h.completed ho]
  cancelled ho := by
    rw [hlog] at ho
    exact hlife.requested (h.cancelled ho)
  flags := by
    rw [hlog, hlife.completed, hlife.failed]
    exact h.flags
  started := by rw [hlog, hlife.started, h.started]
  begun hb := by
    rw [hlife.started]
    exact hbegun hb
  first := hlog ▸ h.first

/-- The outcome is chosen. -/
theorem Lived.completes [Fintype ι] {o o' : TerminalState} (h : s.Lived x)
    (hc : (s.life x).Completes (s'.life x) o o') (hlog : s'.log x = s.log x ++ [.outcome o'])
    (hhookers : s'.hookers x = s.hookers x + 1)
    (hhooking : ∀ o, s'.Hooking x o → s.Hooking x o ∨ o = o') (hbegun : s'.exec.begun = some x →
    (s.life x).started) :
    s'.Lived x := by
  have hnone : ∀ o, .outcome o ∉ s.log x := fun o ho => by
    have hterminal := h.terminal_of_mem ho
    rw [hc.open_] at hterminal
    cases hterminal
  have hlength : outcomes (s.log x) = [] :=
    List.eq_nil_iff_forall_not_mem.mpr fun o ho => hnone o (mem_outcomes.mp ho)
  have hmem : ∀ o, .outcome o ∈ s'.log x ↔ o = o' := fun o => by
    rw [hlog, List.mem_append, List.mem_singleton, Event.outcome.injEq]
    exact or_iff_right (hnone o)
  have hhooked := h.hooked
  rw [hlength] at hhooked
  have hhooks : hooks (s'.log x) = hooks (s.log x) := by
    rw [hlog, hooks_append]
    exact List.append_nil _
  have houtcomes : outcomes (s'.log x) = [o'] := by
    rw [hlog, outcomes_append, hlength]
    rfl
  have hflag : ∀ {a b c : Bool}, c = (a || b) → (a ↔ False) → (c ↔ b) := by
    intro a b c hcab hno
    cases a <;> simp_all
  refine ⟨?_, ?_, fun o ho => ?_, fun o ho => ?_, fun ho => ?_, fun ho => ?_, ⟨?_, ?_⟩, ?_, ?_, ?_⟩
  · rw [houtcomes, hc.terminal]
    rfl
  · rw [houtcomes, hhooks, hhookers]
    simp only [List.length_nil, List.length_singleton] at hhooked ⊢
    omega
  · rcases hhooking o ho with ho | rfl
    · exact absurd (h.hooking o ho) (hnone o)
    · exact (hmem _).mpr rfl
  · have hold : .hook o ∈ s.log x := by
      rw [← mem_hooks, ← hhooks]
      exact mem_hooks.mpr ho
    exact absurd (h.hook o hold) (hnone o)
  · obtain rfl := (hmem _).mp ho
    have hchosen := hc.chosen
    rw [hc.cancelled]
    cases hcancelled : (s.life x).cancelled with
    | false => rfl
    | true =>
      rw [hcancelled] at hchosen
      split at hchosen <;> simp_all
  · obtain rfl := (hmem _).mp ho
    rw [hc.cancelled]
    simp
  · rw [hmem]
    refine (hflag hc.completed ?_).trans (by simp [eq_comm])
    rw [h.flags.1]
    exact iff_false_intro (hnone _)
  · rw [hmem]
    refine (hflag hc.failed ?_).trans (by simp [eq_comm])
    rw [h.flags.2]
    exact iff_false_intro (hnone _)
  · rw [hlog, List.count_append, hc.started, h.started]
    rfl
  · rw [hc.started]
    exact hbegun
  · rw [hlog]
    exact h.first.snoc nofun

/-- The hook of the outcome is called. -/
theorem Lived.hooks [Fintype ι] {o : TerminalState} (h : s.Lived x) (hfrom : s.Hooking x o)
    (hlog : s'.log x = s.log x ++ [.hook o]) (hlife : s'.life x = s.life x)
    (hhookers : s'.hookers x + 1 = s.hookers x) (hhooking : ∀ o, s'.Hooking x o → s.Hooking x o)
    (hbegun : s'.exec.begun = some x → (s.life x).started) : s'.Lived x := by
  have houtcome : ∀ o, .outcome o ∈ s'.log x ↔ .outcome o ∈ s.log x := fun o => by
    rw [hlog, List.mem_append, List.mem_singleton]
    exact or_iff_left nofun
  have houtcomes : outcomes (s'.log x) = outcomes (s.log x) := by
    rw [hlog, outcomes_append]
    exact List.append_nil _
  refine ⟨?_, ?_, fun o ho => ?_, fun o' ho => ?_, fun ho => ?_, fun ho => ?_, ?_, ?_, ?_, ?_⟩
  · rw [houtcomes, hlife, h.once]
  · have hold := h.hooked
    have hlength : (RuntimeState.hooks (s'.log x)).length = (RuntimeState.hooks (s.log x)).length + 1 := by
      rw [hlog, hooks_append, List.length_append]
      rfl
    rw [houtcomes, hlength]
    omega
  · exact (houtcome o).mpr (h.hooking o (hhooking o ho))
  · rw [hlog] at ho
    rcases List.mem_append.mp ho with ho | ho
    · exact (houtcome o').mpr (h.hook o' ho)
    · obtain rfl : o' = o := Event.hook.inj (List.mem_singleton.mp ho)
      exact (houtcome o').mpr (h.hooking o' hfrom)
  · rw [hlife]
    exact h.completed ((houtcome _).mp ho)
  · rw [hlife]
    exact h.cancelled ((houtcome _).mp ho)
  · rw [hlife, houtcome, houtcome]
    exact h.flags
  · rw [hlog, List.count_append, hlife, h.started]
    rfl
  · rw [hlife]
    exact hbegun
  · rw [hlog]
    exact h.first.snoc nofun

/-- A dispatch calls `onStarted` or a callback. -/
theorem Lived.calls [Fintype ι] {e : Event} (h : s.Lived x) (hevent : e = .onStarted ∨ e = .callback)
    (hlog : s'.log x = s.log x ++ [e]) (hlife : (s'.life x).terminal = (s.life x).terminal)
    (hcancelled : (s'.life x).cancelled = (s.life x).cancelled) (hcompleted : (s'.life x).completed =
    (s.life x).completed)
    (hfailed : (s'.life x).failed = (s.life x).failed)
    (hstarted : (s'.life x).started.toNat = (s.life x).started.toNat + if e = .onStarted then 1 else 0)
    (hfirst : e = .callback → (s.life x).started) (hhookers : s'.hookers x = s.hookers x)
    (hhooking : ∀ o, s'.Hooking x o → s.Hooking x o) (hbegun : s'.exec.begun = some x → (s'.life x).started) :
    s'.Lived x := by
  have houtcome : ∀ o, .outcome o ∈ s'.log x ↔ .outcome o ∈ s.log x := fun o => by
    rw [hlog, List.mem_append, List.mem_singleton]
    rcases hevent with rfl | rfl <;> exact or_iff_left nofun
  have hhook : ∀ o, .hook o ∈ s'.log x ↔ .hook o ∈ s.log x := fun o => by
    rw [hlog, List.mem_append, List.mem_singleton]
    rcases hevent with rfl | rfl <;> exact or_iff_left nofun
  have houtcomes : outcomes (s'.log x) = outcomes (s.log x) := by
    rw [hlog, outcomes_append]
    rcases hevent with rfl | rfl <;> exact List.append_nil _
  have hhooks : RuntimeState.hooks (s'.log x) = RuntimeState.hooks (s.log x) := by
    rw [hlog, hooks_append]
    rcases hevent with rfl | rfl <;> exact List.append_nil _
  refine ⟨by rw [houtcomes, hlife, h.once], by rw [houtcomes, hhooks, hhookers, h.hooked],
    fun o ho => (houtcome o).mpr (h.hooking o (hhooking o ho)),
    fun o ho => (houtcome o).mpr (h.hook o ((hhook o).mp ho)),
    fun ho => hcancelled ▸ h.completed ((houtcome _).mp ho), fun ho => hcancelled ▸ h.cancelled
      ((houtcome _).mp ho),
    ?_, ?_, hbegun, ?_⟩
  · rw [hcompleted, hfailed, houtcome, houtcome]
    exact h.flags
  · rw [hlog, List.count_append, h.started, hstarted]
    rcases hevent with rfl | rfl <;> rfl
  · rw [hlog]
    refine h.first.snoc fun he => ?_
    have hpos : 0 < (s.log x).count .onStarted := by
      rw [h.started, hfirst he]
      decide
    exact List.count_pos_iff.mp hpos

-- ---------------------------------------------------------------------------
-- Steps
-- ---------------------------------------------------------------------------

theorem hookers_moves [Fintype ι] [DecidableEq ι] (hpc : s'.pc = Function.update s.pc t p)
    (hexec : s'.exec = s.exec) :
    s'.hookers x + hand ((s.pc t).hook?.map Prod.fst) x = s.hookers x + hand (p.hook?.map Prod.fst) x := by
  have hcensus := census_update (fun p : Pc σ => hand (p.hook?.map Prod.fst) x) s.pc t p
  unfold hookers
  rw [hpc, hexec]
  omega

omit [DecidableEq σ] in
theorem hooking_moves [DecidableEq ι] {o : TerminalState} (hpc : s'.pc = Function.update s.pc t p)
    (hexec : s'.exec = s.exec) (h : s'.Hooking x o) : p.hook? = some (x, o) ∨ s.Hooking x o := by
  rcases h with ⟨u, hu⟩ | h
  · rw [hpc] at hu
    by_cases hut : u = t
    · subst hut
      rw [Function.update_self] at hu
      exact .inl hu
    · rw [Function.update_of_ne hut] at hu
      exact .inr (.inl ⟨u, hu⟩)
  · exact .inr (.inr (hexec ▸ h))

theorem hookers_execs [Fintype ι] (hpc : s'.pc = s.pc) :
    s'.hookers x + hand (s.exec.hook?.map Prod.fst) x = s.hookers x + hand (s'.exec.hook?.map Prod.fst) x := by
  unfold hookers
  rw [hpc]
  omega

omit [DecidableEq σ] in
theorem hooking_execs {o : TerminalState} (hpc : s'.pc = s.pc) (h : s'.Hooking x o) :
    s'.exec.hook? = some (x, o) ∨ s.Hooking x o := by
  rcases h with ⟨t, ht⟩ | h
  · exact .inr (.inl ⟨t, hpc ▸ ht⟩)
  · exact .inl h

/-- A caller moves, outside of the hooks. -/
theorem Lived.moves [Fintype ι] [DecidableEq ι] (h : s.Lived x) (hpc : s'.pc = Function.update s.pc t p)
    (hexec : s'.exec = s.exec) (hlog : s'.log = s.log) (hlife : Life.Same (s.life x) (s'.life x))
    (ht : (s.pc t).hook? = none) (hp : p.hook? = none) : s'.Lived x := by
  refine h.same (by rw [hlog]) hlife ?_ (fun o ho => ?_) (fun hb => h.begun (hexec ▸ hb))
  · have hhookers := hookers_moves (x := x) hpc hexec
    rw [ht, hp] at hhookers
    exact hhookers
  · refine (hooking_moves hpc hexec ho).resolve_left fun hhook => ?_
    rw [hp] at hhook
    cases hhook

theorem same_setLife (s : State ι σ) {l : Life} (h : Life.Same (s.life x) l) (y : σ) :
    Life.Same (s.life y) ((s.setLife x l).life y) := by
  by_cases hy : y = x
  · subst hy
    rw [setLife_self]
    exact h
  · rw [setLife_ne s l hy]
    exact .refl _

theorem record_self (s : State ι σ) (x : σ) (e : Event) : (s.record x e).log x = s.log x ++ [e] :=
  Function.update_self ..

theorem record_ne (s : State ι σ) (e : Event) (h : y ≠ x) : (s.record x e).log y = s.log y :=
  Function.update_of_ne h ..

/-- The one who completes a state goes to the hook; other states stay as they are. -/
theorem Lived.completes_or_other [Fintype ι] {o o' : TerminalState} {l : Life}
    (old new : Option (σ × TerminalState))
    (h : s.Lived y) (hl : (s.life x).complete o = some (l, o')) (hlife : s'.life = Function.update s.life x l)
    (hlog : s'.log = Function.update s.log x (s.log x ++ [.outcome o']))
    (hhookers : s'.hookers y + hand (old.map Prod.fst) y = s.hookers y + hand (new.map Prod.fst) y)
    (hhooking : ∀ o, s'.Hooking y o → new = some (y, o) ∨ s.Hooking y o) (hold : old = none)
    (hnew : new = some (x, o')) (hbegun : s'.exec.begun = some y → (s.life y).started) : s'.Lived y := by
  subst hold hnew
  have hlife' : s'.life y = (s.setLife x l).life y := congrFun hlife y
  have hlog' : s'.log y = (s.record x (.outcome o')).log y := congrFun hlog y
  by_cases hy : y = x
  · subst hy
    rw [setLife_self] at hlife'
    rw [record_self] at hlog'
    simp only [Option.map_none, Option.map_some, hand_none, hand_self] at hhookers
    refine h.completes (hlife' ▸ Life.complete_completes hl) hlog' hhookers (fun o ho => ?_) hbegun
    rcases hhooking o ho with hto | hold
    · exact .inr (Prod.mk.inj (Option.some.inj hto)).2.symm
    · exact .inl hold
  · rw [setLife_ne s l hy] at hlife'
    rw [record_ne s _ hy] at hlog'
    simp only [Option.map_none, Option.map_some, hand_none, hand_ne (Ne.symm hy)] at hhookers
    refine h.same hlog' (hlife' ▸ .refl _) hhookers (fun o ho => ?_) hbegun
    exact (hhooking o ho).resolve_left fun hto => hy (Prod.mk.inj (Option.some.inj hto)).1.symm

theorem Lived.hooks_or_other [Fintype ι] {o : TerminalState} (old new : Option (σ × TerminalState))
    (h : s.Lived y) (hx : s.Hooking x o) (hlife : s'.life = s.life)
    (hlog : s'.log = Function.update s.log x (s.log x ++ [.hook o]))
    (hhookers : s'.hookers y + hand (old.map Prod.fst) y = s.hookers y + hand (new.map Prod.fst) y)
    (hhooking : ∀ o, s'.Hooking y o → new = some (y, o) ∨ s.Hooking y o) (hold : old = some (x, o))
    (hnew : new = none) (hbegun : s'.exec.begun = some y → (s.life y).started) : s'.Lived y := by
  subst hold hnew
  have hlife' : s'.life y = s.life y := congrFun hlife y
  have hlog' : s'.log y = (s.record x (.hook o)).log y := congrFun hlog y
  have hmono : ∀ o, s'.Hooking y o → s.Hooking y o := fun o ho => (hhooking o ho).resolve_left nofun
  by_cases hy : y = x
  · subst hy
    rw [record_self] at hlog'
    simp only [Option.map_none, Option.map_some, hand_none, hand_self] at hhookers
    exact h.hooks hx hlog' hlife' hhookers hmono hbegun
  · rw [record_ne s _ hy] at hlog'
    simp only [Option.map_none, Option.map_some, hand_none, hand_ne (Ne.symm hy)] at hhookers
    exact h.same hlog' (hlife' ▸ .refl _) hhookers hmono hbegun

theorem Lived.thread [Fintype ι] [DecidableEq ι] {throws : Bool} (h : s.Lived y)
    (hs : s.thread t throws = some s') :
    s'.Lived y := by
  simp only [State.thread] at hs
  split at hs
  · cases hs
  · rename_i x hpc
    obtain rfl := Option.some.inj hs
    split
    · exact h.moves (t := t) rfl rfl rfl (.refl _) (by rw [hpc]; rfl) rfl
    · rename_i l hl
      exact h.moves (t := t) rfl rfl rfl (same_setLife s (Life.submit_same hl) y) (by rw [hpc]; rfl) rfl
  · rename_i x hpc
    obtain rfl := Option.some.inj hs
    split
    · exact h.moves (t := t) rfl rfl rfl (.refl _) (by rw [hpc]; rfl) rfl
    · rename_i s'' henqueue
      rcases enqueueState_eq henqueue with ⟨-, rfl⟩ | ⟨-, -, rfl⟩
      · exact h.moves (t := t) rfl rfl rfl (.refl _) (by rw [hpc]; rfl) rfl
      · exact h.moves (t := t) rfl rfl rfl (.refl _) (by rw [hpc]; rfl) rfl
  · rename_i x hpc
    obtain rfl := Option.some.inj hs
    split
    · exact h.moves (t := t) rfl rfl rfl (.refl _) (by rw [hpc]; rfl) rfl
    · exact h.moves (t := t) rfl rfl rfl (.refl _) (by rw [hpc]; rfl) rfl
  · rename_i x hpc
    obtain rfl := Option.some.inj hs
    exact h.moves (t := t) rfl rfl rfl (.refl _) (by rw [hpc]; rfl) rfl
  · rename_i x hpc
    obtain rfl := Option.some.inj hs
    exact h.moves (t := t) rfl rfl rfl (same_setLife s (Life.reset_same _) y) (by rw [hpc]; rfl) (by
      split <;> rfl)
  · rename_i hpc
    obtain rfl := Option.some.inj hs
    exact h.moves (t := t) rfl rfl rfl (.refl _) (by rw [hpc]; rfl) rfl
  · rename_i pending hpc
    obtain rfl := Option.some.inj hs
    exact h.moves (t := t) rfl rfl rfl (.refl _) (by rw [hpc]; rfl) rfl
  · rename_i x xs pending hpc
    obtain rfl := Option.some.inj hs
    split
    · exact h.moves (t := t) rfl rfl rfl (.refl _) (by rw [hpc]; rfl) rfl
    · rename_i l completeNow hl
      exact h.moves (t := t) rfl rfl rfl (same_setLife s (Life.cancel_same hl) y) (by rw [hpc]; rfl)
        (by split <;> rfl)
  · rename_i x xs pending hpc
    obtain rfl := Option.some.inj hs
    split
    · exact h.moves (t := t) rfl rfl rfl (.refl _) (by rw [hpc]; rfl) rfl
    · rename_i l o hl
      exact h.completes_or_other _ _ hl rfl rfl (hookers_moves (t := t) (p := .hook x o xs pending) rfl rfl)
        (fun o' => hooking_moves (t := t) (p := .hook x o xs pending) rfl rfl) (by rw [hpc]; rfl) rfl
        (fun hb => h.begun hb)
  · rename_i x o xs pending hpc
    obtain rfl := Option.some.inj hs
    exact h.hooks_or_other _ _ (.inl ⟨t, by rw [hpc]; rfl⟩) rfl rfl
      (hookers_moves (t := t) (p := .cancels xs pending) rfl rfl)
      (fun o' => hooking_moves (t := t) (p := .cancels xs pending) rfl rfl) (by rw [hpc]; rfl) rfl
      (fun hb => h.begun hb)
  · rename_i pending hpc
    obtain rfl := Option.some.inj hs
    exact h.moves (t := t) rfl rfl rfl (.refl _) (by rw [hpc]; rfl) rfl
  · rename_i x xs pending hpc
    split at hs
    · obtain rfl := Option.some.inj hs
      exact h.moves (t := t) rfl rfl rfl (.refl _) (by rw [hpc]; rfl) rfl
    · cases hs

/-- The async thread moves, outside of the hooks and callbacks. -/
theorem Lived.execs [Fintype ι] (h : s.Lived x) (hpc : s'.pc = s.pc) (hlog : s'.log x = s.log x)
    (hlife : Life.Same (s.life x) (s'.life x)) (hold : s.exec.hook? = none) (hnew : s'.exec.hook? = none)
    (hbegun : s'.exec.begun = some x → (s.life x).started) : s'.Lived x := by
  refine h.same hlog hlife ?_ (fun o ho => ?_) hbegun
  · have hhookers := hookers_execs (x := x) hpc
    rw [hold, hnew] at hhookers
    exact hhookers
  · refine (hooking_execs hpc ho).resolve_left fun hhook => ?_
    rw [hnew] at hhook
    cases hhook

/-- A dispatch calls `onStarted` or a callback; other states stay as they are. -/
theorem Lived.calls_or_other [Fintype ι] {e : Event} {l : Life} (h : s.Lived y)
    (hevent : e = .onStarted ∨ e = .callback)
    (hpc : s'.pc = s.pc) (hold : s.exec.hook? = none) (hnew : s'.exec.hook? = none)
    (hlife : s'.life = Function.update s.life x l) (hlog : s'.log = Function.update s.log x (s.log x ++ [e]))
    (hsame : l.terminal = (s.life x).terminal ∧ l.cancelled = (s.life x).cancelled ∧
      l.completed = (s.life x).completed ∧ l.failed = (s.life x).failed)
    (hstarted : l.started.toNat = (s.life x).started.toNat + if e = .onStarted then 1 else 0)
    (hfirst : e = .callback → s.exec.begun = some x) (hbegun : s'.exec.begun = some y → y = x ∧ l.started) :
    s'.Lived y := by
  have hlife' : s'.life y = (s.setLife x l).life y := congrFun hlife y
  have hlog' : s'.log y = (s.record x e).log y := congrFun hlog y
  have hhookers := hookers_execs (x := y) hpc
  rw [hold, hnew] at hhookers
  have hhooking : ∀ o, s'.Hooking y o → s.Hooking y o := fun o ho => by
    refine (hooking_execs hpc ho).resolve_left fun hhook => ?_
    rw [hnew] at hhook
    cases hhook
  by_cases hy : y = x
  · subst hy
    rw [setLife_self] at hlife'
    rw [record_self] at hlog'
    exact h.calls hevent hlog' (hlife' ▸ hsame.1) (hlife' ▸ hsame.2.1) (hlife' ▸ hsame.2.2.1)
      (hlife' ▸ hsame.2.2.2)
      (hlife' ▸ hstarted) (fun he => h.begun (hfirst he)) hhookers hhooking (fun hb => hlife' ▸ (hbegun hb).2)
  · rw [setLife_ne s l hy] at hlife'
    rw [record_ne s _ hy] at hlog'
    exact h.same hlog' (hlife' ▸ .refl _) hhookers hhooking (fun hb => absurd (hbegun hb).1 hy)

theorem Lived.executeStateStep [Fintype ι] {throws : Bool} {next : Nat} (h : s.Lived y)
    (hs : s.executeStateStep throws next = some s') : s'.Lived y := by
  simp only [State.executeStateStep] at hs
  split at hs
  · cases hs
  · rename_i x hexec
    obtain rfl := Option.some.inj hs
    split
    · exact h.execs rfl rfl (.refl _) (by rw [hexec]; rfl) rfl (by rintro ⟨⟩)
    · rename_i l hl
      obtain ⟨-, -, rfl, hstarted⟩ := Life.beginStep_eq hl
      have hnot : (s.life x).started = false := by simpa using hstarted
      refine h.calls_or_other (e := .onStarted) (x := x) (.inl rfl) rfl (by rw [hexec]; rfl) rfl rfl rfl
        ⟨rfl, rfl, rfl, rfl⟩ ?_ (by rintro ⟨⟩) fun hb => ⟨(Option.some.inj hb).symm, rfl⟩
      rw [hnot]
      rfl
    · rename_i l hl
      obtain ⟨-, -, rfl, hstarted⟩ := Life.beginStep_eq hl
      have hyes : (s.life x).started = true := by simpa using hstarted
      refine h.execs rfl rfl (same_setLife s (l := { s.life x with running := true, started := true })
        ⟨rfl, hyes.symm, rfl, rfl, fun _ => rfl, id⟩ y) (by rw [hexec]; rfl)
        rfl fun hb => ?_
      obtain rfl : x = y := Option.some.inj hb
      exact hyes
  · rename_i x hexec
    obtain rfl := Option.some.inj hs
    cases throws
    · exact h.execs rfl rfl (.refl _) (by rw [hexec]; rfl) rfl fun hb => h.begun (by rw [hexec]; exact hb)
    · exact h.execs rfl rfl (.refl _) (by rw [hexec]; rfl) rfl (by rintro ⟨⟩)
  · rename_i x hexec
    obtain rfl := Option.some.inj hs
    have hkeeps := Life.runNext_keeps (s.life x)
    cases hcalled : (s.life x).runNext.2 with
    | false =>
      exact h.execs rfl rfl (same_setLife s hkeeps y) (by rw [hexec]; rfl) rfl (by rintro ⟨⟩)
    | true =>
      refine h.calls_or_other (e := .callback) (x := x) (l := (s.life x).runNext.1) (.inr rfl) rfl (by
        rw [hexec]; rfl) rfl
        rfl rfl ⟨hkeeps.terminal, (Life.runNext_same _).1, hkeeps.completed, hkeeps.failed⟩ ?_
        (fun _ => by rw [hexec]; rfl) (by rintro ⟨⟩)
      rw [hkeeps.started]
      rfl
  · rename_i x hexec
    split at hs
    · cases hs
    · split at hs
      · obtain rfl := Option.some.inj hs
        exact h.execs rfl rfl (same_setLife s (l := { s.life x with next })
          ⟨rfl, rfl, rfl, rfl, fun _ => rfl, id⟩ y) (by rw [hexec]; rfl) rfl (by rintro ⟨⟩)
      · obtain rfl := Option.some.inj hs
        refine h.execs rfl rfl (same_setLife s (Life.runNextReturn_keeps (s.life x) next) y) (by
          rw [hexec]; rfl) ?_ ?_
        · dsimp only
          split <;> rfl
        · dsimp only
          split <;> rintro ⟨⟩
  · rename_i x hexec
    obtain rfl := Option.some.inj hs
    rw [Life.runNext_setEnd]
    exact h.execs rfl rfl (same_setLife s (Life.setEnd_keeps (s.life x)) y) (by rw [hexec]; rfl) rfl (by
      rintro ⟨⟩)
  · rename_i x o releases hexec
    obtain rfl := Option.some.inj hs
    split
    · refine h.execs rfl rfl (.refl _) (by rw [hexec]; rfl) ?_ ?_
      · cases releases <;> rfl
      · cases releases <;> rintro ⟨⟩
    · rename_i l o' hl
      exact h.completes_or_other s.exec.hook? (some (x, o')) hl rfl rfl (hookers_execs rfl)
        (fun o => hooking_execs rfl) (by rw [hexec]; rfl) rfl (by rintro ⟨⟩)
  · rename_i x o releases hexec
    obtain rfl := Option.some.inj hs
    have hnone : (ExecPc.hook? (if releases = true then ExecPc.release x else .idle)) = none := by
      cases releases <;> rfl
    refine h.hooks_or_other s.exec.hook? _ (.inr (by rw [hexec]; rfl)) rfl rfl (hookers_execs rfl)
      (fun o' => hooking_execs rfl) (by rw [hexec]; rfl) hnone ?_
    cases releases <;> rintro ⟨⟩
  · rename_i x hexec
    obtain rfl := Option.some.inj hs
    exact h.execs rfl rfl (.refl _) (by rw [hexec]; rfl) rfl (by rintro ⟨⟩)
  · rename_i x hexec
    obtain rfl := Option.some.inj hs
    split
    · exact h.execs rfl rfl (.refl _) (by rw [hexec]; rfl) rfl (by rintro ⟨⟩)
    · rename_i s'' henqueue
      rcases enqueueState_eq henqueue with ⟨-, rfl⟩ | ⟨-, -, rfl⟩
      · exact h.execs rfl rfl (.refl _) (by rw [hexec]; rfl) rfl (by rintro ⟨⟩)
      · exact h.execs rfl rfl (.refl _) (by rw [hexec]; rfl) rfl (by rintro ⟨⟩)
  · rename_i x hexec
    obtain rfl := Option.some.inj hs
    cases throws
    · exact h.execs rfl rfl (.refl _) (by rw [hexec]; rfl) rfl (by rintro ⟨⟩)
    · exact h.execs rfl rfl (.refl _) (by rw [hexec]; rfl) rfl (by rintro ⟨⟩)
  · rename_i x hexec
    obtain rfl := Option.some.inj hs
    exact h.execs rfl rfl (.refl _) (by rw [hexec]; rfl) rfl (by rintro ⟨⟩)
  · rename_i x hexec
    obtain rfl := Option.some.inj hs
    refine h.execs rfl rfl (same_setLife s (Life.reset_same _) y) (by rw [hexec]; rfl) ?_ ?_
    · dsimp only
      split <;> rfl
    · dsimp only
      split <;> rintro ⟨⟩

theorem Lived.init [Fintype ι] (callbacks next : σ → Nat) (x : σ) :
    (init callbacks next : State ι σ).Lived x where
  once := rfl
  hooked := by simp [State.init, hookers, census, Pc.hook?, ExecPc.hook?, RuntimeState.hooks, outcomes]
  hooking := by rintro o (⟨t, ht⟩ | ht) <;> cases ht
  hook := nofun
  completed := nofun
  cancelled := nofun
  flags := by simp [State.init]
  started := rfl
  begun := nofun
  first := by
    intro before after heq
    cases before <;> cases heq

theorem Lived.step [Fintype ι] [DecidableEq ι] {a : Action ι σ} (h : s.Lived x) (hs : s.step a = some s') :
    s'.Lived x := by
  cases a with
  | run t y =>
    simp only [State.step] at hs
    split at hs
    · rename_i hpc
      obtain rfl := Option.some.inj hs
      exact h.moves (t := t) rfl rfl rfl (.refl _) (by rw [hpc]; rfl) rfl
    · cases hs
  | cancel t y =>
    simp only [State.step] at hs
    split at hs
    · rename_i hpc
      obtain rfl := Option.some.inj hs
      exact h.moves (t := t) rfl rfl rfl (.refl _) (by rw [hpc]; rfl) rfl
    · cases hs
  | shutdown t =>
    simp only [State.step] at hs
    split at hs
    · rename_i hpc
      obtain rfl := Option.some.inj hs
      exact h.moves (t := t) rfl rfl rfl (.refl _) (by rw [hpc]; rfl) rfl
    · cases hs
  | thread t throws => exact h.thread hs
  | dispatch y =>
    simp only [State.step] at hs
    split at hs
    · rename_i hexec
      split at hs
      · obtain rfl := Option.some.inj hs
        exact h.execs rfl rfl (.refl _) (by rw [hexec]; rfl) rfl (by rintro ⟨⟩)
      · cases hs
    · cases hs
  | exec throws next => exact h.executeStateStep hs

end State
end Dmn.RuntimeState
