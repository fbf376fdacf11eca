import Dmn.Dbus.Completion

/-!
# Every call is completed once

The invariant of `Dmn.Dbus.Completion` read between the functions, where no
function is part-way: a call with a result has been released and is not
counted, one without is with libdbus and is counted once.
-/

namespace Dmn.Dbus

open Dmn.Lib

/-- `submit` has not begun, or has ended. -/
def SubmitPc.still : SubmitPc → Bool
  | .idle | .failed | .unregistered | .returned => true
  | _ => false

namespace ThreadPc

variable {ι : Type}

/-- The call is one that the thread completes, or is still to complete. -/
def deals (call : ι) : ThreadPc ι → Prop
  | .completes _ _ current rest => call ∈ current :: rest
  | _ => False

instance (call : ι) [DecidableEq ι] : (pc : ThreadPc ι) → Decidable (pc.deals call)
  | .completes _ _ current rest => inferInstanceAs (Decidable (call ∈ current :: rest))
  | .idle | .closes => inferInstanceAs (Decidable False)

/-- The thread is still to set `completed`. -/
def reaches (call : ι) : ThreadPc ι → Prop
  | .completes _ stage current rest => stage = .exchanges ∧ current = call ∨ call ∈ rest
  | _ => False

theorem next_reaches {reason : Reason} {rest : List ι} {call : ι} (h : call ∈ rest) :
    (next reason rest).reaches call := by
  cases rest with
  | nil => cases h
  | cons first rest => exact (List.mem_cons.mp h).imp (fun heq => ⟨rfl, heq.symm⟩) id

end ThreadPc

namespace Calls

variable {ι κ : Type} [DecidableEq ι] [DecidableEq κ] [Fintype ι] [Fintype κ] {limits : CallLimits}
    {s s' : Calls ι κ}
  {thread : κ} {reason : Reason} {stage : Stage} {call : ι} {rest : List ι}

omit [Fintype ι] in
theorem update_completed {calls : ι → Call} {c : Call} (other : ι) (hc : (calls call).completed → c.completed)
    (h : (calls other).completed) : (Function.update calls call c other).completed := by
  rw [Function.update_apply]
  split
  · rename_i hsame
    exact hc (hsame ▸ h)
  · exact h

omit [DecidableEq κ] [Fintype κ] [Fintype ι] in
/-- Neither `submit` nor `pendingComplete` takes `completed` back, or moves a thread. -/
theorem runSubmit_frame {ok : Bool} (hs : s.runSubmit limits call ok = some s') :
    s'.thread = s.thread ∧ ∀ other, (s.call other).completed → (s'.call other).completed := by
  unfold runSubmit at hs
  dsimp only at hs
  split at hs
  case h_1 =>
    split at hs <;> obtain rfl := Option.some.inj hs <;> exact ⟨rfl, fun other => update_completed other id⟩
  case h_3 =>
    split at hs <;> obtain rfl := Option.some.inj hs <;> exact ⟨rfl, fun other => update_completed other id⟩
  case h_5 =>
    obtain rfl := Option.some.inj hs
    exact ⟨rfl, fun other => update_completed other fun _ => rfl⟩
  case h_6 =>
    obtain rfl := Option.some.inj hs
    refine ⟨rfl, fun other => update_completed other fun hcompleted => ?_⟩
    split <;> exact hcompleted
  case h_12 | h_13 | h_14 => cases hs
  all_goals
    obtain rfl := Option.some.inj hs
    exact ⟨rfl, fun other => update_completed other id⟩

omit [DecidableEq κ] [Fintype κ] [Fintype ι] in
theorem runNotify_frame (hs : s.runNotify call = some s') :
    s'.thread = s.thread ∧ ∀ other, (s.call other).completed → (s'.call other).completed := by
  unfold runNotify at hs
  dsimp only at hs
  split at hs
  case h_2 =>
    split at hs <;> obtain rfl := Option.some.inj hs <;> exact ⟨rfl, fun other => update_completed other id⟩
  case h_3 =>
    obtain rfl := Option.some.inj hs
    refine ⟨rfl, fun other => update_completed other fun hcompleted => ?_⟩
    rw [if_pos hcompleted]
    exact hcompleted
  case h_6 | h_7 => cases hs
  all_goals
    obtain rfl := Option.some.inj hs
    exact ⟨rfl, fun other => update_completed other id⟩

/-- The call is completed, or a thread is going to. -/
def Ending (s : Calls ι κ) (call : ι) : Prop := (s.call call).completed ∨ ∃ thread,
    (s.thread thread).reaches call

omit [DecidableEq ι] [DecidableEq κ] [Fintype ι] [Fintype κ] in
theorem Ending.frame {other : ι} (h : s.Ending other) (hthread : s'.thread = s.thread)
    (hcompleted : (s.call other).completed → (s'.call other).completed) : s'.Ending other := by
  unfold Ending
  rw [hthread]
  exact h.imp_left hcompleted

omit [DecidableEq ι] [Fintype ι] [Fintype κ] in
/-- The thread goes on, and leaves to itself, or has done, what it was going to do. -/
theorem Ending.move {other : ι} {pc : ThreadPc ι} (h : s.Ending other)
    (hthread : s'.thread = Function.update s.thread thread pc)
    (hcompleted : (s.call other).completed → (s'.call other).completed)
    (hreaches : (s.thread thread).reaches other → (s'.call other).completed ∨ pc.reaches other) :
    s'.Ending other := by
  obtain hold | ⟨current, hcurrent⟩ := h
  · exact .inl (hcompleted hold)
  · by_cases hsame : current = thread
    · subst hsame
      refine (hreaches hcurrent).imp id fun hpc => ⟨current, ?_⟩
      rw [hthread, Function.update_self]
      exact hpc
    · refine .inr ⟨current, ?_⟩
      rw [hthread, Function.update_of_ne hsame]
      exact hcurrent

omit [DecidableEq ι] [Fintype ι] [Fintype κ] in
theorem Ending.starts {other : ι} {calls : List ι} {may : Prop} [Decidable may] (h : s.Ending other)
    (hs : s.start thread reason calls may = some s') : s'.Ending other := by
  simp only [start] at hs
  split at hs
  · rename_i hidle
    split at hs
    · obtain rfl := Option.some.inj hs
      refine h.move rfl id fun hreaches => ?_
      rw [hidle] at hreaches
      cases hreaches
    · cases hs
  · cases hs

omit [Fintype ι] [Fintype κ] in
theorem Ending.complete {other : ι} (h : s.Ending other)
    (hthread : s.thread thread = .completes reason stage call rest)
    (hhandle : reason = .handle → rest = []) : (s.complete thread reason stage call rest).Ending other := by
  have hrest : (s.thread thread).reaches other → stage = .exchanges ∧ call = other ∨ other ∈ rest := by
    rw [hthread]
    exact id
  -- past `exchanges` the calls that follow are left
  have hgoOn (hstage : stage ≠ .exchanges) (stage' : Stage) (hreaches : (s.thread thread).reaches other) :
      (ThreadPc.completes reason stage' call rest).reaches other :=
    .inr ((hrest hreaches).resolve_left fun hat => hstage hat.1)
  have hnext (hstage : stage ≠ .exchanges) (hreaches : (s.thread thread).reaches other) :
      (ThreadPc.next reason rest).reaches other :=
    ThreadPc.next_reaches ((hrest hreaches).resolve_left fun hat => hstage hat.1)
  unfold Calls.complete
  dsimp only
  cases stage with
  | exchanges =>
    dsimp only
    split
    · rename_i hcompleted
      refine h.move rfl id fun hreaches => ?_
      obtain ⟨-, rfl⟩ | hmem := hrest hreaches
      · exact .inl hcompleted
      · have hne : reason ≠ .handle := fun heq => by
          rw [hhandle heq] at hmem
          cases hmem
        rw [if_neg hne]
        exact .inr (.inr hmem)
    · refine h.move rfl (update_completed other fun _ => rfl) fun hreaches => ?_
      obtain ⟨-, rfl⟩ | hmem := hrest hreaches
      · refine .inl ?_
        show (Function.update s.call call _ call).completed
        rw [Function.update_self]
      · exact .inr (.inr hmem)
  | subs => exact h.move rfl id fun hreaches => .inr (hgoOn nofun .sets hreaches)
  | sets => exact h.move rfl (update_completed other id) fun hreaches => .inr (hgoOn nofun .takes hreaches)
  | takes =>
    dsimp only
    split
    · exact h.move rfl (update_completed other id) fun hreaches => .inr (hgoOn nofun .cancels hreaches)
    · exact h.move rfl id fun hreaches => .inr (hnext nofun hreaches)
  | cancels => exact h.move rfl (update_completed other id) fun hreaches => .inr (hgoOn nofun .unrefs hreaches)
  | unrefs => exact h.move rfl id fun hreaches => .inr (hgoOn nofun .releases hreaches)
  | releases => exact h.move rfl (update_completed other id) fun hreaches => .inr (hnext nofun hreaches)

theorem close_completed (c : Call) : (close c).completed = c.completed := by
  unfold close
  split <;> rfl

theorem step_ending {action : Action ι κ} {other : ι} (hinv : s.Inv limits) (h : s.Ending other)
    (hs : s.step limits action = some s') : s'.Ending other := by
  cases action with
  | submit call ok =>
    obtain ⟨hthread, hcompleted⟩ := runSubmit_frame hs
    exact h.frame hthread (hcompleted other)
  | notify call =>
    obtain ⟨hthread, hcompleted⟩ := runNotify_frame hs
    exact h.frame hthread (hcompleted other)
  | deadline call =>
    obtain rfl := Option.some.inj hs
    exact h.frame rfl (update_completed other id)
  | reply call =>
    simp only [step] at hs
    split at hs
    · obtain rfl := Option.some.inj hs
      exact h.frame rfl (update_completed other id)
    · cases hs
  | cancelCall | expireCalls | failPendingOnDisconnect => exact h.starts hs
  | shutdown thread calls =>
    have hclosed : Ending { s with accepting := false, shutdownStarted := true } other := h
    exact hclosed.starts hs
  | thread thread =>
    change s.runThread thread = some s' at hs
    unfold runThread at hs
    split at hs
    · cases hs
    · rename_i hthread
      obtain rfl := Option.some.inj hs
      have hknows := hinv.knows thread
      rw [hthread] at hknows
      exact h.complete hthread hknows.2.2.2
    · rename_i hthread
      obtain rfl := Option.some.inj hs
      refine h.move rfl (fun hcompleted => ?_) fun hreaches => ?_
      · exact (close_completed _).trans hcompleted
      · rw [hthread] at hreaches
        cases hreaches

-- ---------------------------------------------------------------------------
-- Once
-- ---------------------------------------------------------------------------

/-- No function is part-way. -/
def Quiet (s : Calls ι κ) : Prop :=
  (∀ thread, s.thread thread = .idle) ∧ ∀ call, (s.call call).place.still ∧ (s.call call).notify.active = false

instance (s : Calls ι κ) : Decidable s.Quiet :=
  inferInstanceAs (Decidable ((∀ thread, s.thread thread = .idle) ∧
    ∀ call, (s.call call).place.still ∧ (s.call call).notify.active = false))

/-- What holds of the calls between the functions. -/
structure AtRest (s : Calls ι κ) : Prop where
  inFlight : s.inFlight = (Finset.univ.filter fun call => (s.call call).place ≠ .idle ∧
    (s.call call).results = []).card
  completed : ∀ call, (s.call call).completed → (s.call call).results.length = 1
  answered : ∀ call, (s.call call).notify ≠ .none → (s.call call).results.length = 1
  failed : ∀ call, (s.call call).place.ended → (s.call call).results.length = 1
  shutDown : s.accepting = false → ∀ call, (s.call call).place = .returned → (s.call call).results.length = 1
  released : ∀ call, (s.call call).sent → (s.call call).released = if (s.call call).results = [] then 0 else 1

structure Once (limits : CallLimits) (s : Calls ι κ) : Prop where
  results : ∀ call, (s.call call).results.length ≤ 1
  released : ∀ call, (s.call call).released ≤ 1
  unused : s.misused = false
  atLeast : 0 ≤ s.inFlight
  atMost : s.inFlight ≤ min limits.maxInFlightCalls limits.maxQueuedCommands
  atRest : s.Quiet → s.AtRest

variable (hinv : s.Inv limits) (hquiet : s.Quiet)

omit [DecidableEq κ] in
theorem Inv.results_le (hinv : s.Inv limits) (call : ι) : (s.call call).results.length ≤ 1 := by
  have hgiven := hinv.given call
  have hle : (s.call call).expected ≤ 1 := Bool.toNat_le _
  rw [Call.given] at hgiven
  omega

omit [DecidableEq κ] in
theorem Inv.released_le (hinv : s.Inv limits) (call : ι) : (s.call call).released ≤ 1 := by
  have hrefs := hinv.refs call
  have hle : (s.call call).sent.toNat ≤ 1 := Bool.toNat_le _
  rw [Call.refs] at hrefs
  omega

section
include hquiet

omit [DecidableEq ι] [DecidableEq κ] [Fintype ι] in
theorem Quiet.census_thread {f : ThreadPc ι → Nat} (hidle : f .idle = 0) : census f s.thread = 0 :=
  Finset.sum_eq_zero fun thread _ => by
    rw [hquiet.1 thread]
    exact hidle

omit [DecidableEq ι] [DecidableEq κ] [Fintype ι] [Fintype κ] in
theorem Quiet.notify (call : ι) : (s.call call).notify = .none ∨ (s.call call).notify = .done := by
  have hactive := (hquiet.2 call).2
  cases hnotify : (s.call call).notify with
  | none => exact .inl rfl
  | done => exact .inr rfl
  | steals | erases | exchanges | subs | sets =>
    rw [hnotify] at hactive
    cases hactive

omit [DecidableEq ι] [DecidableEq κ] [Fintype ι] [Fintype κ] in
theorem Quiet.owes (call : ι) : (s.call call).notify.owes = false ∧ (s.call call).notify.subbing = false := by
  obtain hnotify | hnotify := hquiet.notify call <;> rw [hnotify] <;> exact ⟨rfl, rfl⟩

omit [DecidableEq ι] [DecidableEq κ] [Fintype ι] [Fintype κ] in
theorem Quiet.counted (call : ι) : (s.call call).place.counted = false ∧ (s.call call).place.owner = false := by
  have hstill := (hquiet.2 call).1
  cases hplace : (s.call call).place with
  | idle | failed | unregistered | returned => exact ⟨rfl, rfl⟩
  | _ =>
    rw [hplace] at hstill
    cases hstill

include hinv

omit [DecidableEq κ] in
theorem Inv.length_eq (call : ι) : (s.call call).results.length = (s.call call).expected := by
  have hgiven := hinv.given call
  rw [hquiet.census_thread rfl, Call.given, (hquiet.owes call).1] at hgiven
  exact hgiven

omit [DecidableEq κ] in
theorem Inv.length_of_completed (call : ι) (hcompleted : (s.call call).completed) :
    (s.call call).results.length = 1 := by
  have hat := (hinv.fine call).atPlace
  have hstill := (hquiet.2 call).1
  rw [hinv.length_eq hquiet, Call.expected]
  unfold Call.AtPlace at hat
  cases hplace : (s.call call).place with
  | failed | unregistered => rfl
  | returned =>
    rw [hcompleted]
    rfl
  | idle =>
    rw [hplace, hcompleted] at hat
    cases hat.2
  | _ =>
    rw [hplace] at hstill
    cases hstill

omit [DecidableEq κ] in
/-- A call without a result is with libdbus, or was not begun. -/
theorem Inv.nil_iff (call : ι) : (s.call call).place ≠ .idle ∧ (s.call call).results = [] ↔
    (s.call call).counts := by
  have hlength := hinv.length_eq hquiet call
  have hstill := (hquiet.2 call).1
  rw [← List.length_eq_zero_iff, hlength, Call.expected, Call.counts]
  cases hplace : (s.call call).place with
  | idle | failed | unregistered => simp [SubmitPc.ended, SubmitPc.published, SubmitPc.counted]
  | returned => cases (s.call call).completed <;> simp [SubmitPc.ended, SubmitPc.published, SubmitPc.counted]
  | _ =>
    rw [hplace] at hstill
    cases hstill

omit [DecidableEq κ] in
theorem Inv.inFlight_eq :
    s.inFlight = (Finset.univ.filter fun call => (s.call call).place ≠ .idle ∧ (s.call call).results =
      []).card := by
  have hunits := hinv.units
  have hcard : census Call.unit s.call =
      (Finset.univ.filter fun call => (s.call call).place ≠ .idle ∧ (s.call call).results = []).card := by
    rw [Finset.card_filter]
    refine Finset.sum_congr rfl fun call _ => ?_
    rw [Call.unit, (hquiet.owes call).2]
    simp only [hinv.nil_iff hquiet call]
    cases (s.call call).counts <;> rfl
  rw [hquiet.census_thread rfl, hcard] at hunits
  exact hunits

omit [DecidableEq κ] in
theorem Inv.completed_of_shutDown (haccepting : s.accepting = false) (call : ι)
    (hplace : (s.call call).place = .returned) :
    (s.call call).completed := by
  have hfine := hinv.fine call
  have hat := hfine.atPlace
  rw [Call.AtPlace, hplace] at hat
  by_contra hcompleted
  obtain hpending | hnotify := hat.2.2 (eq_false_of_ne_true hcompleted)
  · obtain ⟨thread, hshutting⟩ | hall := hinv.closed haccepting
    · rw [hquiet.1 thread] at hshutting
      cases hshutting
    · rw [← hfine.listed, hall call] at hpending
      cases hpending
  · obtain hnone | hdone := hquiet.notify call <;> rw [hnotify] at * <;> contradiction

omit [DecidableEq κ] in
theorem Inv.released_eq (call : ι) (hsent : (s.call call).sent) :
    (s.call call).released = if (s.call call).results = [] then 0 else 1 := by
  have hfine := hinv.fine call
  have hrefs := hinv.refs call
  have hat := hfine.atPlace
  have hstill := (hquiet.2 call).1
  have hlength := hinv.length_eq hquiet call
  rw [Call.refs, hquiet.census_thread rfl, (hquiet.counted call).2, hsent] at hrefs
  have hpending : (s.call call).pending ↔ (s.call call).results = [] := by
    rw [← List.length_eq_zero_iff, hlength, Call.expected]
    unfold Call.AtPlace at hat
    cases hplace : (s.call call).place with
    | idle =>
      rw [hplace, hsent] at hat
      cases hat.1
    | failed =>
      rw [hplace, hsent] at hat
      cases hat
    | unregistered =>
      rw [hplace] at hat
      rw [hat.2.2.2]
      exact iff_of_false (by rintro ⟨⟩) (by rintro ⟨⟩)
    | returned =>
      rw [hplace] at hat
      cases hcompleted : (s.call call).completed with
      | true =>
        refine iff_of_false (fun hpending => ?_) (by rintro ⟨⟩)
        obtain ⟨thread, hclears⟩ := hinv.cleared call hcompleted hpending
        rw [hquiet.1 thread] at hclears
        cases hclears
      | false =>
        refine iff_of_true ((hat.2.2 hcompleted).resolve_right fun hnotify => ?_) rfl
        obtain hnone | hdone := hquiet.notify call <;> rw [hnotify] at * <;> contradiction
    | _ =>
      rw [hplace] at hstill
      cases hstill
  split
  · rename_i hnil
    rw [hpending.mpr hnil] at hrefs
    simp at hrefs
    omega
  · rename_i hnil
    rw [eq_false_of_ne_true fun h => hnil (hpending.mp h)] at hrefs
    simp at hrefs
    omega

end

-- ---------------------------------------------------------------------------
-- Runs
-- ---------------------------------------------------------------------------

theorem reaches_inv (h : ReachesBy (step limits) Undisturbed ({} : Calls ι κ) s) : s.Inv limits :=
  h.invariant (initial_inv limits) fun hinv hok hs => step_inv hinv hok hs

omit [DecidableEq κ] in
theorem Inv.once (hinv : s.Inv limits) : s.Once limits where
  results := hinv.results_le
  released := hinv.released_le
  unused := hinv.unused
  atLeast := by
    rw [hinv.units]
    exact Int.natCast_nonneg _
  atMost := hinv.atMost
  atRest hquiet := {
    inFlight := hinv.inFlight_eq hquiet
    completed := hinv.length_of_completed hquiet
    answered := fun call hnotify => by
      obtain hnone | hdone := hquiet.notify call
      · exact absurd hnone hnotify
      · exact hinv.length_of_completed hquiet call ((hinv.fine call).exchanged (by rw [hdone]; rfl))
    failed := fun call hended => by
      rw [hinv.length_eq hquiet, Call.expected, hended]
      rfl
    shutDown := fun haccepting call hplace =>
      hinv.length_of_completed hquiet call (hinv.completed_of_shutDown hquiet haccepting call hplace)
    released := hinv.released_eq hquiet }

omit [DecidableEq κ] in
theorem Inv.ending_of_deals (hinv : s.Inv limits) (hdeals : (s.thread thread).deals call) : s.Ending call := by
  have hknows := hinv.knows thread
  cases hthread : s.thread thread with
  | completes reason stage current rest =>
    rw [hthread] at hdeals hknows
    obtain rfl | hmem := List.mem_cons.mp hdeals
    · by_cases hstage : stage = .exchanges
      · exact .inr ⟨thread, by rw [hthread]; exact .inl ⟨hstage, rfl⟩⟩
      · exact .inl (hknows.2.1 hstage)
    · exact .inr ⟨thread, by rw [hthread]; exact .inr hmem⟩
  | idle | closes =>
    rw [hthread] at hdeals
    cases hdeals

omit [DecidableEq ι] [DecidableEq κ] [Fintype ι] [Fintype κ] in
theorem Ending.completed (h : s.Ending call) (hquiet : s.Quiet) : (s.call call).completed := by
  refine h.resolve_right ?_
  rintro ⟨thread, hreaches⟩
  rw [hquiet.1 thread] at hreaches
  cases hreaches

instance (s : Calls ι κ) : (action : Action ι κ) → Decidable (s.Undisturbed action)
  | .submit call ok =>
    inferInstanceAs (Decidable ((s.call call).place = .registers → ok = false → (s.call call).completed =
      false))
  | .thread thread => match hthread : s.thread thread with
    | .completes _ .exchanges call _ =>
      decidable_of_iff ((s.call call).place.failing = false) (by simp only [Undisturbed, hthread])
    | .completes _ .releases call _ =>
      decidable_of_iff ((s.call call).place ≠ .registers ∧ (s.call call).notify ≠ .steals)
        (by simp only [Undisturbed, hthread])
    | .completes _ .subs .. | .completes _ .sets .. | .completes _ .takes .. | .completes _ .cancels ..
    | .completes _ .unrefs .. | .idle | .closes => .isTrue (by simp only [Undisturbed, hthread])
  | .deadline _ | .reply _ | .notify _ | .cancelCall .. | .expireCalls ..
  | .failPendingOnDisconnect .. | .shutdown .. =>
    inferInstanceAs (Decidable True)

/-- And whoever has begun to complete a call has seen to its result. -/
theorem completed_once {t : Calls ι κ} (h : ReachesBy (step limits) Undisturbed ({} : Calls ι κ) s)
    (h' : ReachesBy (step limits) Undisturbed s t) :
    t.Once limits ∧
      ∀ call, (∃ thread, (s.thread thread).deals call) → t.Quiet → (t.call call).results.length = 1 := by
  have hinv := reaches_inv (h.trans h')
  refine ⟨hinv.once, fun call hdeals hquiet => ?_⟩
  obtain ⟨thread, hthread⟩ := hdeals
  have hending :=
    h'.invariant (I := fun t => t.Inv limits ∧ t.Ending call) ⟨reaches_inv h,
      (reaches_inv h).ending_of_deals hthread⟩ fun hold hok hs =>
      ⟨step_inv hold.1 hok hs, step_ending hold.1 hold.2 hs⟩
  exact hinv.length_of_completed hquiet call (hending.2.completed hquiet)

/-- Two calls are sent; one is answered, and the handle of the other is cancelled. -/
def sends : List (Action Bool Unit) :=
  List.replicate 4 (Action.submit false true) ++ List.replicate 4 (Action.submit true true) ++
    [Action.reply true, Action.cancelCall () false]

def handled : Calls Bool Unit := (execBy (step {}) Undisturbed {} sends).getD {}

theorem completed_once_cancelled :
    (handled.thread ()).deals false ∧
      ∃ t : Calls Bool Unit, t.Quiet ∧ t.Once {} ∧ (t.call false).results.length = 1 ∧
        (t.call true).results = [.answered] := by
  have hdeals : (handled.thread ()).deals false := by decide +kernel
  have h : ReachesBy (step {}) Undisturbed {} handled := .of_isSome_by sends (by decide +kernel)
  have h' : ReachesBy (step {}) Undisturbed handled _ :=
    .of_isSome_by (List.replicate 5 (.notify true) ++ List.replicate 7 (.thread ())) (by decide +kernel)
  obtain ⟨honce, hresults⟩ := completed_once h h'
  exact ⟨hdeals, _, by decide +kernel, honce, hresults false ⟨(), hdeals⟩ (by decide +kernel),
    by decide +kernel⟩

/-- The worker expires a call before `submit` calls `set_notify`. -/
def expiring : List (Action Unit Unit) :=
  List.replicate 3 (Action.submit () true) ++ [Action.deadline (), .expireCalls () [()]] ++
    List.replicate 7 (Action.thread ()) ++
    [Action.submit () true]

theorem used_after_release : ¬ ∀ s : Calls Unit Unit, Reaches (step {}) {} s → s.Once {} := by
  intro h
  have hreaches : Reaches (step {}) ({} : Calls Unit Unit) _ := .of_isSome expiring (by decide +kernel)
  have hunused := (h _ hreaches).unused
  revert hunused
  decide +kernel

end Calls
end Dmn.Dbus
