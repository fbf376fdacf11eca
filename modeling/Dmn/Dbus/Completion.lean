import Dmn.Dbus.Calls
import Dmn.Lib.Census
import Mathlib.Algebra.BigOperators.Group.Finset.Piecewise

/-!
# Who completes a call

Who sets `completed` gives the result and decreases `m_in_flight`, and who
takes the pending call from the request releases it. `submit` does neither
when `set_notify` fails, and calls `set_notify` when the request can already be
taken. Where nobody meets it there, nothing is done twice.
-/

namespace Dmn.Dbus

open Dmn.Lib

/-- `set_notify` has failed. -/
def SubmitPc.failing : SubmitPc → Bool
  | .unregisters | .cancels _ | .unrefs _ | .subs | .sets | .unregistered => true
  | _ => false

/-- It has been sent, and may have been completed by another thread. -/
def SubmitPc.published : SubmitPc → Bool
  | .registers | .returned => true
  | _ => false

theorem SubmitPc.published_cases {pc : SubmitPc} (h : pc.published) : pc = .registers ∨ pc = .returned := by
  cases pc <;> first | exact .inl rfl | exact .inr rfl | cases h

/-- `submit` is going to decrease `m_in_flight`, when nobody else does. -/
def SubmitPc.counted : SubmitPc → Bool
  | .encodes | .sends | .drops | .unregisters | .cancels _ | .unrefs _ | .subs => true
  | _ => false

/-- `submit` has given the result. -/
def SubmitPc.ended : SubmitPc → Bool
  | .failed | .unregistered => true
  | _ => false

/-- `submit` has the reference. -/
def SubmitPc.owner : SubmitPc → Bool
  | .cancels owned | .unrefs owned => owned
  | _ => false

/-- `pendingComplete` is going to give a result. -/
def NotifyPc.owes : NotifyPc → Bool
  | .subs | .sets => true
  | _ => false

def NotifyPc.subbing : NotifyPc → Bool
  | .subs => true
  | _ => false

/-- `pendingComplete` has erased the call. -/
def NotifyPc.erased : NotifyPc → Bool
  | .exchanges | .subs | .sets | .done => true
  | _ => false

/-- It has set `completed`, or has found it set. -/
def NotifyPc.exchanged : NotifyPc → Bool
  | .subs | .sets | .done => true
  | _ => false

def Stage.owes : Stage → Bool
  | .subs | .sets => true
  | _ => false

def Stage.subbing : Stage → Bool
  | .subs => true
  | _ => false

def Stage.holds : Stage → Bool
  | .cancels | .unrefs | .releases => true
  | _ => false

/-- `cancelPending` is still to come. -/
def Stage.before : Stage → Bool
  | .exchanges | .subs | .sets | .takes => true
  | _ => false

namespace Call

/-- `submit`, or who sets `completed`, is going to decrease `m_in_flight`. -/
def counts (c : Call) : Bool := c.place.counted || c.place.published && !c.completed

/-- What is counted in `m_in_flight` for the call, but for the threads that complete it. -/
def unit (c : Call) : Nat := c.counts.toNat + c.notify.subbing.toNat

/-- The results of the call, but for those that other threads are going to give. -/
def given (c : Call) : Nat := c.results.length + c.notify.owes.toNat

def expected (c : Call) : Nat := (c.place.ended || c.place.published && c.completed).toNat

/-- The references to the pending call, but for those that other threads have, and those that are released. -/
def refs (c : Call) : Nat := c.pending.toNat + c.place.owner.toNat + c.released

/-- What goes together at each place of `submit`. -/
def AtPlace (c : Call) : Prop :=
  match c.place with
  | .idle | .encodes | .sends | .drops | .finishes => c.sent = false ∧ c.completed = false
  | .failed => c.sent = false
  | .registers => c.sent ∧ c.registered = false ∧ c.released = 0 ∧ (c.completed = false → c.pending)
  | .unregisters => c.sent ∧ c.registered = false ∧ c.completed = false ∧ c.pending
  | .cancels owned => c.sent ∧ c.registered = false ∧ c.completed = false ∧ owned
  | .unrefs owned => c.sent ∧ c.registered = false ∧ c.completed = false ∧ owned ∧ c.cancelled
  | .subs | .sets | .unregistered => c.sent ∧ c.registered = false ∧ c.completed = false ∧ c.pending = false
  | .returned => c.sent ∧ c.registered ∧ (c.completed = false → c.pending ∨ c.notify = .exchanges)

structure Fine (c : Call) : Prop where
  atPlace : c.AtPlace
  listed : c.listed = c.pending
  registered : c.registered → c.place = .returned
  notified : c.notify ≠ .none → c.registered
  dispatched : c.notify ≠ .none → c.dispatched
  steals : c.notify = .steals → c.released = 0
  unstarted : c.notify = .none → c.released = 0 ∨ c.cancelled
  erased : c.notify.erased → c.pending = false
  exchanged : c.notify.exchanged → c.completed

variable {c : Call}

theorem Fine.unregistered (h : c.Fine) (hplace : c.place ≠ .returned) : c.registered = false ∧
    c.notify = .none := by
  have hregistered : c.registered = false := eq_false_of_ne_true fun hregistered =>
    hplace (h.registered hregistered)
  refine ⟨hregistered, not_not.mp fun hnotify => ?_⟩
  rw [h.notified hnotify] at hregistered
  cases hregistered

/-- A call that is not registered. -/
theorem Fine.ofUnregistered (hregistered : c.registered = false) (hnotify : c.notify = .none)
    (hlisted : c.listed = c.pending)
    (hreleased : c.released = 0 ∨ c.cancelled) (hat : c.AtPlace) : c.Fine where
  atPlace := hat
  listed := hlisted
  registered hregistered' := by
    rw [hregistered] at hregistered'
    cases hregistered'
  notified hnotify' := absurd hnotify hnotify'
  dispatched hnotify' := absurd hnotify hnotify'
  steals hsteals := by
    rw [hnotify] at hsteals
    cases hsteals
  unstarted _ := hreleased
  erased herased := by
    rw [hnotify] at herased
    cases herased
  exchanged hexchanged := by
    rw [hnotify] at hexchanged
    cases hexchanged

/-- A call whose notify function has begun. -/
theorem Fine.ofNotified (hplace : c.place = .returned) (hsent : c.sent) (hregistered : c.registered)
    (hdispatched : c.dispatched)
    (hlisted : c.listed = c.pending) (hnone : c.notify ≠ .none) (hsteals : c.notify ≠ .steals)
    (hpending : c.completed = false → c.pending ∨ c.notify = .exchanges)
    (herased : c.notify.erased → c.pending = false)
    (hexchanged : c.notify.exchanged → c.completed) : c.Fine where
  atPlace := by
    unfold AtPlace
    rw [hplace]
    exact ⟨hsent, hregistered, hpending⟩
  listed := hlisted
  registered _ := hplace
  notified _ := hregistered
  dispatched _ := hdispatched
  steals heq := absurd heq hsteals
  unstarted heq := absurd heq hnone
  erased := herased
  exchanged := hexchanged

/-- A call that is sent is where other threads can complete it, but for one whose `set_notify` has failed. -/
theorem Fine.published (h : c.Fine) (hsent : c.sent) (hfailing : c.place.failing = false) :
    c.place.published := by
  have hat := h.atPlace
  unfold AtPlace at hat
  cases hplace : c.place with
  | registers | returned => rfl
  | idle | encodes | sends | drops | finishes =>
    rw [hplace] at hat
    rw [hat.1] at hsent
    cases hsent
  | failed =>
    rw [hplace] at hat
    have hunsent : c.sent = false := hat
    rw [hunsent] at hsent
    cases hsent
  | unregisters | cancels | unrefs | subs | sets | unregistered =>
    rw [hplace] at hfailing
    cases hfailing

/-- A call whose `set_notify` has failed is completed by `submit` only. -/
theorem Fine.not_failing (h : c.Fine) (hcompleted : c.completed) : c.place.failing = false := by
  have hat := h.atPlace
  unfold AtPlace at hat
  cases hplace : c.place with
  | idle | encodes | sends | drops | finishes | failed | registers | returned => rfl
  | unregisters | cancels | unrefs =>
    rw [hplace, hcompleted] at hat
    cases hat.2.2.1
  | subs | sets | unregistered =>
    rw [hplace, hcompleted] at hat
    cases hat.2.2.1

/-- Another thread has completed the call, or does so. -/
theorem Fine.ofCompleted {d : Call} (h : c.Fine) (hpublished : c.place.published) (hcompleted : d.completed)
    (hplace : d.place = c.place) (hsent : d.sent = c.sent) (hregistered : d.registered = c.registered)
    (hnotify : d.notify = c.notify) (hdispatched : d.dispatched = c.dispatched)
    (hlisted : d.listed = d.pending) (hpending : d.pending → c.pending)
    (hreleased : c.place = .registers → d.released = 0) (hsteals : c.notify = .steals → d.released = 0)
    (hunstarted : c.notify = .none → d.released = 0 ∨ d.cancelled) : d.Fine where
  atPlace := by
    have hat := h.atPlace
    unfold AtPlace at hat ⊢
    rw [hplace, hsent, hregistered, hcompleted]
    obtain heq | heq := SubmitPc.published_cases hpublished <;> rw [heq] at hat ⊢
    · exact ⟨hat.1, hat.2.1, hreleased heq, nofun⟩
    · exact ⟨hat.1, hat.2.1, nofun⟩
  listed := hlisted
  registered hreg := hplace.trans (h.registered (hregistered ▸ hreg))
  notified hne := hregistered ▸ h.notified (hnotify ▸ hne)
  dispatched hne := hdispatched ▸ h.dispatched (hnotify ▸ hne)
  steals heq := hsteals (hnotify ▸ heq)
  unstarted heq := hunstarted (hnotify ▸ heq)
  erased herased := eq_false_of_ne_true fun hd => by
    have hnone := h.erased (hnotify ▸ herased)
    rw [hpending hd] at hnone
    cases hnone
  exchanged _ := hcompleted

/-- What is never taken back. -/
structure Extends (c d : Call) : Prop where
  sent : c.sent → d.sent
  completed : c.completed → d.completed
  cancelled : c.cancelled → d.cancelled

end Call

namespace ThreadPc

variable {ι : Type} [DecidableEq ι]

/-- The thread is going to give the call a result. -/
def owes (call : ι) : ThreadPc ι → Nat
  | .completes _ stage current _ => (stage.owes && decide (current = call)).toNat
  | _ => 0

/-- The thread has the reference to the pending call. -/
def holds (call : ι) : ThreadPc ι → Nat
  | .completes _ stage current _ => (stage.holds && decide (current = call)).toNat
  | _ => 0

def subbing : ThreadPc ι → Nat
  | .completes _ .subs _ _ => 1
  | _ => 0

/-- `cancelPending` of the call is still to come, whoever completes it. -/
def clears (call : ι) : ThreadPc ι → Prop
  | .completes reason stage current rest =>
    stage.before ∧ (reason = .handle → stage ≠ .exchanges) ∧ current = call ∨ call ∈ rest
  | _ => False

def shutting : ThreadPc ι → Bool
  | .completes .shutdown .. | .closes => true
  | _ => false

/-- What the thread knows of the calls; a handle completes one only. -/
def Knows (calls : ι → Call) : ThreadPc ι → Prop
  | .completes reason stage current rest =>
    (∀ call ∈ current :: rest, (calls call).sent) ∧ (stage ≠ .exchanges → (calls current).completed) ∧
      (stage = .unrefs ∨ stage = .releases → (calls current).cancelled) ∧ (reason = .handle → rest = [])
  | _ => True

variable {reason : Reason} {stage : Stage} {call other : ι} {rest : List ι}

theorem owes_of_ne (h : other ≠ call) : (completes reason stage call rest).owes other = 0 := by
  rw [owes, decide_eq_false (Ne.symm h), Bool.and_false]
  rfl

theorem holds_of_ne (h : other ≠ call) : (completes reason stage call rest).holds other = 0 := by
  rw [holds, decide_eq_false (Ne.symm h), Bool.and_false]
  rfl

theorem next_owes (reason : Reason) (rest : List ι) (call : ι) : (next reason rest).owes call = 0 := by
  cases rest <;> cases reason <;> rfl

theorem next_holds (reason : Reason) (rest : List ι) (call : ι) : (next reason rest).holds call = 0 := by
  cases rest <;> cases reason <;> rfl

omit [DecidableEq ι] in
theorem next_subbing (reason : Reason) (rest : List ι) : (next reason rest).subbing = 0 := by
  cases rest <;> cases reason <;> rfl

omit [DecidableEq ι] in
theorem next_shutting (reason : Reason) (rest : List ι) : (next reason rest).shutting = decide
    (reason = .shutdown) := by
  cases rest <;> cases reason <;> rfl

omit [DecidableEq ι] in
theorem completes_shutting : (completes reason stage call rest).shutting = decide (reason = .shutdown) := by
  cases reason <;> rfl

omit [DecidableEq ι] in
theorem next_clears (hhandle : reason = .handle → rest = []) (h : call ∈ rest) :
    (next reason rest).clears call := by
  cases rest with
  | nil => cases h
  | cons first rest =>
    obtain rfl | h := List.mem_cons.mp h
    · exact .inl ⟨rfl, fun heq => absurd (hhandle heq) nofun, rfl⟩
    · exact .inr h

omit [DecidableEq ι] in
theorem next_knows {calls : ι → Call} (hhandle : reason = .handle → rest.tail = [])
    (h : ∀ call ∈ rest, (calls call).sent) :
    (next reason rest).Knows calls := by
  cases rest with
  | nil => cases reason <;> trivial
  | cons first rest =>
    refine ⟨h, fun hne => absurd rfl hne, ?_, hhandle⟩
    rintro (heq | heq) <;> cases heq

end ThreadPc

namespace Calls

variable {ι κ : Type} [DecidableEq ι] [DecidableEq κ] [Fintype ι] [Fintype κ] {limits : CallLimits}
    {s s' : Calls ι κ}

/-- Nobody completes a call whose `set_notify` has failed, or fails when the call is completed;
and nobody releases a pending call on which `set_notify`, or `steal_reply` of a notify function
that has begun, is still to be called. -/
def Undisturbed (s : Calls ι κ) : Action ι κ → Prop
  | .submit call ok => (s.call call).place = .registers → ok = false → (s.call call).completed = false
  | .thread thread => match s.thread thread with
    | .completes _ .exchanges call _ => (s.call call).place.failing = false
    | .completes _ .releases call _ => (s.call call).place ≠ .registers ∧ (s.call call).notify ≠ .steals
    | _ => True
  | _ => True

structure Inv (limits : CallLimits) (s : Calls ι κ) : Prop where
  units : s.inFlight = (census Call.unit s.call + census ThreadPc.subbing s.thread : Nat)
  atMost : s.inFlight ≤ limits.most
  given : ∀ call, (s.call call).given + census (ThreadPc.owes call) s.thread = (s.call call).expected
  refs : ∀ call, (s.call call).refs + census (ThreadPc.holds call) s.thread = (s.call call).sent.toNat
  fine : ∀ call, (s.call call).Fine
  knows : ∀ thread, (s.thread thread).Knows s.call
  -- Who has completed a call is going to take its pending call.
  cleared : ∀ call, (s.call call).completed → (s.call call).pending → ∃ thread, (s.thread thread).clears call
  closing : ∀ thread, (s.thread thread).shutting →
    s.accepting = false ∧ ∀ call, (s.call call).listed → (s.thread thread).clears call
  closed : s.accepting = false → (∃ thread, (s.thread thread).shutting) ∨ ∀ call, (s.call call).listed = false
  unused : s.misused = false

omit [DecidableEq κ] [Fintype κ] in
theorem initial_inv (limits : CallLimits) [Fintype κ] : Inv limits ({} : Calls ι κ) where
  units := by
    have hcalls : census Call.unit (fun _ : ι => ({} : Call)) = 0 := Finset.sum_eq_zero fun _ _ => rfl
    have hthreads : census ThreadPc.subbing (fun _ : κ => (.idle : ThreadPc ι)) = 0 :=
      Finset.sum_eq_zero fun _ _ => rfl
    show (0 : Int) = (census Call.unit (fun _ : ι => ({} : Call)) + census ThreadPc.subbing fun _ : κ =>
      .idle : Nat)
    rw [hcalls, hthreads]
    rfl
  atMost := Int.natCast_nonneg _
  given call := by
    have hthreads : census (ThreadPc.owes call) (fun _ : κ => .idle) = 0 := Finset.sum_eq_zero fun _ _ => rfl
    show 0 + census (ThreadPc.owes call) (fun _ : κ => .idle) = 0
    rw [hthreads]
  refs call := by
    have hthreads : census (ThreadPc.holds call) (fun _ : κ => .idle) = 0 := Finset.sum_eq_zero fun _ _ => rfl
    show 0 + census (ThreadPc.holds call) (fun _ : κ => .idle) = 0
    rw [hthreads]
  fine _ := ⟨⟨rfl, rfl⟩, rfl, nofun, fun h => absurd rfl h, fun h => absurd rfl h, nofun,
    fun _ => .inl rfl, nofun, nofun⟩
  knows _ := trivial
  cleared _ := nofun
  closing _ := nofun
  closed := nofun
  unused := rfl

-- ---------------------------------------------------------------------------
-- One call and one thread move
-- ---------------------------------------------------------------------------

omit [DecidableEq κ] [Fintype ι] [Fintype κ] in
theorem knows_update {call : ι} {c : Call} {pc : ThreadPc ι} (h : pc.Knows s.call)
    (hextends : (s.call call).Extends c) :
    pc.Knows (Function.update s.call call c) := by
  have hall : ∀ other, (s.call other).Extends (Function.update s.call call c other) := by
    intro other
    rw [Function.update_apply]
    split
    · rename_i hsame
      exact hsame ▸ hextends
    · exact ⟨id, id, id⟩
  cases pc with
  | completes reason stage current rest =>
    obtain ⟨hsent, hcompleted, hcancelled, hhandle⟩ := h
    exact ⟨fun other hmem => (hall other).sent (hsent other hmem),
      fun hstage => (hall current).completed (hcompleted hstage),
      fun hstage => (hall current).cancelled (hcancelled hstage), hhandle⟩
  | idle | closes => trivial

omit [DecidableEq κ] in
/-- The call moves. -/
theorem Inv.callStep (h : s.Inv limits) (call : ι) (c : Call) (inFlight : Int) (misused : Bool)
    (hunit : inFlight + (s.call call).unit = s.inFlight + c.unit) (hmost : inFlight ≤ limits.most)
    (hgiven : c.given + (s.call call).expected = (s.call call).given + c.expected)
    (hrefs : c.refs + (s.call call).sent.toNat = (s.call call).refs + c.sent.toNat)
    (hfine : c.Fine) (hextends : (s.call call).Extends c)
    (hcleared : c.completed → c.pending → (s.call call).completed ∧ (s.call call).pending)
    (hlisted : s.accepting = false → c.listed → (s.call call).listed) (hunused : misused = false) :
    Inv limits { s with call := Function.update s.call call c, inFlight, misused } where
  units := by
    have hcensus := census_update Call.unit s.call call c
    have hunits := h.units
    show inFlight = (census Call.unit (Function.update s.call call c) + census ThreadPc.subbing s.thread : Nat)
    omega
  atMost := hmost
  given other := by
    have hother := h.given other
    show (Function.update s.call call c other).given + census (ThreadPc.owes other) s.thread =
      (Function.update s.call call c other).expected
    rw [Function.update_apply]
    split
    · rename_i hsame
      subst hsame
      omega
    · exact hother
  refs other := by
    have hother := h.refs other
    show (Function.update s.call call c other).refs + census (ThreadPc.holds other) s.thread =
      (Function.update s.call call c other).sent.toNat
    rw [Function.update_apply]
    split
    · rename_i hsame
      subst hsame
      omega
    · exact hother
  fine other := by
    show (Function.update s.call call c other).Fine
    rw [Function.update_apply]
    split
    · exact hfine
    · exact h.fine other
  knows thread := knows_update (h.knows thread) hextends
  cleared other hcompleted hpending := by
    change (Function.update s.call call c other).completed at hcompleted
    change (Function.update s.call call c other).pending at hpending
    rw [Function.update_apply] at hcompleted hpending
    split at hcompleted
    · rename_i hsame
      subst hsame
      rw [if_pos rfl] at hpending
      obtain ⟨hcompleted', hpending'⟩ := hcleared hcompleted hpending
      exact h.cleared other hcompleted' hpending'
    · rename_i hne
      rw [if_neg hne] at hpending
      exact h.cleared other hcompleted hpending
  closing thread hshutting := by
    obtain ⟨haccepting, hclears⟩ := h.closing thread hshutting
    refine ⟨haccepting, fun other hother => hclears other ?_⟩
    change (Function.update s.call call c other).listed at hother
    rw [Function.update_apply] at hother
    split at hother
    · rename_i hsame
      exact hsame ▸ hlisted haccepting hother
    · exact hother
  closed haccepting := by
    refine (h.closed haccepting).imp id fun hnone other => ?_
    show (Function.update s.call call c other).listed = false
    rw [Function.update_apply]
    split
    · refine eq_false_of_ne_true fun hc => ?_
      have hold := hlisted haccepting hc
      rw [hnone] at hold
      cases hold
    · exact hnone other
  unused := hunused

/-- A thread moves, and the call that it completes. -/
theorem Inv.threadStep (h : s.Inv limits) (thread : κ) (pc : ThreadPc ι) (call : ι) (c : Call) (inFlight : Int)
    (misused : Bool)
    (hunit : inFlight + (s.call call).unit + (s.thread thread).subbing = s.inFlight + c.unit + pc.subbing)
    (hmost : inFlight ≤ limits.most)
    (hgiven : c.given + pc.owes call + (s.call call).expected = (s.call call).given +
    (s.thread thread).owes call + c.expected)
    (hrefs : c.refs + pc.holds call = (s.call call).refs + (s.thread thread).holds call)
    (hsent : c.sent = (s.call call).sent)
    (hothers : ∀ other, other ≠ call →
      pc.owes other = (s.thread thread).owes other ∧ pc.holds other = (s.thread thread).holds other)
    (hfine : c.Fine) (hextends : (s.call call).Extends c) (hknows : pc.Knows (Function.update s.call call c))
    (hcleared : c.completed → c.pending → (s.call call).completed ∧ (s.call call).pending ∨ pc.clears call)
    (hlisted : c.listed → (s.call call).listed)
    (hclears : ∀ other, (other = call → c.pending) → (s.thread thread).clears other → pc.clears other)
    (hshutting : pc.shutting → (s.thread thread).shutting)
    (hclosed : (s.thread thread).shutting → pc.shutting ∨ ∀ call, (s.call call).listed = false)
    (hunused : misused = false) :
    Inv limits { s with
      call := Function.update s.call call c, thread := Function.update s.thread thread pc, inFlight,
        misused } where
  units := by
    have hcalls := census_update Call.unit s.call call c
    have hthreads := census_update ThreadPc.subbing s.thread thread pc
    have hunits := h.units
    show inFlight = (census Call.unit (Function.update s.call call c) +
      census ThreadPc.subbing (Function.update s.thread thread pc) : Nat)
    omega
  atMost := hmost
  given other := by
    have hother := h.given other
    have hcensus := census_update (ThreadPc.owes other) s.thread thread pc
    show (Function.update s.call call c other).given + census _ (Function.update s.thread thread pc) =
      (Function.update s.call call c other).expected
    rw [Function.update_apply]
    split
    · rename_i hsame
      subst hsame
      omega
    · rename_i hne
      rw [(hothers other hne).1] at hcensus
      omega
  refs other := by
    have hother := h.refs other
    have hcensus := census_update (ThreadPc.holds other) s.thread thread pc
    show (Function.update s.call call c other).refs + census _ (Function.update s.thread thread pc) =
      (Function.update s.call call c other).sent.toNat
    rw [Function.update_apply]
    split
    · rename_i hsame
      subst hsame
      rw [hsent]
      omega
    · rename_i hne
      rw [(hothers other hne).2] at hcensus
      omega
  fine other := by
    show (Function.update s.call call c other).Fine
    rw [Function.update_apply]
    split
    · exact hfine
    · exact h.fine other
  knows other := by
    show (Function.update s.thread thread pc other).Knows _
    rw [Function.update_apply]
    split
    · exact hknows
    · exact knows_update (h.knows other) hextends
  cleared other hcompleted hpending := by
    change (Function.update s.call call c other).completed at hcompleted
    change (Function.update s.call call c other).pending at hpending
    have hkept : (other = call → c.pending) → (∃ t, (s.thread t).clears other) →
        ∃ t, (Function.update s.thread thread pc t).clears other := by
      rintro hc ⟨t, ht⟩
      by_cases hsame : t = thread
      · subst hsame
        exact ⟨t, by rw [Function.update_self]; exact hclears other hc ht⟩
      · exact ⟨t, by rw [Function.update_of_ne hsame]; exact ht⟩
    rw [Function.update_apply] at hcompleted hpending
    split at hcompleted
    · rename_i hsame
      subst hsame
      rw [if_pos rfl] at hpending
      obtain ⟨hcompleted', hpending'⟩ | hmine := hcleared hcompleted hpending
      · exact hkept (fun _ => hpending) (h.cleared other hcompleted' hpending')
      · refine ⟨thread, ?_⟩
        show (Function.update s.thread thread pc thread).clears other
        rw [Function.update_self]
        exact hmine
    · rename_i hne
      rw [if_neg hne] at hpending
      exact hkept (fun hsame => absurd hsame hne) (h.cleared other hcompleted hpending)
  closing other hother := by
    have hlater : ∀ q, (Function.update s.call call c q).listed → (s.call q).listed ∧
      (q = call → c.pending) := by
      intro q hq
      rw [Function.update_apply] at hq
      split at hq
      · rename_i hsame
        exact ⟨hsame ▸ hlisted hq, fun _ => hfine.listed ▸ hq⟩
      · rename_i hne
        exact ⟨hq, fun hsame => absurd hsame hne⟩
    change (Function.update s.thread thread pc other).shutting at hother
    show _ ∧ ∀ q, _ → (Function.update s.thread thread pc other).clears q
    rw [Function.update_apply] at hother ⊢
    split at hother
    · obtain ⟨haccepting, hclears'⟩ := h.closing thread (hshutting hother)
      refine ⟨haccepting, fun q hq => ?_⟩
      rename_i hsame
      rw [if_pos hsame]
      exact hclears q (hlater q hq).2 (hclears' q (hlater q hq).1)
    · obtain ⟨haccepting, hclears'⟩ := h.closing other hother
      refine ⟨haccepting, fun q hq => ?_⟩
      rename_i hne
      rw [if_neg hne]
      exact hclears' q (hlater q hq).1
  closed haccepting := by
    have hnone : (∀ q, (s.call q).listed = false) → ∀ q, (Function.update s.call call c q).listed = false := by
      intro hnone q
      rw [Function.update_apply]
      split
      · refine eq_false_of_ne_true fun hc => ?_
        have hold := hlisted hc
        rw [hnone] at hold
        cases hold
      · exact hnone q
    obtain ⟨other, hother⟩ | hall := h.closed haccepting
    · by_cases hsame : other = thread
      · subst hsame
        obtain hpc | hall := hclosed hother
        · refine .inl ⟨other, ?_⟩
          show (Function.update s.thread other pc other).shutting
          rw [Function.update_self]
          exact hpc
        · exact .inr (hnone hall)
      · refine .inl ⟨other, ?_⟩
        show (Function.update s.thread thread pc other).shutting
        rw [Function.update_of_ne hsame]
        exact hother
    · exact .inr (hnone hall)
  unused := hunused

-- ---------------------------------------------------------------------------
-- `submit`
-- ---------------------------------------------------------------------------

omit [DecidableEq κ] in
theorem Inv.released_of_pending (h : s.Inv limits) {call : ι} (hpending : (s.call call).pending) :
    (s.call call).released = 0 ∧ (s.call call).sent := by
  have hrefs := h.refs call
  rw [Call.refs, hpending, Bool.toNat_true] at hrefs
  cases hsent : (s.call call).sent with
  | false =>
    rw [hsent, Bool.toNat_false] at hrefs
    omega
  | true =>
    rw [hsent, Bool.toNat_true] at hrefs
    exact ⟨by omega, rfl⟩

omit [DecidableEq κ] in
theorem Inv.of_owner (h : s.Inv limits) {call : ι} (howner : (s.call call).place.owner) :
    (s.call call).released = 0 ∧ (s.call call).pending = false := by
  have hrefs := h.refs call
  have hsent := Bool.toNat_le (s.call call).sent
  rw [Call.refs, howner, Bool.toNat_true] at hrefs
  exact ⟨by omega, Bool.toNat_eq_zero.mp (by omega)⟩

omit [DecidableEq κ] in
theorem Inv.released_of_holds (h : s.Inv limits) {call : ι} {thread : κ}
    (hholds : (s.thread thread).holds call = 1) :
    (s.call call).released = 0 := by
  have hrefs := h.refs call
  have hsent := Bool.toNat_le (s.call call).sent
  have hcensus := le_census (f := ThreadPc.holds call) s.thread thread
  rw [Call.refs] at hrefs
  rw [hholds] at hcensus
  omega

omit [DecidableEq κ] in
/-- The call moves from a place of `submit` to another one, before it is registered. -/
theorem Inv.submitStep (h : s.Inv limits) (call : ι) (c : Call) (inFlight : Int) (misused : Bool)
    (hplace : (s.call call).place ≠ .returned) (hregistered : c.registered = (s.call call).registered)
    (hnotify : c.notify = (s.call call).notify) (hlistedEq : c.listed = c.pending)
    (hreleased : c.released = (s.call call).released ∨ c.cancelled) (hat : c.AtPlace)
    (hunit : inFlight + (s.call call).counts.toNat = s.inFlight + c.counts.toNat)
    (hmost : inFlight ≤ limits.most)
    (hgiven : c.results.length + (s.call call).expected = (s.call call).results.length + c.expected)
    (hrefs : c.refs + (s.call call).sent.toNat = (s.call call).refs + c.sent.toNat)
    (hextends : (s.call call).Extends c)
    (hcleared : c.completed → c.pending → (s.call call).completed ∧ (s.call call).pending)
    (hlisted : s.accepting = false → c.listed → (s.call call).listed) (hunused : misused = false) :
    Inv limits { s with call := Function.update s.call call c, inFlight, misused } := by
  obtain ⟨hold, hnone⟩ := (h.fine call).unregistered hplace
  have hreleased' : c.released = 0 ∨ c.cancelled := by
    obtain hsame | hcancelled := hreleased
    · exact ((h.fine call).unstarted hnone).imp hsame.trans hextends.cancelled
    · exact .inr hcancelled
  have hfine : c.Fine := .ofUnregistered (hregistered.trans hold) (hnotify.trans hnone) hlistedEq hreleased' hat
  refine h.callStep call c inFlight misused ?_ hmost ?_ hrefs hfine hextends hcleared hlisted hunused
  · rw [Call.unit, Call.unit, hnotify]
    omega
  · rw [Call.given, Call.given, hnotify]
    omega

omit [DecidableEq κ] in
/-- Nothing of libdbus belongs to a call that is not sent. -/
theorem Inv.unsent (h : s.Inv limits) {call : ι} (hsent : (s.call call).sent = false) :
    (s.call call).pending = false ∧ (s.call call).released = 0 := by
  have hrefs := h.refs call
  rw [hsent, Bool.toNat_false, Call.refs] at hrefs
  refine ⟨eq_false_of_ne_true fun hpending => ?_, by omega⟩
  rw [hpending, Bool.toNat_true] at hrefs
  omega

omit [DecidableEq κ] in
theorem Inv.use_misused (h : s.Inv limits) {c : Call} (hreleased : c.released = 0) :
    (s.use c).misused = false := by
  rw [use, h.unused, hreleased]
  rfl

omit [DecidableEq κ] in
theorem Inv.useOwned_misused (h : s.Inv limits) {c : Call} (hreleased : c.released = 0) :
    (s.useOwned c true).misused = false := by
  rw [useOwned, h.use_misused hreleased]
  rfl

omit [DecidableEq κ] in
/-- A step of `submit` that changes its place only. -/
theorem Inv.toPlace (h : s.Inv limits) (call : ι) (place : SubmitPc) (inFlight : Int) (misused : Bool)
    (hplace : (s.call call).place ≠ .returned) (hat : Call.AtPlace { s.call call with place })
    (hunit : inFlight + (s.call call).counts.toNat = s.inFlight +
    (Call.counts { s.call call with place }).toNat)
    (hmost : inFlight ≤ limits.most) (hexpected : (s.call call).expected =
    Call.expected { s.call call with place })
    (howner : place.owner = (s.call call).place.owner) (hunused : misused = false) :
    Inv limits { s with call := Function.update s.call call { s.call call with place }, inFlight, misused } :=
  h.submitStep call _ inFlight misused hplace rfl rfl (h.fine call).listed (.inl rfl) hat hunit hmost
    (congrArg _ hexpected) (by simp [Call.refs, howner]) ⟨id, id, id⟩ (fun hc hp => ⟨hc, hp⟩)
    (fun _ hl => hl) hunused

omit [DecidableEq κ] in
theorem runSubmit_inv {call : ι} {ok : Bool} (h : s.Inv limits)
    (hok : (s.call call).place = .registers → ok = false → (s.call call).completed = false)
    (hs : s.runSubmit limits call ok = some s') : s'.Inv limits := by
  have hfine := h.fine call
  have hat := hfine.atPlace
  have hmost := h.atMost
  unfold Call.AtPlace at hat
  unfold runSubmit at hs
  dsimp only at hs
  split at hs <;> rename_i hplace <;> rw [hplace] at hat
  · have hne : (s.call call).place ≠ .returned := by rw [hplace]; exact nofun
    split at hs
    · rename_i hadmitted
      obtain rfl := Option.some.inj hs
      simp only [Bool.and_eq_true, decide_eq_true_eq] at hadmitted
      refine h.toPlace call .encodes (s.inFlight + 1) s.misused hne hat ?_ (by omega) ?_ ?_ h.unused
      · simp [Call.counts, hplace, SubmitPc.counted, SubmitPc.published]
      · simp [Call.expected, hplace, SubmitPc.ended, SubmitPc.published]
      · rw [hplace]; rfl
    · obtain rfl := Option.some.inj hs
      refine h.submitStep call _ s.inFlight s.misused hne rfl rfl hfine.listed (.inl rfl) hat.1 ?_
        h.atMost ?_ ?_
        ⟨id, id, id⟩ (fun hc hp => ⟨hc, hp⟩) (fun _ hl => hl) h.unused
      · simp [Call.counts, hplace, SubmitPc.counted, SubmitPc.published]
      · simp [Call.expected, hplace, SubmitPc.ended, SubmitPc.published]
      · simp [Call.refs, hplace, SubmitPc.owner]
  · have hne : (s.call call).place ≠ .returned := by rw [hplace]; exact nofun
    obtain rfl := Option.some.inj hs
    cases ok <;>
      (refine h.toPlace call _ s.inFlight s.misused hne hat ?_ hmost ?_ ?_ h.unused
       · simp [Call.counts, hplace, SubmitPc.counted, SubmitPc.published]
       · simp [Call.expected, hplace, SubmitPc.ended, SubmitPc.published]
       · rw [hplace]; rfl)
  · have hne : (s.call call).place ≠ .returned := by rw [hplace]; exact nofun
    split at hs
    · rename_i haccepted
      obtain rfl := Option.some.inj hs
      obtain ⟨hpending, hreleased⟩ := h.unsent hat.1
      have hregistered := (hfine.unregistered hne).1
      refine h.submitStep call _ s.inFlight s.misused hne rfl rfl rfl (.inl rfl) ⟨rfl, hregistered,
        hreleased, fun _ => rfl⟩
        ?_ hmost ?_ ?_ ⟨fun _ => rfl, id, id⟩ ?_ ?_ h.unused
      · simp [Call.counts, hplace, hat.2, SubmitPc.counted, SubmitPc.published]
      · simp [Call.expected, hplace, hat.2, SubmitPc.ended, SubmitPc.published]
      · simp [Call.refs, hplace, hat.1, hpending, SubmitPc.owner, hreleased]
      · intro hcompleted
        rw [hat.2] at hcompleted
        cases hcompleted
      · intro haccepting
        rw [haccepting] at haccepted
        cases haccepted
    · obtain rfl := Option.some.inj hs
      refine h.toPlace call .drops s.inFlight s.misused hne hat ?_ hmost ?_ ?_ h.unused
      · simp [Call.counts, hplace, SubmitPc.counted, SubmitPc.published]
      · simp [Call.expected, hplace, SubmitPc.ended, SubmitPc.published]
      · rw [hplace]; rfl
  · have hne : (s.call call).place ≠ .returned := by rw [hplace]; exact nofun
    obtain rfl := Option.some.inj hs
    refine h.toPlace call .finishes (s.inFlight - 1) s.misused hne hat ?_ (by omega) ?_ ?_ h.unused
    · simp [Call.counts, hplace, SubmitPc.counted, SubmitPc.published]
    · simp [Call.expected, hplace, SubmitPc.ended, SubmitPc.published]
    · rw [hplace]; rfl
  · have hne : (s.call call).place ≠ .returned := by rw [hplace]; exact nofun
    obtain rfl := Option.some.inj hs
    refine h.submitStep call _ s.inFlight s.misused hne rfl rfl hfine.listed (.inl rfl) hat.1 ?_ hmost ?_ ?_
      ⟨id, fun _ => rfl, id⟩ (fun _ hpending => ?_) (fun _ hl => hl) h.unused
    · simp [Call.counts, hplace, SubmitPc.counted, SubmitPc.published]
    · simp [Call.expected, hplace, hat.2, SubmitPc.ended, SubmitPc.published]
    · simp [Call.refs, hplace, SubmitPc.owner]
    · have hpending' : (s.call call).pending = true := hpending
      rw [(h.unsent hat.1).1] at hpending'
      cases hpending'
  · -- `set_notify`
    have hne : (s.call call).place ≠ .returned := by rw [hplace]; exact nofun
    obtain ⟨hsent, hregistered, hreleased, hpending⟩ := hat
    obtain rfl := Option.some.inj hs
    cases ok with
    | true =>
      have hnotify := (hfine.unregistered hne).2
      refine h.callStep call { s.call call with place := .returned, registered := true } s.inFlight
        _ ?_ hmost ?_ ?_ ?_
        ⟨id, id, id⟩ (fun hc hp => ⟨hc, hp⟩) (fun _ hl => hl) (h.use_misused hreleased)
      · simp [Call.unit, Call.counts, hplace, SubmitPc.counted, SubmitPc.published]
      · simp [Call.given, Call.expected, hplace, SubmitPc.ended, SubmitPc.published]
      · simp [Call.refs, hplace, SubmitPc.owner]
      · exact { hfine with
          atPlace := ⟨hsent, rfl, fun hcompleted => .inl (hpending hcompleted)⟩
          registered := fun _ => rfl
          notified := fun _ => rfl }
    | false =>
      have hcompleted := hok hplace rfl
      refine h.toPlace call .unregisters s.inFlight _ hne ⟨hsent, hregistered, hcompleted,
        hpending hcompleted⟩ ?_ hmost ?_
        ?_ (h.use_misused hreleased)
      · simp [Call.counts, hplace, hcompleted, SubmitPc.counted, SubmitPc.published]
      · simp [Call.expected, hplace, hcompleted, SubmitPc.ended, SubmitPc.published]
      · rw [hplace]; rfl
  · have hne : (s.call call).place ≠ .returned := by rw [hplace]; exact nofun
    obtain ⟨hsent, hregistered, hcompleted, hpending⟩ := hat
    obtain rfl := Option.some.inj hs
    refine h.submitStep call _ s.inFlight s.misused hne rfl rfl rfl (.inl rfl) ⟨hsent, hregistered,
      hcompleted, hpending⟩ ?_
      hmost ?_ ?_ ⟨id, id, id⟩ (fun _ => nofun) (fun _ => nofun) h.unused
    · simp [Call.counts, hplace, SubmitPc.counted, SubmitPc.published]
    · simp [Call.expected, hplace, SubmitPc.ended, SubmitPc.published]
    · simp [Call.refs, hplace, hpending, SubmitPc.owner]
  · rename_i owned
    have hne : (s.call call).place ≠ .returned := by rw [hplace]; exact nofun
    obtain ⟨hsent, hregistered, hcompleted, rfl⟩ := hat
    have hreleased := (h.of_owner (by rw [hplace]; rfl)).1
    obtain rfl := Option.some.inj hs
    refine h.submitStep call _ s.inFlight _ hne rfl rfl hfine.listed (.inl rfl)
      ⟨hsent, hregistered, hcompleted, rfl, Bool.or_true _⟩ ?_ hmost ?_ ?_
      ⟨id, id, fun _ => Bool.or_true _⟩ (fun hc hp => ⟨hc, hp⟩) (fun _ hl => hl) (h.useOwned_misused hreleased)
    · simp [Call.counts, hplace, SubmitPc.counted, SubmitPc.published]
    · simp [Call.expected, hplace, SubmitPc.ended, SubmitPc.published]
    · simp [Call.refs, hplace, SubmitPc.owner]
  · rename_i owned
    have hne : (s.call call).place ≠ .returned := by rw [hplace]; exact nofun
    obtain ⟨hsent, hregistered, hcompleted, rfl, hcancelled⟩ := hat
    obtain ⟨hreleased, hpending⟩ := h.of_owner (by rw [hplace]; rfl)
    obtain rfl := Option.some.inj hs
    refine h.submitStep call _ s.inFlight _ hne rfl rfl hfine.listed (.inr hcancelled) ⟨hsent,
      hregistered, hcompleted, hpending⟩ ?_
      hmost ?_ ?_ ⟨id, id, id⟩ (fun hc hp => ⟨hc, hp⟩) (fun _ hl => hl) (h.useOwned_misused hreleased)
    · simp [Call.counts, hplace, SubmitPc.counted, SubmitPc.published]
    · simp [Call.expected, hplace, SubmitPc.ended, SubmitPc.published]
    · simp [Call.refs, hplace, SubmitPc.owner]
      omega
  · have hne : (s.call call).place ≠ .returned := by rw [hplace]; exact nofun
    obtain rfl := Option.some.inj hs
    refine h.toPlace call .sets (s.inFlight - 1) s.misused hne hat ?_ (by omega) ?_ ?_ h.unused
    · simp [Call.counts, hplace, SubmitPc.counted, SubmitPc.published]
    · simp [Call.expected, hplace, SubmitPc.ended, SubmitPc.published]
    · rw [hplace]; rfl
  · have hne : (s.call call).place ≠ .returned := by rw [hplace]; exact nofun
    obtain rfl := Option.some.inj hs
    refine h.submitStep call _ s.inFlight s.misused hne rfl rfl hfine.listed (.inl rfl) hat ?_ hmost ?_ ?_
      ⟨id, id, id⟩ (fun hc hp => ⟨hc, hp⟩) (fun _ hl => hl) h.unused
    · simp [Call.counts, hplace, SubmitPc.counted, SubmitPc.published]
    · simp [Call.expected, hplace, SubmitPc.ended, SubmitPc.published]
    · simp [Call.refs, hplace, SubmitPc.owner]
  · cases hs
  · cases hs
  · cases hs

-- ---------------------------------------------------------------------------
-- `pendingComplete`
-- ---------------------------------------------------------------------------

omit [DecidableEq κ] in
theorem runNotify_inv {call : ι} (h : s.Inv limits) (hs : s.runNotify call = some s') : s'.Inv limits := by
  have hfine := h.fine call
  have hmost := h.atMost
  have hreturned : (s.call call).notify ≠ .none → (s.call call).place = .returned := fun hnotify =>
    hfine.registered (hfine.notified hnotify)
  have hat := hfine.atPlace
  unfold Call.AtPlace at hat
  unfold runNotify at hs
  dsimp only at hs
  split at hs <;> rename_i hnotify
  · have hplace := hreturned (by rw [hnotify]; exact nofun)
    have hdispatched := hfine.dispatched (by rw [hnotify]; exact nofun)
    rw [hplace] at hat
    obtain ⟨hsent, hregistered, hpending⟩ := hat
    have hpending' : (s.call call).completed = false → (s.call call).pending = true := fun hcompleted =>
      (hpending hcompleted).resolve_right (by rw [hnotify]; exact nofun)
    obtain rfl := Option.some.inj hs
    refine h.callStep call _ s.inFlight _ ?_ hmost ?_ rfl ?_ ⟨id, id, id⟩ (fun hc hp => ⟨hc,
      hp⟩) (fun _ hl => hl)
      (h.use_misused (hfine.steals hnotify))
    · simp [Call.unit, Call.counts, hnotify, NotifyPc.subbing]
    · simp [Call.given, Call.expected, hnotify, NotifyPc.owes]
    · exact .ofNotified hplace hsent hregistered hdispatched hfine.listed nofun nofun (fun hcompleted =>
        .inl (hpending' hcompleted))
        nofun nofun
  · have hplace := hreturned (by rw [hnotify]; exact nofun)
    have hdispatched := hfine.dispatched (by rw [hnotify]; exact nofun)
    rw [hplace] at hat
    obtain ⟨hsent, hregistered, -⟩ := hat
    have herased : ∀ released, Call.Fine { s.call call with
        notify := .exchanges, listed := false, pending := false, released } := fun released =>
      .ofNotified hplace hsent hregistered hdispatched rfl nofun nofun (fun _ => .inr rfl) (fun _ => rfl) nofun
    split at hs
    · rename_i hpending
      obtain rfl := Option.some.inj hs
      refine h.callStep call _ s.inFlight _ ?_ hmost ?_ ?_ (herased _) ⟨id, id, id⟩ (fun _ => nofun)
        (fun _ => nofun)
        (h.use_misused (h.released_of_pending hpending).1)
      · simp [Call.unit, Call.counts, hnotify, NotifyPc.subbing]
      · simp [Call.given, Call.expected, hnotify, NotifyPc.owes]
      · simp [Call.refs, hpending]
        omega
    · rename_i hpending
      have hpending' := eq_false_of_ne_true hpending
      obtain rfl := Option.some.inj hs
      have hcall : ({ s.call call with notify := .exchanges, listed := false } : Call) =
          { s.call call with notify := .exchanges, listed := false, pending := false } := by rw [← hpending']
      rw [hcall]
      refine h.callStep call _ s.inFlight s.misused ?_ hmost ?_ ?_ (herased _) ⟨id, id,
        id⟩ (fun _ => nofun) (fun _ => nofun)
        h.unused
      · simp [Call.unit, Call.counts, hnotify, NotifyPc.subbing]
      · simp [Call.given, Call.expected, hnotify, NotifyPc.owes]
      · simp [Call.refs, hpending']
  · have hplace := hreturned (by rw [hnotify]; exact nofun)
    have hdispatched := hfine.dispatched (by rw [hnotify]; exact nofun)
    rw [hplace] at hat
    obtain ⟨hsent, hregistered, -⟩ := hat
    have hpending := hfine.erased (by rw [hnotify]; rfl)
    have hnoPending : ∀ p : Prop, (s.call call).pending = true → p := fun _ hp => by
      rw [hpending] at hp
      cases hp
    have hexchanged : ∀ notify, notify ≠ .none → notify ≠ .steals →
        Call.Fine { s.call call with completed := true, notify } := fun notify hnone hsteals =>
      .ofNotified hplace hsent hregistered hdispatched hfine.listed hnone hsteals nofun (fun _ =>
        hpending) fun _ => rfl
    obtain rfl := Option.some.inj hs
    split
    · rename_i hcompleted
      have hcall : ({ s.call call with notify := .done } : Call) =
          { s.call call with completed := true, notify := .done } := by rw [← hcompleted]
      rw [hcall]
      refine h.callStep call _ s.inFlight s.misused ?_ hmost ?_ rfl (hexchanged _ nofun nofun) ⟨id,
        fun _ => rfl, id⟩
        (fun _ hp => hnoPending _ hp) (fun _ hl => hl) h.unused
      · simp [Call.unit, Call.counts, hnotify, hcompleted, NotifyPc.subbing]
      · simp [Call.given, Call.expected, hnotify, hcompleted, NotifyPc.owes]
    · rename_i hcompleted
      have hcompleted' := eq_false_of_ne_true hcompleted
      refine h.callStep call { s.call call with completed := true, notify := .subs } s.inFlight
        s.misused ?_ hmost ?_ rfl
        (hexchanged _ nofun nofun) ⟨id, fun _ => rfl, id⟩ (fun _ hp => hnoPending _ hp) (fun _ hl =>
          hl) h.unused
      · simp [Call.unit, Call.counts, hplace, hnotify, hcompleted', SubmitPc.counted,
          SubmitPc.published, NotifyPc.subbing]
      · simp [Call.given, Call.expected, hplace, hnotify, hcompleted', SubmitPc.ended,
          SubmitPc.published, NotifyPc.owes]
  · have hpending := hfine.erased (by rw [hnotify]; rfl)
    have hcompleted := hfine.exchanged (by rw [hnotify]; rfl)
    have hplace := hreturned (by rw [hnotify]; exact nofun)
    have hdispatched := hfine.dispatched (by rw [hnotify]; exact nofun)
    rw [hplace] at hat
    obtain rfl := Option.some.inj hs
    refine h.callStep call _ (s.inFlight - 1) s.misused ?_ (by omega) ?_ rfl ?_ ⟨id, id,
      id⟩ (fun hc hp => ⟨hc, hp⟩)
      (fun _ hl => hl) h.unused
    · simp [Call.unit, Call.counts, hnotify, NotifyPc.subbing]
    · simp [Call.given, Call.expected, hnotify, NotifyPc.owes]
    · exact .ofNotified hplace hat.1 hat.2.1 hdispatched hfine.listed nofun nofun
        (fun hnot => absurd hcompleted (by rw [hnot]; exact nofun)) (fun _ => hpending) fun _ => hcompleted
  · have hpending := hfine.erased (by rw [hnotify]; rfl)
    have hcompleted := hfine.exchanged (by rw [hnotify]; rfl)
    have hplace := hreturned (by rw [hnotify]; exact nofun)
    have hdispatched := hfine.dispatched (by rw [hnotify]; exact nofun)
    rw [hplace] at hat
    obtain rfl := Option.some.inj hs
    refine h.callStep call _ s.inFlight s.misused ?_ hmost ?_ rfl ?_ ⟨id, id, id⟩ (fun hc hp => ⟨hc, hp⟩)
      (fun _ hl => hl) h.unused
    · simp [Call.unit, Call.counts, hnotify, NotifyPc.subbing]
    · simp [Call.given, Call.expected, hnotify, NotifyPc.owes]
    · exact .ofNotified hplace hat.1 hat.2.1 hdispatched hfine.listed nofun nofun
        (fun hnot => absurd hcompleted (by rw [hnot]; exact nofun)) (fun _ => hpending) fun _ => hcompleted
  · cases hs
  · cases hs

-- ---------------------------------------------------------------------------
-- Threads that complete calls
-- ---------------------------------------------------------------------------

variable {thread : κ} {reason : Reason} {stage : Stage} {call : ι} {rest : List ι}

/-- A thread goes on with the call. -/
theorem Inv.goOn (h : s.Inv limits) (hthread : s.thread thread = .completes reason stage call rest)
    (stage' : Stage) (c : Call)
    (inFlight : Int) (misused : Bool)
    (hunit : inFlight + (s.call call).unit + stage.subbing.toNat = s.inFlight + c.unit + stage'.subbing.toNat)
    (hmost : inFlight ≤ limits.most)
    (hgiven : c.given + stage'.owes.toNat + (s.call call).expected = (s.call call).given +
    stage.owes.toNat + c.expected)
    (hrefs : c.refs + stage'.holds.toNat = (s.call call).refs + stage.holds.toNat)
    (hsent : c.sent = (s.call call).sent)
    (hfine : c.Fine) (hextends : (s.call call).Extends c) (hcompleted : stage' ≠ .exchanges → c.completed)
    (hcancelled : stage' = .unrefs ∨ stage' = .releases → c.cancelled)
    (hcleared : c.pending → (s.call call).pending ∧ ((s.call call).completed ∨ stage'.before ∧
    stage' ≠ .exchanges))
    (hlisted : c.listed → (s.call call).listed)
    (hbefore : c.pending → stage.before → stage'.before ∧ (reason = .handle → stage' ≠ .exchanges))
    (hunused : misused = false) :
    Inv limits { s with
      call := Function.update s.call call c
      thread := Function.update s.thread thread (.completes reason stage' call rest), inFlight, misused } := by
  have hknows := h.knows thread
  have hsubbing : ∀ stage, (ThreadPc.completes reason stage call rest).subbing = stage.subbing.toNat := by
    intro stage
    cases stage <;> rfl
  have howes : ∀ stage, (ThreadPc.completes reason stage call rest).owes call = stage.owes.toNat := by
    intro stage
    rw [ThreadPc.owes, decide_eq_true rfl, Bool.and_true]
  have hholds : ∀ stage, (ThreadPc.completes reason stage call rest).holds call = stage.holds.toNat := by
    intro stage
    rw [ThreadPc.holds, decide_eq_true rfl, Bool.and_true]
  rw [hthread] at hknows
  obtain ⟨hall, -, -, hhandle⟩ := hknows
  refine h.threadStep thread _ call c inFlight misused ?_ hmost ?_ ?_ hsent ?_ hfine hextends ?_ ?_
    hlisted ?_ ?_ ?_ hunused
  · rw [hthread, hsubbing, hsubbing]
    exact hunit
  · rw [hthread, howes, howes]
    exact hgiven
  · rw [hthread, hholds, hholds]
    exact hrefs
  · intro other hne
    rw [hthread, ThreadPc.owes_of_ne hne, ThreadPc.owes_of_ne hne, ThreadPc.holds_of_ne hne,
      ThreadPc.holds_of_ne hne]
    exact ⟨rfl, rfl⟩
  · refine ⟨fun other hmem => ?_, ?_, ?_, hhandle⟩
    · rw [Function.update_apply]
      split
      · rename_i hsame
        rw [hsent]
        exact hsame ▸ hall other hmem
      · exact hall other hmem
    · rw [Function.update_self]
      exact hcompleted
    · rw [Function.update_self]
      exact hcancelled
  · intro _ hpending
    obtain ⟨hpending', hcompleted' | ⟨hbefore', hne⟩⟩ := hcleared hpending
    · exact .inl ⟨hcompleted', hpending'⟩
    · exact .inr (.inl ⟨hbefore', fun _ => hne, rfl⟩)
  · intro other hpending hclears
    rw [hthread] at hclears
    obtain ⟨hstage, -, rfl⟩ | hmem := hclears
    · obtain ⟨hbefore', hne⟩ := hbefore (hpending rfl) hstage
      exact .inl ⟨hbefore', hne, rfl⟩
    · exact .inr hmem
  · rw [hthread, ThreadPc.completes_shutting, ThreadPc.completes_shutting]
    exact id
  · rw [hthread, ThreadPc.completes_shutting, ThreadPc.completes_shutting]
    exact .inl

/-- A thread has done what it does with the call. -/
theorem Inv.goNext (h : s.Inv limits) (hthread : s.thread thread = .completes reason stage call rest) (c : Call)
    (misused : Bool) (hsubbing : stage.subbing = false) (hunit : c.unit = (s.call call).unit)
    (hgiven : c.given + (s.call call).expected = (s.call call).given + stage.owes.toNat + c.expected)
    (hrefs : c.refs = (s.call call).refs + stage.holds.toNat) (hsent : c.sent = (s.call call).sent)
    (hfine : c.Fine)
    (hextends : (s.call call).Extends c) (hpending : c.pending → (s.call call).pending ∧
    (s.call call).completed)
    (hlisted : c.listed → (s.call call).listed)
    (hbefore : c.pending → stage.before → reason = .handle ∧ stage = .exchanges) (hunused : misused = false) :
    Inv limits { s with
      call := Function.update s.call call c, thread := Function.update s.thread thread (.next reason rest),
        misused } := by
  have hknows := h.knows thread
  rw [hthread] at hknows
  obtain ⟨hall, -, -, hhandle⟩ := hknows
  have hsubbing' : (ThreadPc.completes reason stage call rest).subbing = stage.subbing.toNat := by
    cases stage <;> rfl
  have howes : (ThreadPc.completes reason stage call rest).owes call = stage.owes.toNat := by
    rw [ThreadPc.owes, decide_eq_true rfl, Bool.and_true]
  have hholds : (ThreadPc.completes reason stage call rest).holds call = stage.holds.toNat := by
    rw [ThreadPc.holds, decide_eq_true rfl, Bool.and_true]
  refine h.threadStep thread _ call c s.inFlight misused ?_ h.atMost ?_ ?_ hsent ?_ hfine hextends
    ?_ ?_ hlisted ?_ ?_ ?_
    hunused
  · rw [hthread, hsubbing', hsubbing, ThreadPc.next_subbing, hunit]
    rfl
  · rw [hthread, howes, ThreadPc.next_owes]
    exact hgiven
  · rw [hthread, hholds, ThreadPc.next_holds]
    exact hrefs
  · intro other hne
    rw [hthread, ThreadPc.owes_of_ne hne, ThreadPc.holds_of_ne hne, ThreadPc.next_owes, ThreadPc.next_holds]
    exact ⟨rfl, rfl⟩
  · refine ThreadPc.next_knows (fun heq => by rw [hhandle heq]; rfl) fun other hmem => ?_
    rw [Function.update_apply]
    split
    · rename_i hsame
      rw [hsent]
      exact hsame ▸ hall other (.tail _ hmem)
    · exact hall other (.tail _ hmem)
  · exact fun _ hp => .inl ⟨(hpending hp).2, (hpending hp).1⟩
  · intro other hp hclears
    rw [hthread] at hclears
    obtain ⟨hstage, hne, rfl⟩ | hmem := hclears
    · obtain ⟨hreason, hexchanges⟩ := hbefore (hp rfl) hstage
      exact absurd hexchanges (hne hreason)
    · exact ThreadPc.next_clears hhandle hmem
  · rw [hthread, ThreadPc.completes_shutting, ThreadPc.next_shutting]
    exact id
  · rw [hthread, ThreadPc.completes_shutting, ThreadPc.next_shutting]
    exact .inl

omit [DecidableEq κ] in
/-- A call that another thread completes, and is still where it can be completed. -/
theorem Inv.knowsCall (h : s.Inv limits) (hthread : s.thread thread = .completes reason stage call rest)
    (hstage : stage ≠ .exchanges) :
    (s.call call).sent ∧ (s.call call).completed ∧ (s.call call).place.published ∧
      (stage = .unrefs ∨ stage = .releases → (s.call call).cancelled) := by
  have hknows := h.knows thread
  rw [hthread] at hknows
  obtain ⟨hall, hcompleted, hcancelled, -⟩ := hknows
  exact ⟨hall call (.head _), hcompleted hstage,
    (h.fine call).published (hall call (.head _)) ((h.fine call).not_failing (hcompleted hstage)), hcancelled⟩

theorem Inv.exchanges (h : s.Inv limits) (hthread : s.thread thread = .completes reason .exchanges call rest)
    (hfailing : (s.call call).place.failing = false) :
    (s.complete thread reason .exchanges call rest).Inv limits := by
  have hfine := h.fine call
  have hknows := h.knows thread
  rw [hthread] at hknows
  obtain ⟨hall, -, -, hhandle⟩ := hknows
  have hsent := hall call (.head _)
  unfold complete
  dsimp only
  split
  · rename_i hcompleted
    split
    · -- A handle leaves the pending call to whom has completed the call.
      rename_i hreason
      have hdone := h.goNext hthread (s.call call) s.misused rfl rfl rfl rfl rfl hfine ⟨id, id, id⟩
        (fun hp => ⟨hp, hcompleted⟩) id (fun _ _ => ⟨hreason, rfl⟩) h.unused
      rw [Function.update_eq_self, hhandle hreason, hreason] at hdone
      exact hdone
    · have hgone := h.goOn hthread .takes (s.call call) s.inFlight s.misused rfl h.atMost rfl rfl
        rfl hfine ⟨id, id, id⟩
        (fun _ => hcompleted) (fun hne => by obtain hne | hne := hne <;> cases hne) (fun hp => ⟨hp,
          .inl hcompleted⟩) id
        (fun _ _ => ⟨rfl, fun _ => nofun⟩) h.unused
      rw [Function.update_eq_self] at hgone
      exact hgone
  · rename_i hcompleted
    have hcompleted' := eq_false_of_ne_true hcompleted
    have hpublished := hfine.published hsent hfailing
    have hcounts : (s.call call).counts = true := by rw [Call.counts, hpublished, hcompleted']; simp
    have hcounted : (s.call call).place.counted = false ∧ (s.call call).place.ended = false := by
      obtain heq | heq := SubmitPc.published_cases hpublished <;> rw [heq] <;> exact ⟨rfl, rfl⟩
    refine h.goOn hthread .subs { s.call call with completed := true } s.inFlight s.misused ?_
      h.atMost ?_ rfl rfl ?_
      ⟨id, fun _ => rfl, id⟩ (fun _ => rfl) (fun hne => by obtain hne | hne := hne <;> cases hne)
      (fun hp => ⟨hp, .inr ⟨rfl, nofun⟩⟩) id (fun _ _ => ⟨rfl, fun _ => nofun⟩) h.unused
    · have hcounts' : Call.counts { s.call call with completed := true } = false := by
        simp [Call.counts, hcounted.1]
      simp [Call.unit, hcounts, hcounts', Stage.subbing]
      omega
    · simp [Call.given, Call.expected, hpublished, hcompleted', hcounted.2, Stage.owes]
    · refine hfine.ofCompleted hpublished rfl rfl rfl rfl rfl rfl hfine.listed id (fun hplace =>
        ?_) hfine.steals hfine.unstarted
      have hat := hfine.atPlace
      rw [Call.AtPlace, hplace] at hat
      exact hat.2.2.1

theorem Inv.complete (h : s.Inv limits) (hthread : s.thread thread = .completes reason stage call rest)
    (hfailing : stage = .exchanges → (s.call call).place.failing = false)
    (hreleases : stage = .releases → (s.call call).place ≠ .registers ∧ (s.call call).notify ≠ .steals) :
    (s.complete thread reason stage call rest).Inv limits := by
  have hfine := h.fine call
  have hmost := h.atMost
  have hregisters : (s.call call).place = .registers → (s.call call).released = 0 := fun hplace => by
    have hat := hfine.atPlace
    rw [Call.AtPlace, hplace] at hat
    exact hat.2.2.1
  cases stage with
  | exchanges => exact h.exchanges hthread (hfailing rfl)
  | subs =>
    obtain ⟨-, hcompleted, -, -⟩ := h.knowsCall hthread nofun
    have hgone := h.goOn hthread .sets (s.call call) (s.inFlight - 1) s.misused (by simp [Stage.subbing]; omega)
      (by omega) rfl rfl rfl hfine
      ⟨id, id, id⟩ (fun _ => hcompleted) (fun hne => by obtain hne | hne := hne <;> cases hne)
        (fun hp => ⟨hp, .inl hcompleted⟩)
      id (fun _ _ => ⟨rfl, fun _ => nofun⟩) h.unused
    rw [Function.update_eq_self] at hgone
    exact hgone
  | sets =>
    obtain ⟨-, hcompleted, -, -⟩ := h.knowsCall hthread nofun
    refine h.goOn hthread .takes { s.call call with results := (s.call call).results ++ [reason.outcome] }
      s.inFlight s.misused
      rfl hmost ?_ rfl rfl { hfine with } ⟨id, id, id⟩ (fun _ => hcompleted)
      (fun hne => by obtain hne | hne := hne <;> cases hne) (fun hp => ⟨hp, .inl hcompleted⟩) id
      (fun _ _ => ⟨rfl, fun _ => nofun⟩) h.unused
    simp [Call.given, Call.expected, Stage.owes]
    omega
  | takes =>
    obtain ⟨-, hcompleted, hpublished, -⟩ := h.knowsCall hthread nofun
    unfold Calls.complete
    dsimp only
    split
    · rename_i hpending
      have hreleased := (h.released_of_pending hpending).1
      refine h.goOn hthread .cancels { s.call call with pending := false, listed := false } s.inFlight
        _ rfl hmost rfl ?_ rfl ?_
        ⟨id, id, id⟩ (fun _ => hcompleted) (fun hne => by obtain hne | hne := hne <;> cases hne)
          nofun nofun nofun
        (h.use_misused hreleased)
      · simp [Call.refs, hpending, Stage.holds]
        omega
      · exact hfine.ofCompleted hpublished hcompleted rfl rfl rfl rfl rfl rfl nofun (fun _ =>
          hreleased) (fun _ => hreleased)
          (fun _ => .inl hreleased)
    · rename_i hpending
      have hgone := h.goNext hthread (s.call call) s.misused rfl rfl rfl rfl rfl hfine ⟨id, id, id⟩
        (fun hp => absurd hp hpending) id (fun hp => absurd hp hpending) h.unused
      rw [Function.update_eq_self] at hgone
      exact hgone
  | cancels =>
    obtain ⟨-, hcompleted, hpublished, -⟩ := h.knowsCall hthread nofun
    have hreleased : (s.call call).released = 0 := h.released_of_holds (by
      rw [hthread]; simp [ThreadPc.holds, Stage.holds])
    refine h.goOn hthread .unrefs { s.call call with cancelled := true } s.inFlight _ rfl hmost rfl rfl rfl ?_
      ⟨id, id, fun _ => rfl⟩ (fun _ => hcompleted) (fun _ => rfl) (fun hp => ⟨hp, .inl hcompleted⟩) id nofun
      (h.use_misused hreleased)
    exact hfine.ofCompleted hpublished hcompleted rfl rfl rfl rfl rfl hfine.listed id hregisters
      hfine.steals fun _ => .inr rfl
  | unrefs =>
    obtain ⟨-, hcompleted, -, hcancelled⟩ := h.knowsCall hthread nofun
    have hreleased : (s.call call).released = 0 := h.released_of_holds (by
      rw [hthread]; simp [ThreadPc.holds, Stage.holds])
    have hgone := h.goOn hthread .releases (s.call call) s.inFlight _ rfl hmost rfl rfl rfl hfine ⟨id, id, id⟩
      (fun _ => hcompleted) (fun _ => hcancelled (.inl rfl)) (fun hp => ⟨hp, .inl hcompleted⟩) id nofun
      (h.use_misused hreleased)
    rw [Function.update_eq_self] at hgone
    exact hgone
  | releases =>
    obtain ⟨-, hcompleted, hpublished, hcancelled⟩ := h.knowsCall hthread nofun
    obtain ⟨hplace, hsteals⟩ := hreleases rfl
    have hreleased : (s.call call).released = 0 := h.released_of_holds (by
      rw [hthread]; simp [ThreadPc.holds, Stage.holds])
    refine h.goNext hthread { s.call call with released := (s.call call).released + 1 } _ rfl rfl
      rfl ?_ rfl ?_ ⟨id, id, id⟩
      (fun hp => ⟨hp, hcompleted⟩) id nofun (h.use_misused hreleased)
    · simp [Call.refs, Stage.holds]
      omega
    · exact hfine.ofCompleted hpublished hcompleted rfl rfl rfl rfl rfl hfine.listed id (fun heq =>
        absurd heq hplace)
        (fun heq => absurd heq hsteals) fun _ => .inr (hcancelled (.inr rfl))

/-- A thread moves, and no call. -/
theorem Inv.threadOnly (h : s.Inv limits) (thread : κ) (pc : ThreadPc ι) (accepting shutdownStarted : Bool)
    (hsubbing : pc.subbing = (s.thread thread).subbing) (howes : ∀ call, pc.owes call =
    (s.thread thread).owes call)
    (hholds : ∀ call, pc.holds call = (s.thread thread).holds call) (hknows : pc.Knows s.call)
    (hclears : ∀ call, (s.thread thread).clears call → pc.clears call)
    (haccepting : s.accepting = false → accepting = false)
    (hshutting : pc.shutting → accepting = false ∧ ∀ call, (s.call call).listed → pc.clears call)
    (hclosed : accepting = false →
      pc.shutting ∨ (∃ other, other ≠ thread ∧ (s.thread other).shutting) ∨ ∀ call,
        (s.call call).listed = false) :
    Inv limits { s with thread := Function.update s.thread thread pc, accepting, shutdownStarted } where
  units := by
    have hthreads := census_update ThreadPc.subbing s.thread thread pc
    have hunits := h.units
    show s.inFlight = (census Call.unit s.call + census ThreadPc.subbing (Function.update s.thread
      thread pc) : Nat)
    omega
  atMost := h.atMost
  given call := by
    have hcensus := census_update (ThreadPc.owes call) s.thread thread pc
    have hcall := h.given call
    have hpc := howes call
    show (s.call call).given + census (ThreadPc.owes call) (Function.update s.thread thread pc) =
      (s.call call).expected
    omega
  refs call := by
    have hcensus := census_update (ThreadPc.holds call) s.thread thread pc
    have hcall := h.refs call
    have hpc := hholds call
    show (s.call call).refs + census (ThreadPc.holds call) (Function.update s.thread thread pc) =
      (s.call call).sent.toNat
    omega
  fine := h.fine
  knows other := by
    show (Function.update s.thread thread pc other).Knows s.call
    rw [Function.update_apply]
    split
    · exact hknows
    · exact h.knows other
  cleared call hcompleted hpending := by
    obtain ⟨other, hother⟩ := h.cleared call hcompleted hpending
    refine ⟨other, ?_⟩
    show (Function.update s.thread thread pc other).clears call
    rw [Function.update_apply]
    split
    · rename_i hsame
      exact hclears call (hsame ▸ hother)
    · exact hother
  closing other hother := by
    change (Function.update s.thread thread pc other).shutting at hother
    show _ ∧ ∀ call, _ → (Function.update s.thread thread pc other).clears call
    rw [Function.update_apply] at hother ⊢
    split at hother
    · rename_i hsame
      rw [if_pos hsame]
      exact hshutting hother
    · rename_i hne
      rw [if_neg hne]
      exact ⟨haccepting (h.closing other hother).1, (h.closing other hother).2⟩
  closed hnot := by
    obtain hpc | ⟨other, hne, hother⟩ | hall := hclosed hnot
    · refine .inl ⟨thread, ?_⟩
      show (Function.update s.thread thread pc thread).shutting
      rw [Function.update_self]
      exact hpc
    · refine .inl ⟨other, ?_⟩
      show (Function.update s.thread thread pc other).shutting
      rw [Function.update_of_ne hne]
      exact hother
    · exact .inr hall
  unused := h.unused

theorem runThread_inv (h : s.Inv limits) (hok : s.Undisturbed (.thread thread))
    (hs : s.runThread thread = some s') :
    s'.Inv limits := by
  unfold Undisturbed at hok
  unfold runThread at hs
  dsimp only at hok
  split at hs <;> rename_i hthread
  · cases hs
  · rw [hthread] at hok
    obtain rfl := Option.some.inj hs
    refine h.complete hthread (fun heq => ?_) fun heq => ?_
    · subst heq
      exact hok
    · subst heq
      exact hok
  · have hnone : ∀ call, (s.call call).listed = false := fun call => eq_false_of_ne_true fun hlisted => by
      have hclears := (h.closing thread (by rw [hthread]; rfl)).2 call hlisted
      rw [hthread] at hclears
      exact hclears
    obtain rfl := Option.some.inj hs
    have hcall : (fun call => close (s.call call)) = s.call := funext fun call => by
      rw [close, hnone call]
      rfl
    rw [hcall]
    refine h.threadOnly thread .idle s.accepting s.shutdownStarted (by rw [hthread]; rfl) (fun _ => by
      rw [hthread]; rfl)
      (fun _ => by rw [hthread]; rfl) trivial (fun _ => by rw [hthread]; exact id) id nofun fun _ =>
        .inr (.inr hnone)

/-- A thread begins to complete calls. -/
theorem Inv.starts (h : s.Inv limits) (hthread : s.thread thread = .idle) (calls : List ι)
    (accepting shutdownStarted : Bool)
    (hhandle : reason = .handle → calls.tail = []) (hsent : ∀ call ∈ calls, (s.call call).sent)
    (haccepting : s.accepting = false → accepting = false)
    (hshutdown : reason = .shutdown → accepting = false ∧ ∀ call, (s.call call).listed → call ∈ calls)
    (hclosed : accepting = false → s.accepting = false ∨ reason = .shutdown) :
    Inv limits
      { s with
        thread := Function.update s.thread thread (.next reason calls), accepting, shutdownStarted } := by
  refine h.threadOnly thread _ accepting shutdownStarted (by rw [hthread, ThreadPc.next_subbing]; rfl)
    (fun call => by rw [hthread, ThreadPc.next_owes]; rfl) (fun call => by
    rw [hthread, ThreadPc.next_holds]; rfl)
    (ThreadPc.next_knows hhandle hsent) (fun call hclears => ?_) haccepting (fun hshutting => ?_) fun hnot => ?_
  · rw [hthread] at hclears
    exact hclears.elim
  · rw [ThreadPc.next_shutting] at hshutting
    have hreason := of_decide_eq_true hshutting
    refine ⟨(hshutdown hreason).1, fun call hlisted => ThreadPc.next_clears (fun heq => ?_)
      ((hshutdown hreason).2 call hlisted)⟩
    rw [hreason] at heq
    cases heq
  · obtain hold | hreason := hclosed hnot
    · obtain ⟨other, hother⟩ | hall := h.closed hold
      · refine .inr (.inl ⟨other, fun hsame => ?_, hother⟩)
        rw [hsame, hthread] at hother
        cases hother
      · exact .inr (.inr hall)
    · exact .inl (by rw [ThreadPc.next_shutting, hreason]; rfl)

omit [DecidableEq κ] in
theorem Inv.sent_of_listed (h : s.Inv limits) {call : ι} (hlisted : (s.call call).listed) :
    (s.call call).sent :=
  (h.released_of_pending ((h.fine call).listed ▸ hlisted)).2

theorem step_inv {action : Action ι κ} (h : s.Inv limits) (hok : s.Undisturbed action)
    (hs : s.step limits action = some s') : s'.Inv limits := by
  cases action with
  | submit call ok => exact runSubmit_inv h hok hs
  | notify call => exact runNotify_inv h hs
  | thread thread => exact runThread_inv h hok hs
  | deadline call =>
    obtain rfl := Option.some.inj hs
    exact h.callStep call { s.call call with expired := true } s.inFlight s.misused rfl h.atMost rfl rfl
      { h.fine call with } ⟨id, id, id⟩ (fun hc hp => ⟨hc, hp⟩) (fun _ hl => hl) h.unused
  | reply call =>
    have hfine := h.fine call
    simp only [step] at hs
    split at hs
    · rename_i hdispatched
      have hnone : (s.call call).notify = .none := not_not.mp fun hne => by
        rw [hfine.dispatched hne] at hdispatched
        cases hdispatched.2.2
      obtain rfl := Option.some.inj hs
      refine h.callStep call _ s.inFlight s.misused ?_ h.atMost ?_ rfl ?_ ⟨id, id, id⟩ (fun hc hp => ⟨hc, hp⟩)
        (fun _ hl => hl) h.unused
      · simp only [Call.unit, hnone]
        split <;> rfl
      · simp only [Call.given, hnone]
        split <;> rfl
      · split
        · rename_i hbegins
          rw [Bool.and_eq_true, Bool.not_eq_true'] at hbegins
          obtain ⟨hregistered, hcancelled⟩ := hbegins
          have hplace := hfine.registered hregistered
          have hat := hfine.atPlace
          rw [Call.AtPlace, hplace] at hat
          exact {
            atPlace := by
              unfold Call.AtPlace
              rw [hplace]
              exact ⟨hat.1, hregistered, fun hcompleted => .inl ((hat.2.2 hcompleted).resolve_right (by
                rw [hnone]
                exact nofun))⟩
            listed := hfine.listed
            registered := hfine.registered
            notified := fun _ => hregistered
            dispatched := fun _ => rfl
            steals := fun _ => (hfine.unstarted hnone).resolve_right (by rw [hcancelled]; exact nofun)
            unstarted := nofun
            erased := nofun
            exchanged := nofun }
        · exact { hfine with dispatched := fun _ => rfl }
    · cases hs
  | cancelCall thread call =>
    simp only [step, start] at hs
    split at hs
    · rename_i hthread
      split at hs
      · rename_i hplace
        have hat := (h.fine call).atPlace
        rw [Call.AtPlace, hplace] at hat
        obtain rfl := Option.some.inj hs
        refine h.starts hthread [call] s.accepting s.shutdownStarted (fun _ => rfl) (fun other hmem =>
          ?_) id nofun .inl
        rw [List.mem_singleton.mp hmem]
        exact hat.1
      · cases hs
    · cases hs
  | expireCalls thread calls =>
    simp only [step, start] at hs
    split at hs
    · rename_i hthread
      split at hs
      · rename_i hcalls
        obtain rfl := Option.some.inj hs
        exact h.starts hthread calls s.accepting s.shutdownStarted nofun
          (fun call hmem => h.sent_of_listed (hcalls.2.2 call hmem).1) id nofun .inl
      · cases hs
    · cases hs
  | failPendingOnDisconnect thread calls =>
    simp only [step, start] at hs
    split at hs
    · rename_i hthread
      split at hs
      · rename_i hcalls
        obtain rfl := Option.some.inj hs
        exact h.starts hthread calls s.accepting s.shutdownStarted nofun
          (fun call hmem => h.sent_of_listed ((hcalls.2.2 call).mp hmem)) id nofun .inl
      · cases hs
    · cases hs
  | shutdown thread calls =>
    simp only [step, start] at hs
    split at hs
    · rename_i hthread
      split at hs
      · rename_i hcalls
        obtain rfl := Option.some.inj hs
        exact h.starts hthread calls false true nofun (fun call hmem => h.sent_of_listed
          ((hcalls.2.2 call).mp hmem))
          (fun _ => rfl) (fun _ => ⟨rfl, fun call hlisted => (hcalls.2.2 call).mpr hlisted⟩) fun _ => .inr rfl
      · cases hs
    · cases hs

end Calls
end Dmn.Dbus
